import Mathlib.Data.List.Basic

/-!
# EighthLayer.Lib.Like

The operator `LIKE` of SQLite: `%` stands for any text, `_` for any character, and letters of ASCII
for both cases.

A pattern is matched part by part (`likeMatch_append`), and one without wildcards by the texts that
are it up to case (`likeMatch_plain`).
-/

namespace Lib

/-- Whether `f` holds of the text, or of what follows some of its characters. -/
def anySuffix (f : List Char → Bool) : List Char → Bool
  | [] => f []
  | d :: t => f (d :: t) || anySuffix f t

/-- Whether a text matches a pattern. -/
def likeMatch : List Char → List Char → Bool
  | [], t => t.isEmpty
  | c :: p, t =>
    if c = '%' then anySuffix (likeMatch p) t
    else match t with
      | [] => false
      | d :: t => (c = '_' || c.toLower = d.toLower) && likeMatch p t

/-- `text LIKE pattern`. Both end at the first U+0000. -/
def like (text pattern : List Char) : Bool :=
  likeMatch (pattern.takeWhile (· ≠ '\x00')) (text.takeWhile (· ≠ '\x00'))

/-- Whether a character stands for others in a pattern. -/
def isWildcard (c : Char) : Bool := c = '%' || c = '_'

/-! ## Letters -/

theorem toLower_eq_self {c : Char} (h : c.isUpper = false) : c.toLower = c :=
  dif_neg (of_decide_eq_false h)

theorem toNat_toLower {c : Char} (h : c.isUpper = true) :
    65 ≤ c.toNat ∧ c.toNat ≤ 90 ∧ c.toLower.toNat = c.toNat + 32 := by
  have hrange := of_decide_eq_true h
  have hlow : 65 ≤ c.val.toNat := UInt32.le_iff_toNat_le.mp hrange.1
  have hhigh : c.val.toNat ≤ 90 := UInt32.le_iff_toNat_le.mp hrange.2
  refine ⟨hlow, hhigh, ?_⟩
  show c.toLower.val.toNat = c.val.toNat + 32
  unfold Char.toLower
  rw [dif_pos hrange, UInt32.toNat_add, show ('a'.val - 'A'.val).toNat = 32 from rfl]
  omega

theorem isLower_toLower {c : Char} (h : c.isUpper = true) : c.toLower.isLower = true := by
  obtain ⟨hlow, hhigh, hnat⟩ := toNat_toLower h
  have hval : c.toLower.val.toNat = c.toNat + 32 := hnat
  have hge : 97 ≤ c.toLower.val.toNat := by omega
  have hle : c.toLower.val.toNat ≤ 122 := by omega
  exact Bool.and_eq_true_iff.mpr ⟨decide_eq_true (UInt32.le_iff_toNat_le.mpr hge),
    decide_eq_true (UInt32.le_iff_toNat_le.mpr hle)⟩

/-- What is no letter has no other case. -/
theorem eq_of_toLower_eq {c d : Char} (hc : c.isAlpha = false) (h : c.toLower = d.toLower) :
    c = d := by
  obtain ⟨hupper, hlower⟩ := Bool.or_eq_false_iff.mp hc
  rw [toLower_eq_self hupper] at h
  cases hd : d.isUpper with
  | false => rw [h, toLower_eq_self hd]
  | true =>
      rw [h, isLower_toLower hd] at hlower
      cases hlower

/-- A text without letters is the only one that it is up to case. -/
theorem eq_of_map_toLower_eq {s t : List Char} (hs : ∀ c ∈ s, c.isAlpha = false)
    (h : s.map Char.toLower = t.map Char.toLower) : s = t := by
  induction s generalizing t with
  | nil => exact (List.map_eq_nil_iff.mp h.symm).symm
  | cons c s ih =>
      cases t with
      | nil => cases h
      | cons d t =>
          rw [List.map_cons, List.map_cons, List.cons.injEq] at h
          rw [eq_of_toLower_eq (hs c List.mem_cons_self) h.1,
            ih (fun x hx => hs x (List.mem_cons_of_mem _ hx)) h.2]

/-! ## Matching -/

theorem anySuffix_iff {f : List Char → Bool} {t : List Char} :
    anySuffix f t = true ↔ ∃ a b, t = a ++ b ∧ f b = true := by
  induction t with
  | nil =>
      constructor
      · exact fun h => ⟨[], [], rfl, h⟩
      · rintro ⟨a, b, hab, hf⟩
        rw [(List.append_eq_nil_iff.mp hab.symm).2] at hf
        exact hf
  | cons d t ih =>
      rw [anySuffix, Bool.or_eq_true, ih]
      constructor
      · rintro (h | ⟨a, b, rfl, hf⟩)
        · exact ⟨[], d :: t, rfl, h⟩
        · exact ⟨d :: a, b, rfl, hf⟩
      · rintro ⟨a, b, hab, hf⟩
        cases a with
        | nil => exact .inl (hab ▸ hf)
        | cons e a =>
            rw [List.cons_append] at hab
            exact .inr ⟨a, b, (List.cons.inj hab).2, hf⟩

theorem likeMatch_nil {t : List Char} : likeMatch [] t = true ↔ t = [] := List.isEmpty_iff

theorem likeMatch_percent {p t : List Char} :
    likeMatch ('%' :: p) t = true ↔ ∃ a b, t = a ++ b ∧ likeMatch p b = true := by
  rw [likeMatch.eq_def]
  dsimp only
  rw [if_pos rfl, anySuffix_iff]

theorem likeMatch_cons {c : Char} (hc : c ≠ '%') {p t : List Char} :
    likeMatch (c :: p) t = true ↔
      ∃ d b, t = d :: b ∧ (c = '_' ∨ c.toLower = d.toLower) ∧ likeMatch p b = true := by
  rw [likeMatch.eq_def]
  dsimp only
  rw [if_neg hc]
  cases t with
  | nil => simp
  | cons d t => simp [and_assoc]

/-- A pattern in two parts is matched by a text in two. -/
theorem likeMatch_append {p q t : List Char} :
    likeMatch (p ++ q) t = true ↔
      ∃ a b, t = a ++ b ∧ likeMatch p a = true ∧ likeMatch q b = true := by
  induction p generalizing t with
  | nil =>
      constructor
      · exact fun h => ⟨[], t, rfl, likeMatch_nil.mpr rfl, h⟩
      · rintro ⟨a, b, rfl, ha, hb⟩
        rw [likeMatch_nil.mp ha]
        exact hb
  | cons c p ih =>
      rw [List.cons_append]
      by_cases hc : c = '%'
      · rw [hc, likeMatch_percent]
        constructor
        · rintro ⟨x, y, rfl, hy⟩
          obtain ⟨a, b, rfl, ha, hb⟩ := ih.mp hy
          exact ⟨x ++ a, b, (List.append_assoc _ _ _).symm, likeMatch_percent.mpr ⟨x, a, rfl, ha⟩, hb⟩
        · rintro ⟨a, b, rfl, ha, hb⟩
          obtain ⟨x, y, rfl, hy⟩ := likeMatch_percent.mp ha
          exact ⟨x, y ++ b, List.append_assoc _ _ _, ih.mpr ⟨y, b, rfl, hy, hb⟩⟩
      · rw [likeMatch_cons hc]
        constructor
        · rintro ⟨d, y, rfl, hd, hy⟩
          obtain ⟨a, b, rfl, ha, hb⟩ := ih.mp hy
          exact ⟨d :: a, b, rfl, (likeMatch_cons hc).mpr ⟨d, a, rfl, hd, ha⟩, hb⟩
        · rintro ⟨a, b, rfl, ha, hb⟩
          obtain ⟨d, y, rfl, hd, hy⟩ := (likeMatch_cons hc).mp ha
          exact ⟨d, y ++ b, rfl, hd, ih.mpr ⟨y, b, rfl, hy, hb⟩⟩

theorem likeMatch_singleton {c : Char} (hc : isWildcard c = false) {t : List Char} :
    likeMatch [c] t = true ↔ ∃ d, t = [d] ∧ c.toLower = d.toLower := by
  simp only [isWildcard, Bool.or_eq_false_iff, decide_eq_false_iff_not] at hc
  rw [likeMatch_cons hc.1]
  constructor
  · rintro ⟨d, b, rfl, hd, hb⟩
    rw [likeMatch_nil.mp hb]
    exact ⟨d, rfl, hd.resolve_left hc.2⟩
  · rintro ⟨d, rfl, hd⟩
    exact ⟨d, [], rfl, .inr hd, likeMatch_nil.mpr rfl⟩

/-- A text matches itself. -/
theorem likeMatch_self (t : List Char) : likeMatch t t = true := by
  induction t with
  | nil => rfl
  | cons c t ih =>
      by_cases hc : c = '%'
      · rw [hc]
        exact likeMatch_percent.mpr ⟨['%'], t, rfl, ih⟩
      · exact (likeMatch_cons hc).mpr ⟨c, t, rfl, .inr rfl, ih⟩

/-- Without wildcards, a pattern is matched by the texts that are it up to case. -/
theorem likeMatch_plain {p t : List Char} (hp : ∀ c ∈ p, isWildcard c = false) :
    likeMatch p t = true ↔ t.map Char.toLower = p.map Char.toLower := by
  induction p generalizing t with
  | nil => rw [likeMatch_nil, List.map_nil, List.map_eq_nil_iff]
  | cons c p ih =>
      have hc := hp c List.mem_cons_self
      simp only [isWildcard, Bool.or_eq_false_iff, decide_eq_false_iff_not] at hc
      rw [likeMatch_cons hc.1]
      constructor
      · rintro ⟨d, b, rfl, hd, hb⟩
        rw [List.map_cons, List.map_cons, (hd.resolve_left hc.2),
          (ih fun x hx => hp x (List.mem_cons_of_mem _ hx)).mp hb]
      · intro heq
        cases t with
        | nil => cases heq
        | cons d t =>
            rw [List.map_cons, List.map_cons, List.cons.injEq] at heq
            exact ⟨d, t, rfl, .inr heq.1.symm,
              (ih fun x hx => hp x (List.mem_cons_of_mem _ hx)).mpr heq.2⟩

/-- What is no wildcard in a pattern is matched by its like. -/
theorem exists_mem_of_likeMatch {p t : List Char} (h : likeMatch p t = true) {c : Char}
    (hc : c ∈ p) (hplain : isWildcard c = false) : ∃ d ∈ t, c.toLower = d.toLower := by
  obtain ⟨front, rest, rfl⟩ := List.append_of_mem hc
  obtain ⟨a, b, rfl, -, hb⟩ := likeMatch_append.mp h
  simp only [isWildcard, Bool.or_eq_false_iff, decide_eq_false_iff_not] at hplain
  obtain ⟨d, y, rfl, hd, -⟩ := (likeMatch_cons hplain.1).mp hb
  exact ⟨d, List.mem_append_right _ List.mem_cons_self, hd.resolve_left hplain.2⟩

/-- A pattern before a `%` is matched by the beginning of a text. -/
theorem likeMatch_percent_end {p t : List Char} :
    likeMatch (p ++ ['%']) t = true ↔ ∃ a b, t = a ++ b ∧ likeMatch p a = true := by
  rw [likeMatch_append]
  constructor
  · rintro ⟨a, b, rfl, ha, -⟩
    exact ⟨a, b, rfl, ha⟩
  · rintro ⟨a, b, rfl, ha⟩
    exact ⟨a, b, rfl, ha, likeMatch_percent.mpr ⟨b, [], (List.append_nil b).symm, rfl⟩⟩

end Lib
