import EighthLayer.Aigrp.Identity
import EighthLayer.Lib.Trim

/-!
# EighthLayer.Sdk.Fts

The `MATCH` expressions that the two SDKs build from search terms (`fts.go`, `store.py`).

Go cuts a term by its runes when it is long in bytes, and does not know four control characters
for spaces. Its expression is Python's, and no slice goes out of range, exactly if none of the
terms that are looked at is of these kinds (`match_exprs_iff`).
-/

namespace EighthLayer.Sdk

open Lib

/-- `ftsMaxTerms`, `_FTS_MAX_TERMS`. -/
def ftsMaxTerms : Nat := 20

/-- `ftsMaxTermLength`, `_FTS_MAX_TERM_LENGTH`. -/
def ftsMaxTermLength : Nat := 200

/-- A term without its double quotes. -/
def unquoted (term : String) : List Char := term.toList.filter (· ≠ '"')

/-- A cleaned term in double quotes. -/
def phrase (cleaned : List Char) : List Char := '"' :: (cleaned ++ ['"'])

/-- `" OR ".join(safe)`. -/
def joinOr (safe : List (List Char)) : String :=
  String.ofList (List.intercalate " OR ".toList safe)

/-! ## Go -/

namespace Go

/-- `unicode.IsSpace`. -/
def isSpace (c : Char) : Bool :=
  let n := c.toNat
  (9 ≤ n && n ≤ 13) || n = 32 || n = 0x85 || n = 0xA0 || n = 0x1680 ||
    (0x2000 ≤ n && n ≤ 0x200A) || n = 0x2028 || n = 0x2029 || n = 0x202F || n = 0x205F || n = 0x3000

/-- `len` of a string, in bytes. -/
def len (s : List Char) : Nat := (s.map Char.utf8Size).sum

/-- `string([]rune(s)[:n])`; `none` is the panic. How many runes the slice has room for is up to
the runtime (`capacity`, of the number of runes); what it has not been given is zero. -/
def firstRunes (capacity : Nat → Nat) (s : List Char) (n : Nat) : Option (List Char) :=
  if capacity s.length < n then none
  else some ((s ++ List.replicate (n - s.length) '\x00').take n)

/-- A term on its way into the expression. -/
def cleaned (capacity : Nat → Nat) (t : String) : Option (List Char) :=
  if ftsMaxTermLength < len (trim isSpace (unquoted t)) then
    firstRunes capacity (trim isSpace (unquoted t)) ftsMaxTermLength
  else some (trim isSpace (unquoted t))

/-- The loop of `buildFTSMatchExpr`. -/
def safeTerms (capacity : Nat → Nat) (safe : List (List Char)) :
    List String → Option (List (List Char))
  | [] => some safe
  | t :: terms =>
    if ftsMaxTerms ≤ safe.length then some safe
    else match cleaned capacity t with
      | none => none
      | some [] => safeTerms capacity safe terms
      | some (c :: s) => safeTerms capacity (safe ++ [phrase (c :: s)]) terms

/-- `buildFTSMatchExpr`; `none` is a panic. -/
def buildFTSMatchExpr (capacity : Nat → Nat) (terms : List String) : Option String :=
  (safeTerms capacity [] terms).map joinOr

end Go

/-! ## Python -/

namespace Py

/-- A term on its way into the expression. -/
def cleaned (term : String) : List Char := (trim Aigrp.isSpace (unquoted term)).take ftsMaxTermLength

/-- The loop of `_build_fts_match_expr`. -/
def safeTerms (safe : List (List Char)) : List String → List (List Char)
  | [] => safe
  | term :: terms =>
    let safe := if cleaned term = [] then safe else safe ++ [phrase (cleaned term)]
    if ftsMaxTerms ≤ safe.length then safe else safeTerms safe terms

/-- `_build_fts_match_expr`. -/
def buildFtsMatchExpr (terms : List String) : String := joinOr (safeTerms [] terms)

end Py

/-! ## What the loops collect -/

/-- The first `n` cleaned terms that are not empty. -/
def Go.collect (capacity : Nat → Nat) : Nat → List String → Option (List (List Char))
  | 0, _ => some []
  | _ + 1, [] => some []
  | n + 1, t :: terms =>
    match Go.cleaned capacity t with
    | none => none
    | some [] => Go.collect capacity (n + 1) terms
    | some (c :: s) => (Go.collect capacity n terms).map ((c :: s) :: ·)

@[inherit_doc Go.collect]
def Py.collect : Nat → List String → List (List Char)
  | 0, _ => []
  | _ + 1, [] => []
  | n + 1, t :: terms =>
    if Py.cleaned t = [] then Py.collect (n + 1) terms else Py.cleaned t :: Py.collect n terms

theorem Go.safeTerms_eq (capacity : Nat → Nat) {n : Nat} (terms : List String)
    {safe : List (List Char)} (h : safe.length + n = ftsMaxTerms) :
    Go.safeTerms capacity safe terms =
      (Go.collect capacity n terms).map fun cs => safe ++ cs.map phrase := by
  induction terms generalizing n safe with
  | nil =>
      have hcollect : Go.collect capacity n [] = some [] := by cases n <;> rfl
      rw [hcollect]
      simp [Go.safeTerms]
  | cons t terms ih =>
      rw [Go.safeTerms]
      cases n with
      | zero =>
          rw [if_pos (by omega)]
          simp [Go.collect]
      | succ n =>
          rw [if_neg (by omega), Go.collect]
          cases hclean : Go.cleaned capacity t with
          | none => rfl
          | some s =>
              cases s with
              | nil => exact ih h
              | cons c s =>
                  dsimp only
                  rw [ih (n := n) (by rw [List.length_append, List.length_singleton]; omega),
                    Option.map_map]
                  simp [Function.comp_def]

theorem Py.safeTerms_eq {n : Nat} (terms : List String) {safe : List (List Char)}
    (hn : 0 < n) (h : safe.length + n = ftsMaxTerms) :
    Py.safeTerms safe terms = safe ++ (Py.collect n terms).map phrase := by
  induction terms generalizing n safe with
  | nil =>
      have hcollect : Py.collect n [] = [] := by cases n <;> rfl
      rw [hcollect]
      simp [Py.safeTerms]
  | cons t terms ih =>
      obtain ⟨n, rfl⟩ := Nat.exists_eq_succ_of_ne_zero (Nat.ne_of_gt hn)
      rw [Py.safeTerms, Py.collect]
      by_cases hclean : Py.cleaned t = []
      · rw [if_pos hclean, if_pos hclean, if_neg (by omega)]
        exact ih hn h
      · rw [if_neg hclean, if_neg hclean]
        cases n with
        | zero =>
            rw [if_pos (by rw [List.length_append, List.length_singleton]; omega)]
            simp [Py.collect]
        | succ n =>
            rw [if_neg (by rw [List.length_append, List.length_singleton]; omega),
              ih (Nat.succ_pos n) (by rw [List.length_append, List.length_singleton]; omega)]
            simp

/-! ## Expressions -/

/-- What an expression is meant to be: at most 20 phrases, each of at most 200 characters and
without double quotes. -/
def InBounds (expr : String) : Prop :=
  ∃ terms : List (List Char), terms.length ≤ ftsMaxTerms ∧
    (∀ s ∈ terms, s ≠ [] ∧ s.length ≤ ftsMaxTermLength ∧ '"' ∉ s) ∧
    expr = joinOr (terms.map phrase)

/-- A text up to a double quote is read back. -/
theorem quoted_injective {s s' rest rest' : List Char} (hs : '"' ∉ s) (hs' : '"' ∉ s')
    (h : s ++ '"' :: rest = s' ++ '"' :: rest') : s = s' ∧ rest = rest' := by
  induction s generalizing s' with
  | nil =>
      cases s' with
      | nil => exact ⟨rfl, (List.cons.inj h).2⟩
      | cons c s' => exact absurd ((List.cons.inj h).1 ▸ List.mem_cons_self) hs'
  | cons c s ih =>
      cases s' with
      | nil => exact absurd ((List.cons.inj h).1 ▸ List.mem_cons_self) hs
      | cons c' s' =>
          obtain ⟨rfl, htail⟩ := List.cons.inj h
          obtain ⟨rfl, hrest⟩ := ih (fun hmem => hs (List.mem_cons_of_mem _ hmem))
            (fun hmem => hs' (List.mem_cons_of_mem _ hmem)) htail
          exact ⟨rfl, hrest⟩

/-- Phrases without double quotes are read back from the expression. -/
theorem joinOr_phrase_injective {l l' : List (List Char)} (hl : ∀ s ∈ l, '"' ∉ s)
    (hl' : ∀ s ∈ l', '"' ∉ s) (h : joinOr (l.map phrase) = joinOr (l'.map phrase)) : l = l' := by
  have hlist : List.intercalate " OR ".toList (l.map phrase) =
      List.intercalate " OR ".toList (l'.map phrase) := String.ofList_injective h
  clear h
  induction l generalizing l' with
  | nil =>
      cases l' with
      | nil => rfl
      | cons s' l' => cases l' <;> simp [List.intercalate, phrase] at hlist
  | cons s l ih =>
      have hs := hl s List.mem_cons_self
      have hrest := fun x hx => hl x (List.mem_cons_of_mem _ hx)
      cases l' with
      | nil => cases l <;> simp [List.intercalate, phrase] at hlist
      | cons s' l' =>
          have hs' := hl' s' List.mem_cons_self
          have hrest' := fun x hx => hl' x (List.mem_cons_of_mem _ hx)
          have hsplit : ∀ (x : List Char) (xs : List (List Char)),
              List.intercalate " OR ".toList ((x :: xs).map phrase) =
                '"' :: (x ++ '"' :: (if xs = [] then [] else
                  " OR ".toList ++ List.intercalate " OR ".toList (xs.map phrase))) := by
            intro x xs
            cases xs <;> simp [List.intercalate, phrase]
          rw [hsplit, hsplit, List.cons.injEq] at hlist
          obtain ⟨rfl, htail⟩ := quoted_injective hs hs' hlist.2
          congr 1
          by_cases hnil : l = []
          · by_cases hnil' : l' = []
            · rw [hnil, hnil']
            · rw [if_pos hnil, if_neg hnil'] at htail
              exact absurd htail.symm (by simp)
          · by_cases hnil' : l' = []
            · rw [if_neg hnil, if_pos hnil'] at htail
              exact absurd htail (by simp)
            · rw [if_neg hnil, if_neg hnil', List.append_cancel_left_eq] at htail
              exact ih hrest hrest' htail

theorem quote_notMem_trim (p : Char → Bool) (t : String) : '"' ∉ trim p (unquoted t) := by
  intro h
  have hmem := List.mem_filter.mp (mem_of_mem_trim h)
  simp at hmem

/-- What Go's cleaned terms look like. -/
theorem Go.cleaned_bounds {capacity : Nat → Nat} {t : String} {s : List Char}
    (h : Go.cleaned capacity t = some s) : s.length ≤ ftsMaxTermLength ∧ '"' ∉ s := by
  have hquote := quote_notMem_trim Go.isSpace t
  unfold Go.cleaned at h
  split at h
  · unfold Go.firstRunes at h
    split at h
    · cases h
    · obtain rfl := Option.some.inj h
      refine ⟨by simp, fun hmem => ?_⟩
      rcases List.mem_append.mp (List.mem_of_mem_take hmem) with hmem | hmem
      · exact hquote hmem
      · exact absurd (List.eq_of_mem_replicate hmem) (by decide)
  · rename_i hlen
    obtain rfl := Option.some.inj h
    refine ⟨Nat.le_trans ?_ (Nat.not_lt.mp hlen), hquote⟩
    generalize trim Go.isSpace (unquoted t) = s
    induction s with
    | nil => exact Nat.le_refl 0
    | cons c s ih =>
        have hpos := Char.utf8Size_pos c
        have hcons : Go.len (c :: s) = c.utf8Size + Go.len s := by simp [Go.len]
        rw [hcons, List.length_cons]
        omega

theorem Py.cleaned_bounds (t : String) :
    (Py.cleaned t).length ≤ ftsMaxTermLength ∧ '"' ∉ Py.cleaned t :=
  ⟨List.length_take_le _ _, fun h => quote_notMem_trim Aigrp.isSpace t (List.mem_of_mem_take h)⟩

theorem Go.collect_bounds {capacity : Nat → Nat} {n : Nat} {terms : List String}
    {cs : List (List Char)} (h : Go.collect capacity n terms = some cs) :
    cs.length ≤ n ∧ ∀ s ∈ cs, s ≠ [] ∧ s.length ≤ ftsMaxTermLength ∧ '"' ∉ s := by
  induction terms generalizing n cs with
  | nil =>
      have hcollect : Go.collect capacity n [] = some [] := by cases n <;> rfl
      obtain rfl := Option.some.inj (hcollect.symm.trans h)
      exact ⟨Nat.zero_le _, fun s hs => absurd hs List.not_mem_nil⟩
  | cons t terms ih =>
      cases n with
      | zero =>
          obtain rfl := Option.some.inj h
          exact ⟨Nat.zero_le _, fun s hs => absurd hs List.not_mem_nil⟩
      | succ n =>
          rw [Go.collect] at h
          split at h
          · cases h
          · exact ih h
          · rename_i c s hclean
            obtain ⟨rest, hrest, rfl⟩ := Option.map_eq_some_iff.mp h
            obtain ⟨hlength, hall⟩ := ih hrest
            refine ⟨Nat.succ_le_succ hlength, fun x hx => ?_⟩
            rcases List.mem_cons.mp hx with rfl | hx
            · exact ⟨List.cons_ne_nil _ _, Go.cleaned_bounds hclean⟩
            · exact hall x hx

theorem Py.collect_bounds (n : Nat) (terms : List String) :
    (Py.collect n terms).length ≤ n ∧
      ∀ s ∈ Py.collect n terms, s ≠ [] ∧ s.length ≤ ftsMaxTermLength ∧ '"' ∉ s := by
  induction terms generalizing n with
  | nil =>
      have hcollect : Py.collect n [] = [] := by cases n <;> rfl
      rw [hcollect]
      exact ⟨Nat.zero_le _, fun s hs => absurd hs List.not_mem_nil⟩
  | cons t terms ih =>
      cases n with
      | zero => exact ⟨Nat.le_refl 0, fun s hs => absurd hs List.not_mem_nil⟩
      | succ n =>
          rw [Py.collect]
          split
          · exact ih (n + 1)
          · rename_i hne
            obtain ⟨hlength, hall⟩ := ih n
            refine ⟨Nat.succ_le_succ hlength, fun x hx => ?_⟩
            rcases List.mem_cons.mp hx with rfl | hx
            · exact ⟨hne, Py.cleaned_bounds t⟩
            · exact hall x hx

/-- Python's expression is in bounds. -/
theorem Py.inBounds (terms : List String) : InBounds (Py.buildFtsMatchExpr terms) := by
  obtain ⟨hlength, hall⟩ := Py.collect_bounds ftsMaxTerms terms
  refine ⟨_, hlength, hall, ?_⟩
  rw [Py.buildFtsMatchExpr, Py.safeTerms_eq (n := ftsMaxTerms) terms (by decide) (by simp),
    List.nil_append]

/-- Go's expression is in bounds, when there is one. -/
theorem Go.inBounds {capacity : Nat → Nat} {terms : List String} {expr : String}
    (h : Go.buildFTSMatchExpr capacity terms = some expr) : InBounds expr := by
  rw [Go.buildFTSMatchExpr, Go.safeTerms_eq capacity (n := ftsMaxTerms) terms (by simp),
    Option.map_map] at h
  obtain ⟨cs, hcs, rfl⟩ := Option.map_eq_some_iff.mp h
  obtain ⟨hlength, hall⟩ := Go.collect_bounds hcs
  exact ⟨cs, hlength, hall, by simp⟩

/-! ## When they agree -/

/-- The characters that `str.strip` removes and `strings.TrimSpace` does not. -/
def isSeparator (c : Char) : Bool := 28 ≤ c.toNat && c.toNat ≤ 31

/-- Terms that both builders clean alike. Without quotes and spaces, such a term has at most 200
bytes or at least 200 characters, does not begin with a separator, and does not end with one
unless 200 characters stand before it. -/
def Fits (t : String) : Prop :=
  let s := trim Go.isSpace (unquoted t)
  (Go.len s ≤ ftsMaxTermLength ∨ ftsMaxTermLength ≤ s.length) ∧
    s.head?.any isSeparator = false ∧
    (s.getLast?.any isSeparator = false ∨ ftsMaxTermLength ≤ (s.rdropWhile Aigrp.isSpace).length)

instance (t : String) : Decidable (Fits t) := inferInstanceAs (Decidable (_ ∧ _ ∧ _))

/-- The terms that are looked at for `n` phrases: up to the `n`-th that is not empty. -/
def looked : Nat → List String → List String
  | 0, _ => []
  | _ + 1, [] => []
  | n + 1, t :: terms =>
    t :: looked (if trim Go.isSpace (unquoted t) = [] then n + 1 else n) terms

theorem isSpace_iff (c : Char) :
    Aigrp.isSpace c = true ↔ Go.isSpace c = true ∨ isSeparator c = true := by
  simp only [Aigrp.isSpace, Go.isSpace, isSeparator, Bool.or_eq_true, Bool.and_eq_true,
    decide_eq_true_eq]
  omega

/-- Python strips what Go trims, and more. -/
theorem trim_isSpace (s : List Char) :
    trim Aigrp.isSpace (trim Go.isSpace s) = trim Aigrp.isSpace s :=
  trim_trim (fun c hc => (isSpace_iff c).mpr (.inl hc)) s

/-- A prefix is the same list after a cut exactly if it is as long, or longer than the cut. -/
theorem take_prefix_eq_iff {s s' : List Char} (h : s <+: s') (n : Nat) :
    s.take n = s'.take n ↔ s = s' ∨ n ≤ s.length := by
  obtain ⟨rest, rfl⟩ := h
  constructor
  · intro heq
    have hlength := congrArg List.length heq
    rw [List.length_take, List.length_take, List.length_append] at hlength
    rcases Nat.lt_or_ge s.length n with hlt | hge
    · have hrest : rest.length = 0 := by omega
      rw [List.length_eq_zero_iff.mp hrest, List.append_nil]
      exact .inl rfl
    · exact .inr hge
  · rintro (heq | hge)
    · rw [← heq]
    · rw [List.take_append_of_le_length hge]

theorem length_le_len (s : List Char) : s.length ≤ Go.len s := by
  induction s with
  | nil => exact Nat.le_refl 0
  | cons c s ih =>
      have hpos := Char.utf8Size_pos c
      have hcons : Go.len (c :: s) = c.utf8Size + Go.len s := by simp [Go.len]
      rw [hcons, List.length_cons]
      omega

theorem any_isSeparator_iff {o : Option Char} (h : ∀ c ∈ o, Go.isSpace c = false) :
    o.any isSeparator = false ↔ ∀ c ∈ o, Aigrp.isSpace c = false := by
  cases o with
  | none => simp
  | some c =>
      have hgo := h c rfl
      simp only [Option.any_some, Option.mem_def, Option.some.injEq, forall_eq']
      rw [← Bool.not_eq_true, ← Bool.not_eq_true, isSpace_iff, hgo]
      simp

section Agree

variable {capacity : Nat → Nat} (hcapacity : ∀ n, n ≤ capacity n)

include hcapacity in
/-- A term whose length in runes and bytes is not between is cut like Python cuts it. -/
theorem Go.cleaned_eq {t : String}
    (h : Go.len (trim Go.isSpace (unquoted t)) ≤ ftsMaxTermLength ∨
      ftsMaxTermLength ≤ (trim Go.isSpace (unquoted t)).length) :
    Go.cleaned capacity t = some ((trim Go.isSpace (unquoted t)).take ftsMaxTermLength) := by
  unfold Go.cleaned
  generalize trim Go.isSpace (unquoted t) = s at h ⊢
  have hle := length_le_len s
  by_cases hlong : ftsMaxTermLength < Go.len s
  · have hrunes : ftsMaxTermLength ≤ s.length := by omega
    have hroom := hcapacity s.length
    rw [if_pos hlong, Go.firstRunes, if_neg (by omega), List.take_append_of_le_length hrunes]
  · rw [if_neg hlong, List.take_of_length_le (by omega)]

/-- Any other term is filled up, if it does not panic. -/
theorem Go.length_of_cleaned {t : String} {s : List Char}
    (h : Go.cleaned capacity t = some s)
    (hlong : ftsMaxTermLength < Go.len (trim Go.isSpace (unquoted t))) :
    s.length = ftsMaxTermLength := by
  unfold Go.cleaned at h
  rw [if_pos hlong] at h
  generalize trim Go.isSpace (unquoted t) = u at h
  unfold Go.firstRunes at h
  split at h
  · cases h
  · obtain rfl := Option.some.inj h
    rw [List.length_take, List.length_append, List.length_replicate]
    omega

theorem Py.cleaned_eq (t : String) :
    Py.cleaned t =
      (trim Aigrp.isSpace (trim Go.isSpace (unquoted t))).take ftsMaxTermLength := by
  rw [Py.cleaned, trim_isSpace]

/-- Python's cleaned terms do not begin with a space. -/
theorem Py.head_cleaned {t : String} {c : Char} (h : c ∈ (Py.cleaned t).head?) :
    Aigrp.isSpace c = false :=
  head_trim (head_eq_of_start (List.take_prefix _ _) h)

include hcapacity in
/-- The two builders clean a term alike exactly if it fits. -/
theorem cleaned_eq_iff (t : String) :
    Go.cleaned capacity t = some (Py.cleaned t) ↔ Fits t := by
  unfold Fits
  dsimp only
  by_cases hlength : Go.len (trim Go.isSpace (unquoted t)) ≤ ftsMaxTermLength ∨
      ftsMaxTermLength ≤ (trim Go.isSpace (unquoted t)).length
  · rw [Go.cleaned_eq hcapacity hlength, Py.cleaned_eq, Option.some_inj]
    have hhead := any_isSeparator_iff fun c hc => head_trim (p := Go.isSpace) (s := unquoted t) hc
    have hlast := any_isSeparator_iff fun c hc =>
      getLast_trim (p := Go.isSpace) (s := unquoted t) hc
    rw [hhead, hlast]
    generalize trim Go.isSpace (unquoted t) = s at hlength ⊢
    rw [← rdropWhile_eq_self_iff]
    constructor
    · intro heq
      have hfirst : ∀ c ∈ s.head?, Aigrp.isSpace c = false := by
        intro c hc
        have hc' : c ∈ (s.take ftsMaxTermLength).head? := by
          cases s with
          | nil => cases hc
          | cons x s => exact hc
        rw [heq] at hc'
        exact head_trim (head_eq_of_start (List.take_prefix _ _) hc')
      rw [trim_of_head hfirst, eq_comm,
        take_prefix_eq_iff (List.rdropWhile_prefix _ _)] at heq
      exact ⟨hlength, hfirst, heq⟩
    · rintro ⟨-, hfirst, hend⟩
      rw [trim_of_head hfirst, eq_comm, take_prefix_eq_iff (List.rdropWhile_prefix _ _)]
      exact hend
  · refine ⟨fun heq => ?_, fun h => absurd h.1 hlength⟩
    rw [not_or, Nat.not_le, Nat.not_le] at hlength
    have hfull := Go.length_of_cleaned heq hlength.1
    have hshort : (Py.cleaned t).length ≤ (trim Go.isSpace (unquoted t)).length := by
      rw [Py.cleaned_eq]
      exact Nat.le_trans (List.length_take_le' _ _) (length_trim_le _ _)
    omega

/-- A term without anything to be looked for is cleaned alike. -/
theorem fits_of_trim_nil {t : String} (h : trim Go.isSpace (unquoted t) = []) : Fits t := by
  unfold Fits
  rw [h]
  decide

theorem Go.trim_nil_of_cleaned {t : String} (h : Go.cleaned capacity t = some []) :
    trim Go.isSpace (unquoted t) = [] := by
  rcases Nat.lt_or_ge ftsMaxTermLength (Go.len (trim Go.isSpace (unquoted t))) with hlong | hshort
  · cases Go.length_of_cleaned h hlong
  · rw [Go.cleaned, if_neg (Nat.not_lt.mpr hshort)] at h
    exact Option.some.inj h

/-- A term that only Python skips begins with a separator. -/
theorem Go.head_of_cleaned {t : String} {c : Char} {s : List Char}
    (h : Go.cleaned capacity t = some (c :: s)) (hfits : ¬ Fits t) (hnil : Py.cleaned t = []) :
    Aigrp.isSpace c = true := by
  have hall : ∀ x ∈ trim Go.isSpace (unquoted t), Aigrp.isSpace x = true := by
    rw [Py.cleaned_eq, List.take_eq_nil_iff] at hnil
    exact trim_eq_nil_iff.mp (hnil.resolve_left (by decide))
  have hne : trim Go.isSpace (unquoted t) ≠ [] := fun hempty => hfits (fits_of_trim_nil hempty)
  refine hall c ?_
  unfold Go.cleaned at h
  generalize trim Go.isSpace (unquoted t) = u at h hne ⊢
  cases u with
  | nil => exact absurd rfl hne
  | cons x u =>
      split at h
      · unfold Go.firstRunes at h
        split at h
        · cases h
        · rw [List.cons_append, ftsMaxTermLength, List.take_succ_cons, Option.some_inj] at h
          exact (List.cons.inj h).1 ▸ List.mem_cons_self
      · exact (List.cons.inj (Option.some.inj h)).1 ▸ List.mem_cons_self

/-- No phrase of Python's begins with a space. -/
theorem Py.head_of_mem_collect {n : Nat} {terms : List String} {s : List Char} {c : Char}
    (h : s ∈ Py.collect n terms) (hc : c ∈ s.head?) : Aigrp.isSpace c = false := by
  induction terms generalizing n with
  | nil => cases n <;> cases h
  | cons t terms ih =>
      cases n with
      | zero => cases h
      | succ n =>
          rw [Py.collect] at h
          split at h
          · exact ih h
          · rcases List.mem_cons.mp h with rfl | h
            · exact Py.head_cleaned hc
            · exact ih h

include hcapacity in
/-- The two builders collect the same exactly if every term that is looked at fits. -/
theorem collect_eq_iff (n : Nat) (terms : List String) :
    Go.collect capacity n terms = some (Py.collect n terms) ↔ ∀ t ∈ looked n terms, Fits t := by
  induction terms generalizing n with
  | nil => cases n <;> simp [Go.collect, Py.collect, looked]
  | cons t terms ih =>
      cases n with
      | zero => simp [Go.collect, Py.collect, looked]
      | succ n =>
          rw [looked, List.forall_mem_cons]
          by_cases hfits : Fits t
          · have hclean := (cleaned_eq_iff hcapacity t).mpr hfits
            have hempty : trim Go.isSpace (unquoted t) = [] ↔ Py.cleaned t = [] := by
              rw [Go.cleaned_eq hcapacity hfits.1, Option.some_inj] at hclean
              rw [← hclean, List.take_eq_nil_iff]
              exact ⟨.inr, fun h => h.resolve_left (by decide)⟩
            rw [Go.collect, Py.collect, hclean]
            by_cases hnil : Py.cleaned t = []
            · rw [if_pos hnil, if_pos (hempty.mpr hnil), hnil]
              dsimp only
              rw [ih]
              exact ⟨fun h => ⟨hfits, h⟩, fun h => h.2⟩
            · rw [if_neg hnil, if_neg fun h => hnil (hempty.mp h)]
              cases hcleaned : Py.cleaned t with
              | nil => exact absurd hcleaned hnil
              | cons c s =>
                  dsimp only
                  rw [← ih, and_iff_right hfits]
                  simp
          · refine ⟨fun heq => ?_, fun h => absurd h.1 hfits⟩
            exfalso
            rw [Go.collect, Py.collect] at heq
            split at heq
            · cases heq
            · rename_i hclean
              exact hfits (fits_of_trim_nil (Go.trim_nil_of_cleaned hclean))
            · rename_i c s hclean
              obtain ⟨rest, -, heq⟩ := Option.map_eq_some_iff.mp heq
              split at heq
              · -- Python skips the term, and none of its phrases begins with a space
                rename_i hnil
                have hmem : c :: s ∈ Py.collect (n + 1) terms := heq ▸ List.mem_cons_self
                have hspace := Go.head_of_cleaned hclean hfits hnil
                rw [Py.head_of_mem_collect hmem rfl] at hspace
                cases hspace
              · rw [(List.cons.inj heq).1] at hclean
                exact hfits ((cleaned_eq_iff hcapacity t).mp hclean)

include hcapacity in
/-- **Search expressions.** Python's expression is in bounds, and Go's when there is one. Go builds
Python's, without a slice out of range, exactly if every term that is looked at fits. -/
theorem match_exprs_iff (terms : List String) :
    InBounds (Py.buildFtsMatchExpr terms) ∧
    (∀ expr, Go.buildFTSMatchExpr capacity terms = some expr → InBounds expr) ∧
    (Go.buildFTSMatchExpr capacity terms = some (Py.buildFtsMatchExpr terms) ↔
      ∀ t ∈ looked ftsMaxTerms terms, Fits t) := by
  refine ⟨Py.inBounds terms, fun expr => Go.inBounds, ?_⟩
  rw [← collect_eq_iff hcapacity, Go.buildFTSMatchExpr,
    Go.safeTerms_eq capacity (n := ftsMaxTerms) terms (by simp), Py.buildFtsMatchExpr,
    Py.safeTerms_eq (n := ftsMaxTerms) terms (by decide) (by simp), Option.map_map]
  constructor
  · intro heq
    obtain ⟨cs, hcs, hjoin⟩ := Option.map_eq_some_iff.mp heq
    rw [hcs, Option.some_inj]
    exact joinOr_phrase_injective (fun s hs => ((Go.collect_bounds hcs).2 s hs).2.2)
      (fun s hs => ((Py.collect_bounds ftsMaxTerms terms).2 s hs).2.2) hjoin
  · intro heq
    rw [heq]
    rfl

end Agree

/-- Terms of a test of the builders. -/
theorem match_exprs_sample :
    Go.buildFTSMatchExpr (fun n => n) ["api", "\"\"\"", "payments"] =
      some (Py.buildFtsMatchExpr ["api", "\"\"\"", "payments"]) :=
  (match_exprs_iff (fun n => Nat.le_refl n) ["api", "\"\"\"", "payments"]).2.2.mpr (by decide)

/-- 120 letters of two bytes each: the runtime has room for 120 runes, and the slice of 200 is out of
range. A separator in front of a term stays there. -/
theorem long_term_panics :
    Go.buildFTSMatchExpr (fun n => n) [String.ofList (List.replicate 120 'é')] = none ∧
      Go.buildFTSMatchExpr (fun n => n) ["\x1capi"] ≠ some (Py.buildFtsMatchExpr ["\x1capi"]) := by
  constructor
  · have hunquoted : unquoted (String.ofList (List.replicate 120 'é')) =
        (List.replicate 120 'é').filter (· ≠ '"') := by
      rw [unquoted, String.toList_ofList]
    have hcleaned : Go.cleaned (fun n => n) (String.ofList (List.replicate 120 'é')) = none := by
      unfold Go.cleaned
      rw [hunquoted]
      decide +kernel
    rw [Go.buildFTSMatchExpr, Go.safeTerms, if_neg (by decide), hcleaned]
    rfl
  · intro heq
    exact absurd heq (by decide +kernel)

end EighthLayer.Sdk
