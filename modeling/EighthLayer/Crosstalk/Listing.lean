import EighthLayer.Crosstalk.Routes
import EighthLayer.Lib.Bytes
import EighthLayer.Lib.Like
import Mathlib.Data.List.TakeWhile

/-!
# EighthLayer.Crosstalk.Listing

The list of a user's threads (`GET /crosstalk/threads`).

The threads are looked up by their participants' JSON text, with the user's name in double quotes
as a pattern. That finds the user's own threads, and no others, exactly if no thread is listed wrongly
by the form of its names (`thread_listing_iff`).
-/

namespace EighthLayer.Crosstalk

open Lib

/-! ## The column `participants` -/

/-- The characters that JSON texts are made of. -/
def isPrintable (c : Char) : Bool := 32 ≤ c.toNat && c.toNat ≤ 126

/-- The characters that `json.dumps` leaves as they are. -/
def isPlain (c : Char) : Bool := isPrintable c && c ≠ '"' && c ≠ '\\'

/-- `\uXXXX`. -/
def unicodeEscape (n : Nat) : List Char :=
  ['\\', 'u', hexDigit (n / 4096 % 16), hexDigit (n / 256 % 16), hexDigit (n / 16 % 16),
    hexDigit (n % 16)]

/-- The characters with an escape of their own, and what comes after its backslash. -/
def shortEscapes : List (Char × Char) :=
  [('"', '"'), ('\\', '\\'), ('\n', 'n'), ('\r', 'r'), ('\t', 't'), ('\x0c', 'f'), ('\x08', 'b')]

/-- A character in `json.dumps`. -/
def jsonEscape (c : Char) : List Char :=
  match shortEscapes.lookup c with
  | some e => ['\\', e]
  | none =>
    if isPrintable c = true then [c]
    else if c.toNat < 0x10000 then unicodeEscape c.toNat
    else unicodeEscape (0xD800 + (c.toNat - 0x10000) / 0x400) ++
      unicodeEscape (0xDC00 + (c.toNat - 0x10000) % 0x400)

/-- A text in `json.dumps`, without its quotes. -/
def jsonChars (s : List Char) : List Char := s.flatMap jsonEscape

/-- `json.dumps(participants)`. -/
def dumpsNames (participants : List String) : List Char :=
  '[' :: (List.intercalate ", ".toList
    (participants.map fun p => '"' :: (jsonChars p.toList ++ ['"'])) ++ [']'])

/-! ## The list -/

/-- `ThreadSummary`. -/
structure ThreadSummary where
  id : String
  subject : String
  status : ThreadStatus
  createdAt : String
  createdByUsername : String
  participants : List String
deriving DecidableEq

def Thread.summary (t : Thread) : ThreadSummary where
  id := t.id
  subject := t.subject
  status := t.status
  createdAt := t.createdAt
  createdByUsername := t.createdByUsername
  participants := t.participants

/-- The parameter `ptn`. -/
def namePattern (username : String) : List Char := '%' :: '"' :: (username.toList ++ ['"', '%'])

/-- `_list_crosstalk_threads_for_user_sync`. -/
def CrosstalkStore.listThreadsForUser (s : CrosstalkStore) (username : String) (scope : Scope)
    (isAdmin : Bool) (limit : Nat) : List ThreadSummary :=
  ((sortDesc Thread.createdAt (s.threads.rows.filter fun t =>
    t.inScope scope && (isAdmin || like (dumpsNames t.participants) (namePattern username)))).take
      limit).map Thread.summary

/-- `list_threads`. -/
def listThreads (site : Site) (s : CrosstalkStore) (username : String) (limit : Nat) :
    Except CrosstalkRefusal (List ThreadSummary) :=
  match resolveCaller site username with
  | .error e => .error e
  | .ok caller =>
    .ok (s.listThreadsForUser username (readScope site caller) (isAdminRole caller.role) limit)

/-! ## Which threads are listed rightly -/

/-- A stretch of a text between two of its double quotes. -/
def Between (text m : List Char) : Prop := ∃ a b, text = a ++ '"' :: (m ++ '"' :: b)

/-- A name from after its last double quote. -/
def afterQuotes (name : String) : List Char := (name.toList.splitOn '"').getLast?.getD []

/-- Whether a name, which has neither wildcards nor characters that JSON escapes, is found among
others: as the end of one, up to case, or as what stands between two. -/
def Resembles (username : String) (participants : List String) : Prop :=
  (∃ p ∈ participants, (afterQuotes p).map Char.toLower = username.toList.map Char.toLower) ∨
    (username.toList = ", ".toList ∧ 2 ≤ participants.length)

instance (username : String) (participants : List String) :
    Decidable (Resembles username participants) := inferInstanceAs (Decidable (_ ∨ _))

/-- Whether a name fits, as a pattern, a stretch between two quotes. -/
def FitsBetween (username : String) (participants : List String) : Prop :=
  ∃ m, Between (dumpsNames participants) m ∧ likeMatch username.toList m = true

/-- Whether a thread of some participants is listed rightly for a user, whose name may consist
* of characters that JSON leaves as they are. Then it is found in all its threads. Without wildcards
  it is found besides where it resembles a name, and with them where it fits.
* of characters that JSON does not have. Then it is never found.
* of others, among them a quote or backslash, or of U+0000, which ends the pattern. -/
def ListedRight (username : String) (participants : List String) : Prop :=
  if '\x00' ∈ username.toList then
    (username ∈ participants ↔ ∃ a m, dumpsNames participants = a ++ '"' :: m ∧
      likeMatch (username.toList.takeWhile (· ≠ '\x00')) m = true)
  else if username.toList.all isPlain = true then
    if username.toList.any isWildcard = true then
      username ∈ participants ∨ ¬ FitsBetween username participants
    else username ∈ participants ∨ ¬ Resembles username participants
  else if username.toList.all isPrintable = true then
    (username ∈ participants ↔ FitsBetween username participants)
  else username ∉ participants

/-! ## Characters of the column -/

theorem isPrintable_hexDigit {d : Nat} (h : d < 16) : isPrintable (hexDigit d) = true := by
  have hall : ∀ d < 16, isPrintable (hexDigit d) = true := by decide
  exact hall d h

theorem hexDigit_ne_quote {d : Nat} (h : d < 16) : hexDigit d ≠ '"' := by
  have hall : ∀ d < 16, hexDigit d ≠ '"' := by decide
  exact hall d h

theorem mem_unicodeEscape {n : Nat} {c : Char} (h : c ∈ unicodeEscape n) :
    isPrintable c = true ∧ c ≠ '"' := by
  have hdigit : ∀ m : Nat, m % 16 < 16 := fun m => Nat.mod_lt _ (by decide)
  have hone : ∀ m : Nat, isPrintable (hexDigit (m % 16)) = true ∧ hexDigit (m % 16) ≠ '"' :=
    fun m => ⟨isPrintable_hexDigit (hdigit m), hexDigit_ne_quote (hdigit m)⟩
  simp only [unicodeEscape, List.mem_cons, List.not_mem_nil, or_false] at h
  rcases h with rfl | rfl | rfl | rfl | rfl | rfl
  · exact ⟨by decide, by decide⟩
  · exact ⟨by decide, by decide⟩
  · exact hone _
  · exact hone _
  · exact hone _
  · exact hone _

theorem shortEscapes_lookup {c e : Char} (h : shortEscapes.lookup c = some e) :
    isPrintable e = true ∧ (e = '"' → c = '"') ∧ isPlain c = false := by
  have hall : ∀ p ∈ shortEscapes,
      isPrintable p.2 = true ∧ (p.2 = '"' → p.1 = '"') ∧ isPlain p.1 = false := by decide
  obtain ⟨front, rest, heq, -⟩ := List.lookup_eq_some_iff.mp h
  exact hall (c, e) (heq ▸ List.mem_append_right _ List.mem_cons_self)

theorem lookup_shortEscapes_of_isPlain {c : Char} (h : isPlain c = true) :
    shortEscapes.lookup c = none := by
  cases hlook : shortEscapes.lookup c with
  | none => rfl
  | some e =>
      rw [(shortEscapes_lookup hlook).2.2] at h
      cases h

/-- An escape is of printable characters, and a quote is only in that of a quote. -/
theorem mem_jsonEscape {c x : Char} (h : x ∈ jsonEscape c) :
    isPrintable x = true ∧ (x = '"' → c = '"') := by
  unfold jsonEscape at h
  split at h
  · rename_i e he
    obtain ⟨hprint, hquote, -⟩ := shortEscapes_lookup he
    rcases List.mem_cons.mp h with rfl | h
    · exact ⟨by decide, fun heq => absurd heq (by decide)⟩
    · rw [List.mem_singleton.mp h]
      exact ⟨hprint, hquote⟩
  · rename_i hnone
    split at h
    · rename_i hprint
      rw [List.mem_singleton.mp h]
      exact ⟨hprint, id⟩
    · split at h
      · exact ⟨(mem_unicodeEscape h).1, fun heq => absurd heq (mem_unicodeEscape h).2⟩
      · rcases List.mem_append.mp h with h | h
        · exact ⟨(mem_unicodeEscape h).1, fun heq => absurd heq (mem_unicodeEscape h).2⟩
        · exact ⟨(mem_unicodeEscape h).1, fun heq => absurd heq (mem_unicodeEscape h).2⟩

theorem jsonEscape_of_isPlain {c : Char} (h : isPlain c = true) : jsonEscape c = [c] := by
  have hprint : isPrintable c = true := by
    simp only [isPlain, Bool.and_eq_true] at h
    exact h.1.1
  rw [jsonEscape, lookup_shortEscapes_of_isPlain h]
  dsimp only
  rw [if_pos hprint]

/-- What JSON does not leave as it is becomes an escape. -/
theorem backslash_mem_jsonEscape {c : Char} (h : isPlain c = false) : '\\' ∈ jsonEscape c := by
  unfold jsonEscape
  split
  · exact List.mem_cons_self
  · rename_i hnone
    split
    · rename_i hprint
      -- a printable character that is not plain is a quote or a backslash
      rw [isPlain, hprint, Bool.true_and, Bool.and_eq_false_iff, decide_eq_false_iff_not, not_not,
        decide_eq_false_iff_not, not_not] at h
      rcases h with rfl | rfl
      · cases hnone
      · cases hnone
    · split
      · exact List.mem_cons_self
      · exact List.mem_append_left _ List.mem_cons_self

theorem jsonChars_of_isPlain {s : List Char} (h : ∀ c ∈ s, isPlain c = true) : jsonChars s = s := by
  induction s with
  | nil => rfl
  | cons c s ih =>
      rw [jsonChars, List.flatMap_cons, jsonEscape_of_isPlain (h c List.mem_cons_self)]
      exact congrArg (c :: ·) (ih fun x hx => h x (List.mem_cons_of_mem _ hx))

/-- A text without backslashes is of plain characters only. -/
theorem isPlain_of_jsonChars {s : List Char} (h : '\\' ∉ jsonChars s) :
    ∀ c ∈ s, isPlain c = true := by
  intro c hc
  by_contra hplain
  exact h (List.mem_flatMap.mpr
    ⟨c, hc, backslash_mem_jsonEscape (Bool.not_eq_true _ ▸ hplain)⟩)

theorem quote_notMem_jsonChars {s : List Char} (h : '"' ∉ s) : '"' ∉ jsonChars s := by
  intro hmem
  obtain ⟨c, hc, hx⟩ := List.mem_flatMap.mp hmem
  exact h ((mem_jsonEscape hx).2 rfl ▸ hc)

theorem isPrintable_jsonChars {s : List Char} {x : Char} (h : x ∈ jsonChars s) :
    isPrintable x = true := by
  obtain ⟨c, -, hx⟩ := List.mem_flatMap.mp h
  exact (mem_jsonEscape hx).1

/-! ## Stretches between quotes -/

theorem intercalate_append {sep : List Char} {xs ys : List (List Char)} (hxs : xs ≠ [])
    (hys : ys ≠ []) :
    sep.intercalate (xs ++ ys) = sep.intercalate xs ++ (sep ++ sep.intercalate ys) := by
  induction xs with
  | nil => exact absurd rfl hxs
  | cons x xs ih =>
      by_cases hnil : xs = []
      · rw [hnil, List.singleton_append, List.intercalate_cons_of_ne_nil hys,
          List.intercalate_singleton, List.append_assoc]
      · rw [List.cons_append, List.intercalate_cons_of_ne_nil (by simp [hnil]),
          List.intercalate_cons_of_ne_nil hnil, ih hnil]
        simp only [List.append_assoc]

/-- The stretches without quotes are the pieces of a text, except for the first and the last. -/
theorem between_iff {text m : List Char} (hm : '"' ∉ m) :
    Between text m ↔ ∃ xs ys, text.splitOn '"' = xs ++ m :: ys ∧ xs ≠ [] ∧ ys ≠ [] := by
  constructor
  · rintro ⟨a, b, rfl⟩
    refine ⟨a.splitOn '"', b.splitOn '"', ?_, List.splitOn_ne_nil _ _, List.splitOn_ne_nil _ _⟩
    rw [List.splitOn_append_cons_self, List.splitOn_append_cons_self_of_not_mem hm]
  · rintro ⟨xs, ys, hsplit, hxs, hys⟩
    have hjoin : List.intercalate ['"'] (text.splitOn '"') = text := List.intercalate_splitOn '"'
    rw [hsplit, intercalate_append hxs (List.cons_ne_nil _ _),
      List.intercalate_cons_of_ne_nil hys] at hjoin
    exact ⟨_, _, by rw [← hjoin, List.singleton_append, List.append_assoc, List.singleton_append]⟩

theorem quote_notMem_of_mem_splitOn {s q : List Char} (h : q ∈ s.splitOn '"') : '"' ∉ q := by
  induction s generalizing q with
  | nil =>
      rw [List.splitOn_nil, List.mem_singleton] at h
      rw [h]
      exact List.not_mem_nil
  | cons c s ih =>
      rw [List.splitOn_cons_eq_if_modifyHead] at h
      split at h
      · rcases List.mem_cons.mp h with rfl | h
        · exact List.not_mem_nil
        · exact ih h
      · rename_i hc
        cases hsplit : s.splitOn '"' with
        | nil => exact absurd hsplit (List.splitOn_ne_nil _ _)
        | cons q' qs =>
            rw [hsplit] at h ih
            rcases List.mem_cons.mp h with rfl | h
            · intro hmem
              rcases List.mem_cons.mp hmem with heq | hmem
              · rw [← heq] at hc
                exact hc (beq_self_eq_true '"')
              · exact ih List.mem_cons_self hmem
            · exact ih (List.mem_cons_of_mem _ h)

/-- The pieces of an escaped text: only the last one is without a backslash, if it is, and it is
what the text has after its last quote. -/
theorem splitOn_jsonChars (s : List Char) :
    ∃ front, (jsonChars s).splitOn '"' =
        front ++ [jsonChars ((s.splitOn '"').getLast?.getD [])] ∧ ∀ m ∈ front, '\\' ∈ m := by
  have hjoin : List.intercalate ['"'] (s.splitOn '"') = s := List.intercalate_splitOn '"'
  have hfree := fun q => @quote_notMem_of_mem_splitOn s q
  have hne := List.splitOn_ne_nil '"' s
  generalize s.splitOn '"' = qs at hjoin hfree hne ⊢
  subst hjoin
  induction qs with
  | nil => exact absurd rfl hne
  | cons q qs ih =>
      have hq := quote_notMem_jsonChars (hfree q List.mem_cons_self)
      by_cases hnil : qs = []
      · subst hnil
        refine ⟨[], ?_, fun m hm => absurd hm List.not_mem_nil⟩
        rw [List.intercalate_singleton, List.splitOn_eq_singleton hq]
        rfl
      · obtain ⟨front, hsplit, hback⟩ := ih (fun x hx => hfree x (List.mem_cons_of_mem _ hx)) hnil
        refine ⟨(jsonChars q ++ ['\\']) :: front, ?_, ?_⟩
        · have hchars : jsonChars (List.intercalate ['"'] (q :: qs)) =
              (jsonChars q ++ ['\\']) ++ '"' :: jsonChars (List.intercalate ['"'] qs) := by
            rw [List.intercalate_cons_of_ne_nil hnil]
            simp [jsonChars, jsonEscape, shortEscapes]
          rw [hchars, List.splitOn_append_cons_self_of_not_mem, hsplit]
          · simp [List.getLast?_cons_of_ne_nil hnil]
          · simp [hq]
        · intro m hm
          rcases List.mem_cons.mp hm with rfl | hm
          · simp
          · exact hback m hm

theorem mem_inner_iff {x y m : List Char} {inner : List (List Char)} :
    (∃ xs ys, x :: (inner ++ [y]) = xs ++ m :: ys ∧ xs ≠ [] ∧ ys ≠ []) ↔ m ∈ inner := by
  constructor
  · rintro ⟨xs, ys, heq, hxs, hys⟩
    obtain ⟨x', xs, rfl⟩ := List.exists_cons_of_ne_nil hxs
    obtain ⟨ys, y', rfl⟩ := (List.eq_nil_or_concat ys).resolve_left hys
    have htail : inner ++ [y] = (xs ++ m :: ys) ++ [y'] := by
      simpa using (List.cons.inj heq).2
    rw [(List.append_inj' htail rfl).1]
    exact List.mem_append_right _ List.mem_cons_self
  · intro h
    obtain ⟨u, v, rfl⟩ := List.append_of_mem h
    exact ⟨x :: u, v ++ [y], by simp, List.cons_ne_nil _ _, by simp⟩

/-- What stands in the column after the first quote. -/
def afterOpening (p : String) : List String → List Char
  | [] => jsonChars p.toList ++ '"' :: [']']
  | p' :: ps => jsonChars p.toList ++ '"' :: (", ".toList ++ '"' :: afterOpening p' ps)

theorem dumpsNames_cons (p : String) (ps : List String) :
    dumpsNames (p :: ps) = '[' :: '"' :: afterOpening p ps := by
  unfold dumpsNames
  congr 1
  induction ps generalizing p with
  | nil => simp [afterOpening]
  | cons p' ps ih =>
      rw [List.map_cons, List.intercalate_cons_of_ne_nil (by simp), List.append_assoc,
        List.append_assoc, ih p']
      simp [afterOpening]

/-- The pieces of the column, after the first quote: those of the names, and what stands between
two of these. -/
theorem splitOn_afterOpening (p : String) (ps : List String) :
    ∃ inner, (afterOpening p ps).splitOn '"' = inner ++ [[']']] ∧
      ∀ m, m ∈ inner ↔ (∃ p' ∈ p :: ps, m ∈ (jsonChars p'.toList).splitOn '"') ∨
        (m = ", ".toList ∧ 2 ≤ (p :: ps).length) := by
  induction ps generalizing p with
  | nil =>
      refine ⟨(jsonChars p.toList).splitOn '"', ?_, fun m => by simp⟩
      rw [afterOpening, List.splitOn_append_cons_self]
      rfl
  | cons p' ps ih =>
      obtain ⟨inner, hsplit, hinner⟩ := ih p'
      refine ⟨(jsonChars p.toList).splitOn '"' ++ ", ".toList :: inner, ?_, fun m => ?_⟩
      · rw [afterOpening, List.splitOn_append_cons_self,
          List.splitOn_append_cons_self_of_not_mem (by decide), hsplit, List.append_assoc]
        rfl
      · rw [List.mem_append, List.mem_cons, hinner]
        simp only [List.mem_cons, List.length_cons]
        constructor
        · rintro (h | h | ⟨x, hx, h⟩ | h)
          · exact .inl ⟨p, .inl rfl, h⟩
          · exact .inr ⟨h, by omega⟩
          · exact .inl ⟨x, .inr hx, h⟩
          · exact .inr ⟨h.1, by omega⟩
        · rintro (⟨x, rfl | hx, h⟩ | h)
          · exact .inl h
          · exact .inr (.inr (.inl ⟨x, hx, h⟩))
          · exact .inr (.inl h.1)

/-- The stretches of the column without quotes and backslashes. -/
theorem between_dumpsNames {participants : List String} {m : List Char} (hquote : '"' ∉ m)
    (hback : '\\' ∉ m) :
    Between (dumpsNames participants) m ↔
      (∃ p ∈ participants, m = jsonChars (afterQuotes p)) ∨
        (m = ", ".toList ∧ 2 ≤ participants.length) := by
  rw [between_iff hquote]
  cases participants with
  | nil =>
      constructor
      · rintro ⟨xs, ys, hsplit, hxs, -⟩
        have hlength := congrArg List.length hsplit
        have hpos := List.length_pos_iff.mpr hxs
        rw [List.length_append, List.length_cons] at hlength
        have hone : ((dumpsNames []).splitOn '"').length = 1 := rfl
        omega
      · simp
  | cons p ps =>
      obtain ⟨inner, hsplit, hinner⟩ := splitOn_afterOpening p ps
      have htext : (dumpsNames (p :: ps)).splitOn '"' = ['['] :: (inner ++ [[']']]) := by
        rw [dumpsNames_cons, ← hsplit]
        have hopen : '"' ∉ ['['] := by decide
        exact List.splitOn_append_cons_self_of_not_mem hopen _
      have hmem : (∃ xs ys, (dumpsNames (p :: ps)).splitOn '"' = xs ++ m :: ys ∧ xs ≠ [] ∧ ys ≠ []) ↔
          m ∈ inner := by
        rw [htext]
        exact mem_inner_iff
      rw [hmem, hinner]
      refine or_congr ?_ Iff.rfl
      refine exists_congr fun p' => and_congr_right fun _ => ?_
      obtain ⟨front, hpieces, hfront⟩ := splitOn_jsonChars p'.toList
      rw [hpieces, List.mem_append, List.mem_singleton]
      exact ⟨fun h => h.resolve_left fun hm => hback (hfront m hm), .inr⟩

/-! ## Names in the column -/

theorem mem_intercalate {sep : List Char} {xs : List (List Char)} {c : Char}
    (h : c ∈ sep.intercalate xs) : c ∈ sep ∨ ∃ x ∈ xs, c ∈ x := by
  induction xs with
  | nil => cases h
  | cons x xs ih =>
      by_cases hnil : xs = []
      · rw [hnil, List.intercalate_singleton] at h
        exact .inr ⟨x, List.mem_cons_self, h⟩
      · rw [List.intercalate_cons_of_ne_nil hnil, List.append_assoc] at h
        rcases List.mem_append.mp h with h | h
        · exact .inr ⟨x, List.mem_cons_self, h⟩
        · rcases List.mem_append.mp h with h | h
          · exact .inl h
          · rcases ih h with h | ⟨y, hy, h⟩
            · exact .inl h
            · exact .inr ⟨y, List.mem_cons_of_mem _ hy, h⟩

theorem exists_intercalate_eq {sep : List Char} {xs : List (List Char)} {x : List Char}
    (h : x ∈ xs) : ∃ a b, sep.intercalate xs = a ++ (x ++ b) := by
  induction xs with
  | nil => cases h
  | cons y xs ih =>
      by_cases hnil : xs = []
      · subst hnil
        rw [List.mem_singleton.mp h, List.intercalate_singleton]
        exact ⟨[], [], by simp⟩
      · rw [List.intercalate_cons_of_ne_nil hnil]
        rcases List.mem_cons.mp h with rfl | h
        · exact ⟨[], sep ++ sep.intercalate xs, by simp⟩
        · obtain ⟨a, b, heq⟩ := ih h
          exact ⟨y ++ (sep ++ a), b, by rw [heq]; simp⟩

theorem isPrintable_dumpsNames {participants : List String} {c : Char}
    (h : c ∈ dumpsNames participants) : isPrintable c = true := by
  unfold dumpsNames at h
  rcases List.mem_cons.mp h with rfl | h
  · decide
  · rcases List.mem_append.mp h with h | h
    · rcases mem_intercalate h with h | ⟨x, hx, h⟩
      · have hsep : ∀ c ∈ ", ".toList, isPrintable c = true := forall_mem_of_all (by decide)
        exact hsep c h
      · obtain ⟨p, -, rfl⟩ := List.mem_map.mp hx
        rcases List.mem_cons.mp h with rfl | h
        · decide
        · rcases List.mem_append.mp h with h | h
          · exact isPrintable_jsonChars h
          · exact List.mem_singleton.mp h ▸ by decide
    · exact List.mem_singleton.mp h ▸ by decide

/-- Each participant's name stands in the column, escaped and between quotes. -/
theorem between_of_mem {participants : List String} {p : String} (h : p ∈ participants) :
    Between (dumpsNames participants) (jsonChars p.toList) := by
  have hmem := List.mem_map_of_mem (f := fun p : String => '"' :: (jsonChars p.toList ++ ['"'])) h
  obtain ⟨a, b, heq⟩ := @exists_intercalate_eq ", ".toList _ _ hmem
  refine ⟨'[' :: a, b ++ [']'], ?_⟩
  unfold dumpsNames
  rw [heq]
  simp

/-! ## The pattern -/

theorem takeWhile_dumpsNames (participants : List String) :
    (dumpsNames participants).takeWhile (· ≠ '\x00') = dumpsNames participants := by
  refine List.takeWhile_eq_self_iff.mpr fun c hc => decide_eq_true fun hnul => ?_
  have hprint := isPrintable_dumpsNames hc
  rw [hnul] at hprint
  cases hprint

/-- A pattern that begins with a quote is matched by the texts that do. -/
theorem likeMatch_quote {p t : List Char} :
    likeMatch ('"' :: p) t = true ↔ ∃ b, t = '"' :: b ∧ likeMatch p b = true := by
  rw [likeMatch_cons (by decide)]
  constructor
  · rintro ⟨d, b, rfl, hd, hb⟩
    rw [← eq_of_toLower_eq (by decide) (hd.resolve_left (by decide))]
    exact ⟨b, rfl, hb⟩
  · rintro ⟨b, rfl, hb⟩
    exact ⟨'"', b, rfl, .inr rfl, hb⟩

/-- The pattern of a name without U+0000 is looked for between quotes. -/
theorem like_namePattern {username : String} (hnul : '\x00' ∉ username.toList)
    (participants : List String) :
    like (dumpsNames participants) (namePattern username) = true ↔
      FitsBetween username participants := by
  have hwhole : (namePattern username).takeWhile (· ≠ '\x00') = namePattern username := by
    refine List.takeWhile_eq_self_iff.mpr fun c hc => decide_eq_true fun heq => ?_
    subst heq
    simp [namePattern, hnul] at hc
  have hquote : ['"', '%'] = ['"'] ++ ['%'] := rfl
  rw [like, hwhole, takeWhile_dumpsNames, namePattern, likeMatch_percent]
  constructor
  · rintro ⟨a, b, htext, hb⟩
    obtain ⟨rest, rfl, hrest⟩ := likeMatch_quote.mp hb
    obtain ⟨m, tail, rfl, hm, htail⟩ := likeMatch_append.mp hrest
    obtain ⟨last, rfl, -⟩ := likeMatch_quote.mp htail
    exact ⟨m, ⟨a, last, htext⟩, hm⟩
  · rintro ⟨m, ⟨a, last, htext⟩, hm⟩
    refine ⟨a, '"' :: (m ++ '"' :: last), htext, likeMatch_quote.mpr ⟨_, rfl, ?_⟩⟩
    refine likeMatch_append.mpr ⟨m, '"' :: last, rfl, hm, likeMatch_quote.mpr ⟨last, rfl, ?_⟩⟩
    exact likeMatch_percent.mpr ⟨last, [], (List.append_nil _).symm, rfl⟩

/-- The pattern of another name ends before its first U+0000. -/
theorem like_namePattern_nul {username : String} (hnul : '\x00' ∈ username.toList)
    (participants : List String) :
    like (dumpsNames participants) (namePattern username) = true ↔
      ∃ a m, dumpsNames participants = a ++ '"' :: m ∧
        likeMatch (username.toList.takeWhile (· ≠ '\x00')) m = true := by
  have hcut : (namePattern username).takeWhile (· ≠ '\x00') =
      '%' :: '"' :: username.toList.takeWhile (· ≠ '\x00') := by
    have hname : (username.toList ++ ['"', '%']).takeWhile (· ≠ '\x00') =
        username.toList.takeWhile (· ≠ '\x00') := by
      generalize username.toList = s at hnul
      induction s with
      | nil => cases hnul
      | cons c s ih =>
          rw [List.cons_append, List.takeWhile_cons, List.takeWhile_cons]
          by_cases hc : c = '\x00'
          · rw [if_neg (by simp [hc]), if_neg (by simp [hc])]
          · rw [ih ((List.mem_cons.mp hnul).resolve_left (Ne.symm hc))]
    rw [namePattern, List.takeWhile_cons, if_pos (by decide), List.takeWhile_cons,
      if_pos (by decide), hname]
  rw [like, hcut, takeWhile_dumpsNames, likeMatch_percent]
  constructor
  · rintro ⟨a, b, htext, hb⟩
    obtain ⟨m, rfl, hm⟩ := likeMatch_quote.mp hb
    exact ⟨a, m, htext, hm⟩
  · rintro ⟨a, m, htext, hm⟩
    exact ⟨a, '"' :: m, htext, likeMatch_quote.mpr ⟨m, rfl, hm⟩⟩

/-- Letters are plain. -/
theorem isPlain_of_isAlpha {c : Char} (h : c.isAlpha = true) : isPlain c = true := by
  have hrange : (65 ≤ c.toNat ∧ c.toNat ≤ 90) ∨ (97 ≤ c.toNat ∧ c.toNat ≤ 122) := by
    unfold Char.isAlpha Char.isUpper Char.isLower at h
    simp only [Bool.or_eq_true, decide_eq_true_eq, Bool.and_eq_true, UInt32.le_iff_toNat_le] at h
    exact h
  have hquote : c ≠ '"' := fun heq => by
    subst heq
    revert hrange
    decide
  have hback : c ≠ '\\' := fun heq => by
    subst heq
    revert hrange
    decide
  have hprint : isPrintable c = true := by
    rw [isPrintable, Bool.and_eq_true, decide_eq_true_eq, decide_eq_true_eq]
    omega
  rw [isPlain, hprint, decide_eq_true hquote, decide_eq_true hback]
  rfl

/-- A text that is a plain one up to case is plain. -/
theorem isPlain_of_toLower {s m : List Char} (hs : ∀ c ∈ s, isPlain c = true)
    (h : m.map Char.toLower = s.map Char.toLower) {x : Char} (hx : x ∈ m) :
    isPlain x = true := by
  cases halpha : x.isAlpha with
  | true => exact isPlain_of_isAlpha halpha
  | false =>
      have hmem : x.toLower ∈ s.map Char.toLower := h ▸ List.mem_map_of_mem hx
      obtain ⟨c, hc, heq⟩ := List.mem_map.mp hmem
      exact eq_of_toLower_eq halpha heq.symm ▸ hs c hc

/-- A name of plain characters without wildcards is found where it resembles a name. -/
theorem fitsBetween_iff_resembles {username : String}
    (hplain : username.toList.all isPlain = true)
    (hwild : username.toList.any isWildcard = false) (participants : List String) :
    FitsBetween username participants ↔ Resembles username participants := by
  have hplain' := List.all_eq_true.mp hplain
  have hwild' : ∀ c ∈ username.toList, isWildcard c = false := fun c hc =>
    Bool.not_eq_true _ ▸ List.any_eq_false.mp hwild c hc
  have hmatch : ∀ m, likeMatch username.toList m = true ↔
      m.map Char.toLower = username.toList.map Char.toLower := fun m => likeMatch_plain hwild'
  have hclean : ∀ m : List Char, m.map Char.toLower = username.toList.map Char.toLower →
      '"' ∉ m ∧ '\\' ∉ m := fun m hm =>
    ⟨fun hx => absurd (isPlain_of_toLower hplain' hm hx) (by decide),
      fun hx => absurd (isPlain_of_toLower hplain' hm hx) (by decide)⟩
  unfold FitsBetween Resembles
  constructor
  · rintro ⟨m, hbetween, hm⟩
    have hcase := (hmatch m).mp hm
    obtain ⟨hquote, hback⟩ := hclean m hcase
    rcases (between_dumpsNames hquote hback).mp hbetween with ⟨p, hp, rfl⟩ | ⟨rfl, htwo⟩
    · refine .inl ⟨p, hp, ?_⟩
      rwa [jsonChars_of_isPlain (isPlain_of_jsonChars hback)] at hcase
    · refine .inr ⟨?_, htwo⟩
      exact (eq_of_map_toLower_eq (forall_mem_of_all (by decide)) hcase).symm
  · rintro (⟨p, hp, hcase⟩ | ⟨hname, htwo⟩)
    · obtain ⟨hquote, hback⟩ := hclean _ hcase
      refine ⟨afterQuotes p, (between_dumpsNames hquote hback).mpr (.inl ⟨p, hp, ?_⟩),
        (hmatch _).mpr hcase⟩
      exact (jsonChars_of_isPlain fun x hx => isPlain_of_toLower hplain' hcase hx).symm
    · refine ⟨", ".toList, (between_dumpsNames (by decide) (by decide)).mpr (.inr ⟨rfl, htwo⟩), ?_⟩
      rw [hname]
      exact likeMatch_self _

/-- A name of plain characters is found in its threads. -/
theorem fitsBetween_of_mem {username : String} {participants : List String}
    (hplain : username.toList.all isPlain = true) (h : username ∈ participants) :
    FitsBetween username participants := by
  have hbetween := between_of_mem h
  rw [jsonChars_of_isPlain (List.all_eq_true.mp hplain)] at hbetween
  exact ⟨_, hbetween, likeMatch_self _⟩

/-- A name with a character that JSON does not have is not found. -/
theorem not_fitsBetween {username : String} (h : username.toList.all isPrintable = false)
    (participants : List String) : ¬ FitsBetween username participants := by
  rintro ⟨m, ⟨a, b, htext⟩, hm⟩
  obtain ⟨c, hc, hprint⟩ := List.all_eq_false.mp h
  have hwild : isWildcard c = false := by
    cases hwild : isWildcard c with
    | false => rfl
    | true =>
        simp only [isWildcard, Bool.or_eq_true, decide_eq_true_eq] at hwild
        rcases hwild with rfl | rfl
        · exact absurd rfl hprint
        · exact absurd rfl hprint
  have halpha : c.isAlpha = false := by
    by_contra hletter
    have hplain := isPlain_of_isAlpha (Bool.not_eq_false _ ▸ hletter)
    simp only [isPlain, Bool.and_eq_true] at hplain
    exact hprint hplain.1.1
  obtain ⟨d, hd, heq⟩ := exists_mem_of_likeMatch hm hc hwild
  rw [eq_of_toLower_eq halpha heq] at hprint
  refine hprint (@isPrintable_dumpsNames participants d ?_)
  rw [htext]
  simp [hd]

/-- The pattern tells the participants exactly if the thread is listed rightly. -/
theorem listedRight_iff (username : String) (participants : List String) :
    ListedRight username participants ↔
      (like (dumpsNames participants) (namePattern username) = true ↔
        username ∈ participants) := by
  unfold ListedRight
  by_cases hnul : '\x00' ∈ username.toList
  · rw [if_pos hnul, like_namePattern_nul hnul]
    exact iff_comm
  · rw [if_neg hnul, like_namePattern hnul]
    by_cases hplain : username.toList.all isPlain = true
    · have hown : username ∈ participants → FitsBetween username participants :=
        fitsBetween_of_mem hplain
      rw [if_pos hplain]
      by_cases hwild : username.toList.any isWildcard = true
      · rw [if_pos hwild]
        exact ⟨fun h => ⟨fun hfits => h.resolve_right (not_not.mpr hfits), hown⟩,
          fun h => or_iff_not_imp_right.mpr fun hfits => h.mp (not_not.mp hfits)⟩
      · rw [if_neg hwild, ← fitsBetween_iff_resembles hplain (Bool.not_eq_true _ ▸ hwild)]
        exact ⟨fun h => ⟨fun hfits => h.resolve_right (not_not.mpr hfits), hown⟩,
          fun h => or_iff_not_imp_right.mpr fun hfits => h.mp (not_not.mp hfits)⟩
    · rw [if_neg hplain]
      by_cases hprint : username.toList.all isPrintable = true
      · rw [if_pos hprint]
        exact iff_comm
      · have hnone := not_fitsBetween (Bool.not_eq_true _ ▸ hprint) participants
        rw [if_neg hprint]
        exact ⟨fun h => iff_of_false hnone h, fun h hmem => hnone (h.mpr hmem)⟩

/-! ## The list of a user -/

/-- The threads that a user takes part in. -/
def CrosstalkStore.threadsOf (s : CrosstalkStore) (username : String) (scope : Scope) : List Thread :=
  s.threads.rows.filter fun t => t.inScope scope && username ∈ t.participants

/-- Lists of the same summaries are of the same threads. -/
theorem filter_eq_of_perm {s : CrosstalkStore} {p q : Thread → Bool}
    (h : ((s.threads.rows.filter p).map Thread.summary).Perm
      ((s.threads.rows.filter q).map Thread.summary)) {t : Thread} (ht : t ∈ s.threads) :
    p t = q t := by
  have hone : ∀ {p q : Thread → Bool}, ((s.threads.rows.filter p).map Thread.summary).Perm
      ((s.threads.rows.filter q).map Thread.summary) → p t = true → q t = true := by
    intro p q hperm hp
    have hmem := hperm.mem_iff.mp (List.mem_map_of_mem (List.mem_filter.mpr ⟨ht, hp⟩))
    obtain ⟨t', ht', heq⟩ := List.mem_map.mp hmem
    obtain ⟨hrow, hq⟩ := List.mem_filter.mp ht'
    have hid : t'.id = t.id := congrArg ThreadSummary.id heq
    rwa [Table.eq_of_key_eq hrow ht hid] at hq
  exact Bool.eq_iff_iff.mpr ⟨hone h, hone h.symm⟩

/-- What a user who is no admin is answered, with a limit that is not exceeded. -/
theorem listThreads_eq {site : Site} {s : CrosstalkStore} {username : String} {caller : Caller}
    {limit : Nat} (hcaller : resolveCaller site username = .ok caller)
    (hrole : isAdminRole caller.role = false) (hlimit : s.threads.rows.length ≤ limit) :
    listThreads site s username limit = .ok ((sortDesc Thread.createdAt
      (s.threads.rows.filter fun t => t.inScope (readScope site caller) &&
        like (dumpsNames t.participants) (namePattern username))).map Thread.summary) := by
  rw [listThreads, hcaller]
  dsimp only
  rw [hrole, CrosstalkStore.listThreadsForUser]
  simp only [Bool.false_or]
  rw [List.take_of_length_le]
  rw [(sortDesc_perm Thread.createdAt _).length_eq]
  exact Nat.le_trans (List.length_filter_le _ _) hlimit

/-- **The list of threads.** With a limit that none of them exceeds, a user who is no admin is listed
exactly the own threads of the tenant, exactly if each of these is listed rightly for the user's
name. -/
theorem thread_listing_iff (site : Site) (s : CrosstalkStore) (username : String) (caller : Caller)
    (limit : Nat) (hcaller : resolveCaller site username = .ok caller)
    (hrole : isAdminRole caller.role = false) (hlimit : s.threads.rows.length ≤ limit) :
    (∃ items, listThreads site s username limit = .ok items ∧
      items.Perm ((s.threadsOf username (readScope site caller)).map Thread.summary)) ↔
    ∀ t ∈ s.threads, t.inScope (readScope site caller) = true →
      ListedRight username t.participants := by
  rw [listThreads_eq hcaller hrole hlimit]
  constructor
  · rintro ⟨items, heq, hperm⟩ t ht hscope
    obtain rfl := Except.ok.inj heq
    have hsame := filter_eq_of_perm (((sortDesc_perm _ _).map _).symm.trans hperm) ht
    rw [hscope, Bool.true_and, Bool.true_and] at hsame
    rw [listedRight_iff, hsame, decide_eq_true_iff]
  · intro hall
    refine ⟨_, rfl, ((sortDesc_perm _ _).trans (List.Perm.of_eq ?_)).map _⟩
    refine List.filter_congr fun t ht => ?_
    by_cases hscope : t.inScope (readScope site caller) = true
    · have hright := (listedRight_iff username t.participants).mp (hall t ht hscope)
      rw [hscope, Bool.true_and, Bool.true_and, Bool.eq_iff_iff, hright, decide_eq_true_iff]
    · rw [Bool.eq_false_iff.mpr hscope, Bool.false_and, Bool.false_and]

section Sample

/-- Ada and zoë of one L2. -/
def listingSite : Site where
  env := ⟨fun _ => none⟩
  users := fun name =>
    if name = "ada" ∨ name = "zoë" then some ⟨some "acme", some "lab", some "user"⟩ else none
  now := "2026-01-01T00:00:00Z"
  newThreadId := "thread_0"
  newMessageId := "msg_0"

/-- A thread of the L2. -/
def listedThread (participants : List String) : Thread where
  id := "thread_1"
  subject := "plan"
  status := .opened
  closedAt := none
  closedByUsername := none
  closedReason := none
  enterpriseId := "acme"
  groupId := "lab"
  createdAt := "2026-01-01T00:00:00Z"
  createdByUsername := "ada"
  participants := participants

/-- The store of a single thread. -/
def listingStore (participants : List String) : CrosstalkStore where
  threads := .single (listedThread participants)
  messages := .empty
  foreignKey := by simp

/-- Ada's own thread is listed. -/
theorem thread_listing_sample :
    ∃ items, listThreads listingSite (listingStore ["ada", "zoë"]) "ada" 20 = .ok items ∧
      items.Perm (((listingStore ["ada", "zoë"]).threadsOf "ada"
        (readScope listingSite ⟨"acme", "lab", "user"⟩)).map Thread.summary) := by
  refine (thread_listing_iff listingSite (listingStore ["ada", "zoë"]) "ada" ⟨"acme", "lab", "user"⟩ 20
    rfl (by decide) (by decide)).mpr fun t ht _ => ?_
  obtain rfl : t = listedThread ["ada", "zoë"] := List.mem_singleton.mp ht
  unfold ListedRight
  rw [if_neg (by decide), if_pos (by decide), if_neg (by decide)]
  exact .inl (by decide)

/-- A thread of `Ada` is listed for `ada`, who is no participant, and zoë's own thread is not listed
for zoë. -/
theorem ada_is_listed :
    listThreads listingSite (listingStore ["Ada", "bob"]) "ada" 20 =
        .ok [(listedThread ["Ada", "bob"]).summary] ∧
      listThreads listingSite (listingStore ["ada", "zoë"]) "zoë" 20 = .ok [] := by
  constructor
  · rw [@listThreads_eq _ _ _ ⟨"acme", "lab", "user"⟩ _ rfl (by decide) (by decide)]
    have hfilter : ((listingStore ["Ada", "bob"]).threads.rows.filter fun t =>
        t.inScope (readScope listingSite ⟨"acme", "lab", "user"⟩) &&
          like (dumpsNames t.participants) (namePattern "ada")) = [listedThread ["Ada", "bob"]] := by
      decide +kernel
    rw [hfilter, sortDesc_singleton]
    rfl
  · rw [@listThreads_eq _ _ _ ⟨"acme", "lab", "user"⟩ _ rfl (by decide) (by decide)]
    have hfilter : ((listingStore ["ada", "zoë"]).threads.rows.filter fun t =>
        t.inScope (readScope listingSite ⟨"acme", "lab", "user"⟩) &&
          like (dumpsNames t.participants) (namePattern "zoë")) = [] := by
      decide +kernel
    rw [hfilter, sortDesc_nil]
    rfl

end Sample

end EighthLayer.Crosstalk
