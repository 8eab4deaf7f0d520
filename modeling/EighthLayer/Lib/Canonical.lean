import EighthLayer.Lib.Json
import EighthLayer.Lib.Utf8

/-!
# EighthLayer.Lib.Canonical

Canonical JSON, as RFC 8785 has it: the bytes of a value are the text of the value
itself, with its numbers in one spelling and the members of each object in one order.

Which spelling and which order is left open. `CanonicalForm` relates a value to every
rearrangement of it, `Canonicalizes` says that a function writes such rearrangements
out, and that is enough for what a signature over the bytes needs: values of the same
bytes are the same up to order and spelling (`Canonicalizes.same`), and the bytes of an
object can be told from whatever is appended to them (`Canonicalizes.prefix_free`).
-/

namespace Lib

namespace Json

variable (number : NumText → Option NumText)

mutual

/-- The second value is the first with its numbers rewritten by `number` and the members
of its objects reordered. -/
inductive CanonicalForm : Json → Json → Prop
  | null : CanonicalForm .null .null
  | bool (b : Bool) : CanonicalForm (.bool b) (.bool b)
  | num {m n : NumText} (h : number m = some n) : CanonicalForm (.num m) (.num n)
  | str (s : String) : CanonicalForm (.str s) (.str s)
  | arr {xs ys : List Json} (h : CanonicalElems xs ys) : CanonicalForm (.arr xs) (.arr ys)
  | obj {ms ns os : List (String × Json)} (h : CanonicalMembers ms ns) (hperm : ns.Perm os) :
      CanonicalForm (.obj ms) (.obj os)

inductive CanonicalElems : List Json → List Json → Prop
  | nil : CanonicalElems [] []
  | cons {x y : Json} {xs ys : List Json} (h : CanonicalForm x y) (hrest : CanonicalElems xs ys) :
      CanonicalElems (x :: xs) (y :: ys)

inductive CanonicalMembers : List (String × Json) → List (String × Json) → Prop
  | nil : CanonicalMembers [] []
  | cons {k : String} {v w : Json} {ms ns : List (String × Json)} (h : CanonicalForm v w)
      (hrest : CanonicalMembers ms ns) : CanonicalMembers ((k, v) :: ms) ((k, w) :: ns)

end

/-- Values with a canonical form in common: the same but for the order of members and
the spelling of numbers. -/
def Same (v w : Json) : Prop := ∃ c, CanonicalForm number v c ∧ CanonicalForm number w c

variable {number}

theorem Same.symm {v w : Json} (h : Same number v w) : Same number w v := by
  obtain ⟨c, hv, hw⟩ := h
  exact ⟨c, hw, hv⟩

/-- Strings that are the same are equal. -/
theorem Same.str_eq {s t : String} (h : Same number (.str s) (.str t)) : s = t := by
  obtain ⟨c, hs, ht⟩ := h
  cases hs
  cases ht
  rfl

/-- A value that is the same as a string is that string. -/
theorem Same.eq_str {v : Json} {s : String} (h : Same number v (.str s)) : v = .str s := by
  obtain ⟨c, hv, hs⟩ := h
  cases hs
  cases hv
  rfl

/-! ### Members of objects that are the same -/

theorem CanonicalMembers.keys {ms ns : List (String × Json)} (h : CanonicalMembers number ms ns) :
    ns.map Prod.fst = ms.map Prod.fst := by
  induction ms generalizing ns with
  | nil =>
      cases h
      rfl
  | cons m ms ih =>
      cases h with
      | cons hv hrest => rw [List.map_cons, List.map_cons, ih hrest]

/-- Each member has a canonical form among the canonical members. -/
theorem CanonicalMembers.exists_of_mem {ms ns : List (String × Json)}
    (h : CanonicalMembers number ms ns) {k : String} {v : Json} (hv : (k, v) ∈ ms) :
    ∃ w, CanonicalForm number v w ∧ (k, w) ∈ ns := by
  induction ms generalizing ns with
  | nil => cases hv
  | cons m ms ih =>
      cases h with
      | cons hhead hrest =>
          rcases List.mem_cons.mp hv with heq | hv
          · obtain ⟨rfl, rfl⟩ := Prod.mk.inj heq
            exact ⟨_, hhead, List.mem_cons_self ..⟩
          · obtain ⟨w, hw, hmem⟩ := ih hrest hv
            exact ⟨w, hw, List.mem_cons_of_mem _ hmem⟩

/-- Objects that are the same have the same keys. -/
theorem Same.keys {ms ns : List (String × Json)} (h : Same number (.obj ms) (.obj ns)) :
    (ms.map Prod.fst).Perm (ns.map Prod.fst) := by
  obtain ⟨c, hm, hn⟩ := h
  cases hm with
  | obj hms hperm =>
      cases hn with
      | obj hns hperm' =>
          rw [← hms.keys, ← hns.keys]
          exact (hperm.map Prod.fst).trans (hperm'.map Prod.fst).symm

/-- Objects that are the same hold the same value under each key. -/
theorem Same.value {ms ns : List (String × Json)} (h : Same number (.obj ms) (.obj ns))
    (hnodup : (ns.map Prod.fst).Nodup) {k : String} {v w : Json} (hv : (k, v) ∈ ms)
    (hw : (k, w) ∈ ns) : Same number v w := by
  obtain ⟨c, hm, hn⟩ := h
  cases hm with
  | obj hms hperm =>
      cases hn with
      | obj hns hperm' =>
          obtain ⟨v', hv', hmem⟩ := hms.exists_of_mem hv
          obtain ⟨w', hw', hmem'⟩ := hns.exists_of_mem hw
          have hkeys := (hperm'.map Prod.fst).nodup_iff.mp (hns.keys ▸ hnodup)
          have heq := eq_of_mem_of_nodup_keys hkeys (hperm.mem_iff.mp hmem)
            (hperm'.mem_iff.mp hmem')
          exact ⟨v', hv', heq ▸ hw'⟩

/-! ### Sorting is one way to do it -/

mutual

theorem canonicalForm_sortKeys : ∀ v : Json, CanonicalForm some v (sortKeys v)
  | .null => .null
  | .bool b => .bool b
  | .num _ => .num rfl
  | .str s => .str s
  | .arr xs => .arr (canonicalElems_sortElems xs)
  | .obj ms => .obj (canonicalMembers_sortMembers ms) (List.perm_insertionSort _ _).symm

theorem canonicalElems_sortElems : ∀ xs : List Json, CanonicalElems some xs (sortElems xs)
  | [] => .nil
  | x :: xs => .cons (canonicalForm_sortKeys x) (canonicalElems_sortElems xs)

theorem canonicalMembers_sortMembers : ∀ ms : List (String × Json),
    CanonicalMembers some ms (sortMembers ms)
  | [] => .nil
  | (_, v) :: ms => .cons (canonicalForm_sortKeys v) (canonicalMembers_sortMembers ms)

end

end Json

/-! ### Functions that write canonical forms -/

/-- `canonicalize` writes UTF-8 text of canonical forms; it may raise (`none`). -/
def Canonicalizes (number : NumText → Option NumText) (canonicalize : Json → Option Bytes) : Prop :=
  ∀ v bytes, canonicalize v = some bytes →
    ∃ c, Json.CanonicalForm number v c ∧ bytes = utf8 (String.ofList (Json.print c))

/-- `json.dumps` with sorted keys writes canonical forms. -/
theorem canonicalizes_dumps : Canonicalizes some fun v => some (utf8 (Json.dumps v)) := by
  intro v bytes h
  exact ⟨Json.sortKeys v, Json.canonicalForm_sortKeys v, (Option.some.inj h).symm⟩

variable {number : NumText → Option NumText} {canonicalize : Json → Option Bytes}

/-- **Canonical bytes identify the value**, up to order and spelling. -/
theorem Canonicalizes.same (h : Canonicalizes number canonicalize) {v w : Json} {bytes : Bytes}
    (hv : canonicalize v = some bytes) (hw : canonicalize w = some bytes) :
    Json.Same number v w := by
  obtain ⟨c, hc, hbytes⟩ := h v bytes hv
  obtain ⟨d, hd, hbytes'⟩ := h w bytes hw
  have htext := congrArg String.toList (utf8_injective (hbytes.symm.trans hbytes'))
  rw [String.toList_ofList, String.toList_ofList] at htext
  rw [Json.print_injective htext] at hc
  exact ⟨d, hc, hd⟩

/-- **The bytes of objects are prefix-free**: what is appended to them, be it any text,
can be told from them. -/
theorem Canonicalizes.prefix_free (h : Canonicalizes number canonicalize)
    {ms ns : List (String × Json)} {bytes bytes' : Bytes} {s t : String}
    (hm : canonicalize (.obj ms) = some bytes) (hn : canonicalize (.obj ns) = some bytes')
    (happ : bytes ++ utf8 s = bytes' ++ utf8 t) : bytes = bytes' ∧ s = t := by
  obtain ⟨c, hc, rfl⟩ := h _ _ hm
  obtain ⟨d, hd, rfl⟩ := h _ _ hn
  cases hc
  cases hd
  rw [← utf8_append, ← utf8_append] at happ
  have htext := congrArg String.toList (utf8_injective happ)
  rw [String.toList_append, String.toList_append, String.toList_ofList,
    String.toList_ofList] at htext
  obtain ⟨rfl, hst⟩ := Json.print_obj_append_inj htext
  exact ⟨rfl, String.toList_injective hst⟩

end Lib
