import EighthLayer.Lib.Json

/-!
# EighthLayer.Lib.JsonFields

Integers as JSON numbers, and the fields of a JSON object: a field that has to be there, one
with a default, one that may be `null`, one that is left out when there is nothing to say.
-/

/-! ## Lists of which an element may be refused -/

namespace List

variable {α β γ : Type}

/-- Where no element is refused, no list is. -/
theorem mapM_total (f : α → β) (xs : List α) : xs.mapM (fun x => some (f x)) = some (xs.map f) :=
  List.mapM_pure

theorem mapM_eq_some_iff {f : α → Option β} {xs : List α} {ys : List β} :
    xs.mapM f = some ys ↔ xs.map f = ys.map some := by
  induction xs generalizing ys with
  | nil =>
      cases ys with
      | nil => simp
      | cons y ys => simp
  | cons x xs ih =>
      rw [List.mapM_cons]
      show ((f x).bind fun y => (xs.mapM f).bind fun ys => some (y :: ys)) = some ys ↔ _
      simp only [Option.bind_eq_some_iff, Option.some.injEq, List.map_cons]
      cases ys with
      | nil => simp
      | cons y ys => simp [ih]

theorem exists_of_mem_mapM {f : α → Option β} {xs : List α} {ys : List β}
    (h : xs.mapM f = some ys) {y : β} (hy : y ∈ ys) : ∃ x ∈ xs, f x = some y := by
  have hmem : some y ∈ xs.map f := by
    rw [mapM_eq_some_iff.mp h]
    exact List.mem_map_of_mem hy
  exact List.mem_map.mp hmem

/-- A list is read as what it says if each element is. -/
theorem mapM_map_iff {f : α → Option β} {g : β → γ} {h : α → γ} {xs : List α} :
    (∃ ys, xs.mapM f = some ys ∧ ys.map g = xs.map h) ↔
      ∀ x ∈ xs, ∃ y, f x = some y ∧ g y = h x := by
  induction xs with
  | nil => simp
  | cons x xs ih =>
      rw [List.forall_mem_cons, ← ih]
      constructor
      · rintro ⟨ys, hread, hsaid⟩
        rw [mapM_eq_some_iff] at hread
        cases ys with
        | nil => cases hread
        | cons y ys =>
            obtain ⟨hx, hxs⟩ := List.cons.inj hread
            obtain ⟨hy, hys⟩ := List.cons.inj hsaid
            exact ⟨⟨y, hx, hy⟩, ys, mapM_eq_some_iff.mpr hxs, hys⟩
      · rintro ⟨⟨y, hx, hy⟩, ys, hxs, hys⟩
        refine ⟨y :: ys, ?_, ?_⟩
        · rw [List.mapM_cons, hx, hxs]
          rfl
        · rw [List.map_cons, List.map_cons, hy, hys]

end List

namespace Lib

namespace NumText

/-- The text of an integer. -/
def ofInt : Int → NumText
  | .ofNat n => Json.NumText.ofNat n
  | .negSucc n =>
      { head := '-'
        tail := Nat.toDigits 10 (n + 1)
        starts := by decide
        chars := List.all_eq_true.mpr fun _ hc =>
          Json.isNumChar_of_isDigit (Nat.isDigit_of_mem_toDigits (by decide) (by decide) hc) }

/-- The number that some digits denote. -/
def natOfChars (s : List Char) : Option Nat :=
  if s ≠ [] ∧ s.all Char.isDigit = true then some (Nat.ofDigitChars 10 s 0) else none

/-- The integer that a number denotes; none when it is written with a fraction or an exponent. -/
def toInt (n : NumText) : Option Int :=
  if n.head = '-' then (natOfChars n.tail).map fun n => -(n : Int)
  else (natOfChars n.text).map Int.ofNat

theorem natOfChars_toDigits (n : Nat) : natOfChars (Nat.toDigits 10 n) = some n := by
  unfold natOfChars
  rw [if_pos ⟨Nat.toDigits_ne_nil, List.all_eq_true.mpr fun _ hc =>
    Nat.isDigit_of_mem_toDigits (by decide) (by decide) hc⟩, Nat.ofDigitChars_ten_toDigits]

/-- **Round trip.** -/
@[simp] theorem toInt_ofInt (n : Int) : (ofInt n).toInt = some n := by
  cases n with
  | ofNat n =>
      have htext : (Json.NumText.ofNat n).text = Nat.toDigits 10 n := Json.NumText.text_ofNat n
      have hhead : (Json.NumText.ofNat n).head ≠ '-' := by
        intro heq
        have hdigit : (Json.NumText.ofNat n).head.isDigit = true := by
          refine Nat.isDigit_of_mem_toDigits (b := 10) (n := n) (by decide) (by decide) ?_
          rw [← htext]
          exact List.mem_cons_self
        rw [heq] at hdigit
        cases hdigit
      show toInt (Json.NumText.ofNat n) = _
      rw [toInt, if_neg hhead, htext, natOfChars_toDigits]
      rfl
  | negSucc n =>
      rw [ofInt, toInt, if_pos rfl, natOfChars_toDigits]
      rfl

end NumText

namespace Json

/-! ## Fields -/

/-- The members of an object. -/
abbrev Members := List (String × Json)

/-- A field that has to be there. -/
def required {α : Type} (read : Json → Option α) (ms : Members) (key : String) : Option α :=
  (ms.lookup key).bind read

/-- A field with a default. -/
def defaulted {α : Type} (default : α) (read : Json → Option α) (ms : Members) (key : String) :
    Option α :=
  match ms.lookup key with
  | none => some default
  | some v => read v

/-- A field that may be missing or `null`. -/
def nullable {α : Type} (read : Json → Option α) (ms : Members) (key : String) :
    Option (Option α) :=
  match ms.lookup key with
  | none | some .null => some none
  | some v => (read v).map some

/-- A field that is left out when there is nothing to say. -/
def member (key : String) (v : Option Json) : Members := v.toList.map fun v => (key, v)

@[simp] theorem lookup_member (key key' : String) (v : Option Json) :
    (member key' v).lookup key = if key = key' then v else none := by
  cases v with
  | none =>
      rw [ite_self]
      rfl
  | some v =>
      by_cases heq : key = key'
      · rw [if_pos heq, heq]
        simp [member]
      · rw [if_neg heq]
        simp [member, heq]

/-- A value that is a text. -/
def text : Json → Option String
  | .str s => some s
  | _ => none

/-- A value that is an integer. -/
def integer : Json → Option Int
  | .num n => n.toInt
  | _ => none

/-- A value that is an array, of values of one kind. -/
def array {α : Type} (read : Json → Option α) : Json → Option (List α)
  | .arr xs => xs.mapM read
  | _ => none

/-- A value that is an object. -/
def object {α : Type} (read : Members → Option α) : Json → Option α
  | .obj ms => read ms
  | _ => none

/-! ## Fields that are written -/

section Written

variable {α β : Type} {read : Json → Option α} {write : β → Json} {ms : Members} {key : String}

/-- A field that is left out or written is read, when it is there. -/
theorem nullable_of_lookup {o : Option β} (hlookup : ms.lookup key = o.map write)
    (hnull : ∀ b, write b ≠ .null) :
    nullable read ms key = o.mapM fun b => read (write b) := by
  unfold nullable
  cases o with
  | none =>
      rw [hlookup]
      rfl
  | some b =>
      rw [hlookup]
      simp only [Option.map_some]
      split
      · rename_i heq
        exact absurd heq (by simp)
      · rename_i heq
        exact absurd (Option.some.inj heq) (hnull b)
      · rename_i heq
        rw [← Option.some.inj heq]
        rfl

theorem defaulted_of_lookup {default : α} {v : Json} (hlookup : ms.lookup key = some v) :
    defaulted default read ms key = read v := by
  rw [defaulted, hlookup]

theorem required_of_lookup {v : Json} (hlookup : ms.lookup key = some v) :
    required read ms key = read v := by
  rw [required, hlookup, Option.bind_some]

end Written

/-- What is written element by element is read element by element. -/
theorem array_map {α β : Type} {write : α → Json} {read : Json → Option β} (xs : List α) :
    array read (.arr (xs.map write)) = xs.mapM fun x => read (write x) := by
  rw [array, List.mapM_map]
  rfl

end Json

end Lib
