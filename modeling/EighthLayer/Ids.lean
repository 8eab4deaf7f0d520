import EighthLayer.Lib.Positional
import Mathlib.Data.String.Basic

/-!
# EighthLayer.Ids

The ids of activity rows and of reflect submissions (`activity.py`, `reflect.py`): a time in ten symbols of
base 32 and sixteen random symbols after it. Ids sort by their times, as far as ten symbols tell times
apart (`generated_ids_sorted`).
-/

namespace EighthLayer

open Lib

/-! ## Generating -/

/-- `_CROCKFORD_BASE32`, and `alphabet` of the other generator. -/
def crockfordBase32 : List Char := "0123456789ABCDEFGHJKMNPQRSTVWXYZ".toList

/-- A symbol; the index is masked, and so in range. -/
def crockford (d : Nat) : Char := crockfordBase32.getD d '0'

/-- What `secrets.choice` makes in sixteen rounds. -/
structure RandPart where
  chars : List Char
  length : chars.length = 16
  mem : ∀ c ∈ chars, c ∈ crockfordBase32

/-- The loop over `millis`, which takes the last five bits first. -/
def tsChars : (rounds millis : Nat) → List Char
  | 0, _ => []
  | rounds + 1, millis => crockford (millis &&& 0x1F) :: tsChars rounds (millis >>> 5)

/-- The two parts after the prefix. -/
def ulid (millis : Nat) (rand : RandPart) : List Char := (tsChars 10 millis).reverse ++ rand.chars

/-- `generate_activity_id`, at a time in milliseconds. -/
def generateActivityId (millis : Nat) (rand : RandPart) : String :=
  String.ofList ("act_".toList ++ ulid millis rand)

/-- `_generate_submission_id`. -/
def generateSubmissionId (millis : Nat) (rand : RandPart) : String :=
  String.ofList ("sub_".toList ++ ulid millis rand)

/-! ## Order -/

/-- The symbols are in the order of what they stand for. -/
theorem crockford_lt : ∀ d < 32, ∀ e < 32, (crockford d < crockford e ↔ d < e) := by decide

/-- Masking and shifting take the places of base 32. -/
theorem reverse_tsChars (rounds millis : Nat) :
    (tsChars rounds millis).reverse = places 32 crockford rounds millis := by
  induction rounds generalizing millis with
  | zero => rfl
  | succ rounds ih =>
    have hmask : millis &&& 0x1F = millis % 32 := Nat.and_two_pow_sub_one_eq_mod millis 5
    have hshift : millis >>> 5 = millis / 32 := Nat.shiftRight_eq_div_pow millis 5
    rw [tsChars, List.reverse_cons, ih, hmask, hshift, places]

theorem length_ulid (millis : Nat) (rand : RandPart) : (ulid millis rand).length = 26 := by
  rw [ulid, List.length_append, reverse_tsChars, length_places, rand.length]

/-- Ids of two times are in the order of the times, whatever is random in them. -/
theorem ulid_lt {t₁ t₂ : Nat} (h : t₁ < t₂) (ht : t₂ < 32 ^ 10) (r₁ r₂ : RandPart) :
    ulid t₁ r₁ < ulid t₂ r₂ := by
  rw [ulid, ulid, reverse_tsChars, reverse_tsChars, append_lt_append_iff (by simp)]
  exact .inl ((places_lt_iff crockford_lt (h.trans ht) ht).mpr h)

/-- An id with a prefix. -/
theorem ofList_lt {pre x y : List Char} (h : x < y) :
    String.ofList (pre ++ x) < String.ofList (pre ++ y) := by
  rw [String.lt_iff_toList_lt, String.toList_ofList, String.toList_ofList, append_lt_append_iff rfl]
  exact .inr ⟨rfl, h⟩

/-- An id with a prefix of four symbols has thirty. -/
theorem length_ofList {pre : List Char} (hpre : pre.length = 4) (t : Nat) (r : RandPart) :
    (String.ofList (pre ++ ulid t r)).length = 30 := by
  rw [String.length_ofList, List.length_append, hpre, length_ulid]

/-- **Generated ids sort by time**, for either generator, and all have one length. -/
theorem generated_ids_sorted :
    (∀ (t₁ t₂ : Nat) (r₁ r₂ : RandPart), t₁ < t₂ → t₂ < 32 ^ 10 →
      generateActivityId t₁ r₁ < generateActivityId t₂ r₂ ∧
        generateSubmissionId t₁ r₁ < generateSubmissionId t₂ r₂) ∧
    ∀ (t : Nat) (r : RandPart),
      (generateActivityId t r).length = 30 ∧ (generateSubmissionId t r).length = 30 := by
  refine ⟨fun t₁ t₂ r₁ r₂ h ht => ?_, fun t r => ?_⟩
  · have hlt := ulid_lt h ht r₁ r₂
    exact ⟨ofList_lt hlt, ofList_lt hlt⟩
  · exact ⟨length_ofList (by decide) t r, length_ofList (by decide) t r⟩

/-- Sixteen symbols of one kind. -/
def sixteen (d : Nat) (h : crockford d ∈ crockfordBase32) : RandPart where
  chars := List.replicate 16 (crockford d)
  length := List.length_replicate
  mem := fun _ hc => List.eq_of_mem_replicate hc ▸ h

/-- A millisecond later, with the last of the random parts before and the first one after. -/
theorem generated_ids_sorted_sample :
    generateActivityId 1750000000031 (sixteen 31 (by decide)) <
      generateActivityId 1750000000032 (sixteen 0 (by decide)) :=
  (generated_ids_sorted.1 _ _ _ _ (by decide) (by decide)).1

end EighthLayer
