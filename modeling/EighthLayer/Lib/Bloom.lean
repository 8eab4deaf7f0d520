import EighthLayer.Lib.Bytes
import Mathlib.Data.Nat.Bitwise

/-!
# EighthLayer.Lib.Bloom

Bloom filters: a text of bits, and for each key the bits that are set once it is added. What is
added is found again; what is not may be.
-/

namespace Lib

/-! ## Bits of a text of bytes -/

/-- The byte with bit `k` alone. -/
def bitMask (k : Nat) : UInt8 := UInt8.ofNat (1 <<< k)

/-- Bit `i` is set, counted from the lowest one of the first byte. -/
def setBit (bits : Bytes) (i : Nat) : Bytes := bits.modify (i / 8) (· ||| bitMask (i % 8))

/-- Bit `i`; beyond the end none is set. -/
def hasBit (bits : Bytes) (i : Nat) : Bool :=
  match bits[i / 8]? with
  | some b => b &&& bitMask (i % 8) != 0
  | none => false

theorem toNat_bitMask {k : Nat} (h : k < 8) : (bitMask k).toNat = 2 ^ k := by
  interval_cases k <;> rfl

/-- A mask picks a bit out. -/
theorem and_bitMask_ne_zero (b : UInt8) {k : Nat} (h : k < 8) :
    (b &&& bitMask k != 0) = b.toNat.testBit k := by
  have hzero : b &&& bitMask k = 0 ↔ b.toNat.testBit k = false := by
    rw [← UInt8.toNat_inj, UInt8.toNat_and, toNat_bitMask h, Nat.and_two_pow]
    cases b.toNat.testBit k <;> simp
  rw [Bool.eq_iff_iff, bne_iff_ne, ne_eq, hzero, Bool.not_eq_false]

theorem hasBit_iff {bits : Bytes} {i : Nat} :
    hasBit bits i = true ↔ ∃ b, bits[i / 8]? = some b ∧ b.toNat.testBit (i % 8) = true := by
  have hbit : i % 8 < 8 := Nat.mod_lt i (by decide)
  unfold hasBit
  split
  · rename_i b hb
    simp [hb, and_bitMask_ne_zero b hbit]
  · rename_i hb
    simp [hb]

@[simp] theorem length_setBit (bits : Bytes) (i : Nat) : (setBit bits i).length = bits.length :=
  List.length_modify _ _ _

/-- What is set is one bit more. -/
theorem hasBit_setBit (bits : Bytes) (i j : Nat) :
    hasBit (setBit bits i) j = true ↔
      hasBit bits j = true ∨ (j = i ∧ j / 8 < bits.length) := by
  have hi : i % 8 < 8 := Nat.mod_lt i (by decide)
  rw [hasBit_iff, hasBit_iff, setBit]
  by_cases hbyte : i / 8 = j / 8
  · rw [hbyte, List.getElem?_modify_eq]
    have hsame : j = i ↔ i % 8 = j % 8 := by omega
    cases hget : bits[j / 8]? with
    | none =>
        have hlength := List.getElem?_eq_none_iff.mp hget
        simp only [Option.map_eq_map, Option.map_none, reduceCtorEq, false_and, exists_false,
          false_or, false_iff]
        omega
    | some b =>
        obtain ⟨hlength, -⟩ := List.getElem?_eq_some_iff.mp hget
        simp [UInt8.toNat_or, toNat_bitMask hi, Nat.testBit_two_pow, hsame, hlength]
  · rw [List.getElem?_modify_ne _ _ hbyte]
    have hne : j ≠ i := fun heq => hbyte (by rw [heq])
    simp [hne]

theorem length_foldl_setBit (is : List Nat) (bits : Bytes) :
    (is.foldl setBit bits).length = bits.length := by
  induction is generalizing bits with
  | nil => rfl
  | cons i is ih => rw [List.foldl_cons, ih, length_setBit]

theorem hasBit_foldl_setBit (is : List Nat) (bits : Bytes) (j : Nat) :
    hasBit (is.foldl setBit bits) j = true ↔
      hasBit bits j = true ∨ (j ∈ is ∧ j / 8 < bits.length) := by
  induction is generalizing bits with
  | nil => simp
  | cons i is ih =>
      rw [List.foldl_cons, ih, hasBit_setBit, length_setBit, List.mem_cons]
      constructor
      · rintro ((hold | ⟨rfl, hlt⟩) | ⟨hmem, hlt⟩)
        · exact .inl hold
        · exact .inr ⟨.inl rfl, hlt⟩
        · exact .inr ⟨.inr hmem, hlt⟩
      · rintro (hold | ⟨rfl | hmem, hlt⟩)
        · exact .inl (.inl hold)
        · exact .inl (.inr ⟨rfl, hlt⟩)
        · exact .inr ⟨hmem, hlt⟩

/-! ## Filters -/

section Filter

variable {κ : Type} (hashes : κ → List Nat)

/-- The filter of `n` bytes over some keys. -/
def bloomOf (n : Nat) (keys : List κ) : Bytes :=
  keys.foldl (fun bits key => (hashes key).foldl setBit bits) (List.replicate n 0)

/-- All bits of the key are set. -/
def bloomHas (bits : Bytes) (key : κ) : Bool := (hashes key).all (hasBit bits)

variable {hashes}

theorem bloomOf_eq (n : Nat) (keys : List κ) :
    bloomOf hashes n keys = (keys.flatMap hashes).foldl setBit (List.replicate n 0) := by
  rw [bloomOf, List.foldl_flatMap]

@[simp] theorem length_bloomOf (n : Nat) (keys : List κ) : (bloomOf hashes n keys).length = n := by
  rw [bloomOf_eq, length_foldl_setBit, List.length_replicate]

/-- The bits that are set are those of the keys. -/
theorem hasBit_bloomOf {n : Nat} {keys : List κ} {i : Nat} :
    hasBit (bloomOf hashes n keys) i = true ↔ (∃ key ∈ keys, i ∈ hashes key) ∧ i / 8 < n := by
  have hempty : hasBit (List.replicate n 0) i = false := by
    unfold hasBit
    rw [List.getElem?_replicate]
    split
    · rename_i b hb
      split at hb
      · cases hb
        rw [UInt8.zero_and]
        rfl
      · cases hb
    · rfl
  rw [bloomOf_eq, hasBit_foldl_setBit, hempty, List.length_replicate, List.mem_flatMap]
  simp

/-- **No false negatives.** -/
theorem bloomHas_bloomOf {n : Nat} {keys : List κ} {key : κ} (hkey : key ∈ keys)
    (hsize : ∀ i ∈ hashes key, i / 8 < n) :
    bloomHas hashes (bloomOf hashes n keys) key = true :=
  List.all_eq_true.mpr fun i hi => hasBit_bloomOf.mpr ⟨⟨key, hkey, hi⟩, hsize i hi⟩

end Filter

end Lib
