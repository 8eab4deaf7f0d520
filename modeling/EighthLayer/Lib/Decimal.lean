import EighthLayer.Lib.JsonFields
import EighthLayer.Lib.Rfc3339

/-!
# EighthLayer.Lib.Decimal

Decimals of nine places that are not negative, and their texts as JSON numbers: with the trailing
zeros of the fraction left out, and with a whole number written with or without a fraction.
-/

namespace Lib

/-- So many billionths. -/
structure Decimal where
  billionths : Nat
deriving DecidableEq

namespace Decimal

instance : LinearOrder Decimal :=
  LinearOrder.lift' Decimal.billionths fun _ _ h => congrArg Decimal.mk h

instance : Add Decimal := ⟨fun a b => ⟨a.billionths + b.billionths⟩⟩

/-- Nothing is smaller than zero. -/
instance : Sub Decimal := ⟨fun a b => ⟨a.billionths - b.billionths⟩⟩

instance : Mul Decimal := ⟨fun a b => ⟨a.billionths * b.billionths / 10 ^ 9⟩⟩

instance : Div Decimal := ⟨fun a b => ⟨a.billionths * 10 ^ 9 / b.billionths⟩⟩

instance : NatCast Decimal := ⟨fun n => ⟨n * 10 ^ 9⟩⟩

instance : OfScientific Decimal :=
  ⟨fun m negative e => ⟨if negative then m * 10 ^ 9 / 10 ^ e else m * 10 ^ e * 10 ^ 9⟩⟩

/-! ## Texts -/

/-- The point and the digits after it; `zero` stands for no fraction. -/
def fraction (zero : List Char) (d : Decimal) : List Char :=
  if d.billionths % 1000000000 = 0 then zero
  else Timestamp.trimmedFraction (d.billionths % 1000000000)

/-- The text of a decimal, where `zero` stands for no fraction. -/
def text (zero : List Char) (hzero : zero.all isNumChar = true) (d : Decimal) : NumText where
  head := (Json.NumText.ofNat (d.billionths / 1000000000)).head
  tail := (Json.NumText.ofNat (d.billionths / 1000000000)).tail ++ d.fraction zero
  starts := (Json.NumText.ofNat (d.billionths / 1000000000)).starts
  chars := by
    rw [List.all_append, (Json.NumText.ofNat (d.billionths / 1000000000)).chars, Bool.true_and]
    unfold fraction Timestamp.trimmedFraction
    split
    · exact hzero
    · rw [List.all_cons, Bool.and_eq_true, List.all_eq_true]
      refine ⟨by decide, fun c hc => Json.isNumChar_of_isDigit ?_⟩
      exact List.all_eq_true.mp (isDigit_digits 9 _) c ((List.rdropWhile_prefix _ _).subset hc)

/-- The decimal that a text denotes. -/
def ofText (n : NumText) : Option Decimal := do
  let whole ← NumText.natOfChars (n.text.takeWhile Char.isDigit)
  let (billionths, rest) ← Timestamp.readNanos (n.text.dropWhile Char.isDigit ++ ['e'])
  if rest = ['e'] then some ⟨whole * 1000000000 + billionths⟩ else none

/-- **Round trip**, if what stands for no fraction is read as none. -/
theorem ofText_text {zero : List Char} (hzero : zero.all isNumChar = true)
    (hstart : ∀ c ∈ zero.head?, c.isDigit = false)
    (hread : Timestamp.readNanos (zero ++ ['e']) = some (0, ['e'])) (d : Decimal) :
    ofText (d.text zero hzero) = some d := by
  have htext : (d.text zero hzero).text =
      Nat.toDigits 10 (d.billionths / 1000000000) ++ d.fraction zero := by
    rw [← Json.NumText.text_ofNat]
    rfl
  have hnano : d.billionths % 1000000000 < 1000000000 := Nat.mod_lt _ (by decide)
  have hfraction : Timestamp.readNanos (d.fraction zero ++ ['e']) =
      some (d.billionths % 1000000000, ['e']) := by
    unfold fraction
    split
    · rename_i hwhole
      rw [hread, hwhole]
    · exact Timestamp.readNanos_trimmedFraction hnano ⟨'e', [], rfl, by decide, by decide⟩
  have hhead : ∀ c ∈ (d.fraction zero).head?, c.isDigit = false := by
    unfold fraction Timestamp.trimmedFraction
    split
    · exact hstart
    · intro c hc
      rw [← Option.mem_some_iff.mp hc]
      decide
  have hdigits : ∀ c ∈ Nat.toDigits 10 (d.billionths / 1000000000), c.isDigit = true :=
    fun _ hc => Nat.isDigit_of_mem_toDigits (by decide) (by decide) hc
  have hsplit : (Nat.toDigits 10 (d.billionths / 1000000000) ++ d.fraction zero).takeWhile
        Char.isDigit = Nat.toDigits 10 (d.billionths / 1000000000) ∧
      (Nat.toDigits 10 (d.billionths / 1000000000) ++ d.fraction zero).dropWhile
        Char.isDigit = d.fraction zero := by
    rw [List.takeWhile_append_of_pos hdigits, List.dropWhile_append_of_pos hdigits]
    cases hrest : d.fraction zero with
    | nil => simp
    | cons c cs =>
        have hc := hhead c (by rw [hrest]; rfl)
        simp [hc]
  unfold ofText
  rw [htext, hsplit.1, hsplit.2, NumText.natOfChars_toDigits]
  show (Timestamp.readNanos (d.fraction zero ++ ['e'])).bind _ = _
  rw [hfraction]
  show some (Decimal.mk _) = some d
  rw [Nat.div_add_mod']

end Decimal

end Lib
