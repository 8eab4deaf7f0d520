import Mathlib.Tactic.IntervalCases
import Mathlib.Data.List.Basic

/-!
# EighthLayer.Lib.Bytes

Byte strings and their textual forms, as Python's standard library has them:
UTF-8 (`str.encode`), lower-case hexadecimal (`bytes.hex`, `bytes.fromhex`) and
unpadded URL-safe base64. A byte string is a `List UInt8`.

Each encoder comes with its round trip through the decoder. The decoders are the
*lenient* ones of the standard library: `fromHex` skips ASCII whitespace and
reads both letter cases, `a2bBase64` skips every character outside the alphabet.
Encoding is therefore injective, decoding is not.
-/

namespace Lib

/-- What is checked of each element of a list holds of each. -/
theorem forall_mem_of_all {α : Type} {p : α → Prop} [DecidablePred p] {l : List α}
    (h : l.all (fun a => p a) = true) : ∀ a ∈ l, p a := fun a ha =>
  of_decide_eq_true (List.all_eq_true.mp h a ha)

/-- A byte string. -/
abbrev Bytes := List UInt8

/-! ### UTF-8 -/

/-- `str.encode("utf-8")`. -/
def utf8 (s : String) : Bytes := s.toUTF8.data.toList

theorem utf8_injective {s t : String} (h : utf8 s = utf8 t) : s = t := by
  have hdata : s.toUTF8.data = t.toUTF8.data := Array.ext' h
  have hbytes : s.toUTF8 = t.toUTF8 := ByteArray.ext hdata
  exact String.toByteArray_inj.mp hbytes

/-! ### Hexadecimal -/

/-- The lower-case hexadecimal digit of `d < 16`. -/
def hexDigit (d : Nat) : Char := if d < 10 then Char.ofNat (48 + d) else Char.ofNat (87 + d)

/-- The value of a hexadecimal digit of either letter case. -/
def hexVal (c : Char) : Option Nat :=
  let n := c.toNat
  if 48 ≤ n ∧ n ≤ 57 then some (n - 48)
  else if 97 ≤ n ∧ n ≤ 102 then some (n - 87)
  else if 65 ≤ n ∧ n ≤ 70 then some (n - 55)
  else none

theorem hexVal_hexDigit {d : Nat} (h : d < 16) : hexVal (hexDigit d) = some d := by
  interval_cases d <;> decide

/-- The characters `bytes.fromhex` skips between two bytes. -/
def isAsciiSpace (c : Char) : Bool := c.toNat = 32 || (9 ≤ c.toNat && c.toNat ≤ 13)

theorem isAsciiSpace_hexDigit {d : Nat} (h : d < 16) : isAsciiSpace (hexDigit d) = false := by
  interval_cases d <;> decide

/-- `bytes.hex()`, as characters. -/
def hex : Bytes → List Char
  | [] => []
  | b :: bs => hexDigit (b.toNat / 16) :: hexDigit (b.toNat % 16) :: hex bs

/-- `bytes.fromhex`; `none` is its `ValueError`. -/
def fromHex : List Char → Option Bytes
  | [] => some []
  | [c] => if isAsciiSpace c then some [] else none
  | c :: d :: rest =>
    if isAsciiSpace c then fromHex (d :: rest)
    else match hexVal c, hexVal d with
      | some h, some l => (fromHex rest).map (UInt8.ofNat (16 * h + l) :: ·)
      | _, _ => none

@[simp] theorem hex_length (bs : Bytes) : (hex bs).length = 2 * bs.length := by
  induction bs with
  | nil => rfl
  | cons b bs ih => simp only [hex, List.length_cons, ih]; omega

/-- Reading back what `hex` wrote. -/
theorem fromHex_hex (bs : Bytes) : fromHex (hex bs) = some bs := by
  induction bs with
  | nil => rfl
  | cons b bs ih =>
      have hb : b.toNat < 256 := b.toNat_lt
      have hhi : b.toNat / 16 < 16 := by omega
      have hlo : b.toNat % 16 < 16 := by omega
      have hbyte : UInt8.ofNat (16 * (b.toNat / 16) + b.toNat % 16) = b := by
        rw [show 16 * (b.toNat / 16) + b.toNat % 16 = b.toNat by omega, UInt8.ofNat_toNat]
      simp only [hex, fromHex, isAsciiSpace_hexDigit hhi, hexVal_hexDigit hhi,
        hexVal_hexDigit hlo, ih, Option.map_some, hbyte, Bool.false_eq_true, if_false]

theorem hex_injective {a b : Bytes} (h : hex a = hex b) : a = b := by
  have hround := fromHex_hex a
  rw [h, fromHex_hex] at hround
  exact (Option.some.inj hround).symm

/-! ### Base64, URL-safe and unpadded -/

/-- The `base64.urlsafe_b64encode` alphabet. -/
def b64Char (n : Nat) : Char :=
  if n < 26 then Char.ofNat (65 + n)
  else if n < 52 then Char.ofNat (71 + n)
  else if n < 62 then Char.ofNat (n - 4)
  else if n = 62 then Char.ofNat 45
  else Char.ofNat 95

/-- The value of a base64 character. `urlsafe_b64decode` translates `-` and `_`
into `+` and `/` first, so all four are read; `none` is a character outside the
alphabet. -/
def b64Val (c : Char) : Option Nat :=
  let n := c.toNat
  if 65 ≤ n ∧ n ≤ 90 then some (n - 65)
  else if 97 ≤ n ∧ n ≤ 122 then some (n - 71)
  else if 48 ≤ n ∧ n ≤ 57 then some (n + 4)
  else if n = 45 ∨ n = 43 then some 62
  else if n = 95 ∨ n = 47 then some 63
  else none

/-- The padding character `=`. -/
def padChar : Char := Char.ofNat 61

theorem b64Val_b64Char {n : Nat} (h : n < 64) : b64Val (b64Char n) = some n := by
  interval_cases n <;> decide

theorem b64Char_ne_pad {n : Nat} (h : n < 64) : b64Char n ≠ padChar := by
  interval_cases n <;> decide

theorem b64Char_ascii {n : Nat} (h : n < 64) : (b64Char n).toNat < 128 := by
  interval_cases n <;> decide

/-- `base64.urlsafe_b64encode(b).rstrip(b"=")`, as characters. -/
def b64Encode : Bytes → List Char
  | [] => []
  | [a] => [b64Char (a.toNat / 4), b64Char (a.toNat % 4 * 16)]
  | [a, b] =>
    [b64Char (a.toNat / 4), b64Char (a.toNat % 4 * 16 + b.toNat / 16),
      b64Char (b.toNat % 16 * 4)]
  | a :: b :: c :: rest =>
    b64Char (a.toNat / 4) :: b64Char (a.toNat % 4 * 16 + b.toNat / 16) ::
      b64Char (b.toNat % 16 * 4 + c.toNat / 64) :: b64Char (c.toNat % 64) :: b64Encode rest

/-- The non-strict `binascii.a2b_base64` loop. `quad` counts the characters of
the current group read so far, `left` holds their bits not yet written and
`pads` the padding characters seen in a row; `none` is `binascii.Error`. -/
def a2bBase64 : (quad left pads : Nat) → List Char → Option Bytes
  | quad, _, _, [] => if quad = 0 then some [] else none
  | quad, left, pads, c :: rest =>
    if c = padChar then
      -- enough padding for the group ends the parse, whatever follows
      if 2 ≤ quad then
        if 4 ≤ quad + pads + 1 then some [] else a2bBase64 quad left (pads + 1) rest
      else a2bBase64 quad left pads rest
    else match b64Val c with
      | none => a2bBase64 quad left pads rest
      | some v => match quad with
        | 0 => a2bBase64 1 v 0 rest
        | 1 => (a2bBase64 2 (v % 16) 0 rest).map (UInt8.ofNat (left * 4 + v / 16) :: ·)
        | 2 => (a2bBase64 3 (v % 4) 0 rest).map (UInt8.ofNat (left * 16 + v / 4) :: ·)
        | _ => (a2bBase64 0 0 0 rest).map (UInt8.ofNat (left * 64 + v) :: ·)

/-- `base64.urlsafe_b64decode(s + "=" * ((-len(s)) % 4))`. A character outside
ASCII is a `ValueError` before any decoding. -/
def b64Decode (s : List Char) : Option Bytes :=
  if s.all (fun c => c.toNat < 128) then
    a2bBase64 0 0 0 (s ++ List.replicate ((4 - s.length % 4) % 4) padChar)
  else none

/-! One alphabet character advances the decoder by six bits; which bits it
completes depends on its place in the group. -/

theorem a2bBase64_first {n : Nat} (h : n < 64) (left pads : Nat) (rest : List Char) :
    a2bBase64 0 left pads (b64Char n :: rest) = a2bBase64 1 n 0 rest := by
  simp only [a2bBase64, if_neg (b64Char_ne_pad h), b64Val_b64Char h]

theorem a2bBase64_second {n : Nat} (h : n < 64) (left pads : Nat) (rest : List Char) :
    a2bBase64 1 left pads (b64Char n :: rest) =
      (a2bBase64 2 (n % 16) 0 rest).map (UInt8.ofNat (left * 4 + n / 16) :: ·) := by
  simp only [a2bBase64, if_neg (b64Char_ne_pad h), b64Val_b64Char h]

theorem a2bBase64_third {n : Nat} (h : n < 64) (left pads : Nat) (rest : List Char) :
    a2bBase64 2 left pads (b64Char n :: rest) =
      (a2bBase64 3 (n % 4) 0 rest).map (UInt8.ofNat (left * 16 + n / 4) :: ·) := by
  simp only [a2bBase64, if_neg (b64Char_ne_pad h), b64Val_b64Char h]

theorem a2bBase64_fourth {n : Nat} (h : n < 64) (left pads : Nat) (rest : List Char) :
    a2bBase64 3 left pads (b64Char n :: rest) =
      (a2bBase64 0 0 0 rest).map (UInt8.ofNat (left * 64 + n) :: ·) := by
  simp only [a2bBase64, if_neg (b64Char_ne_pad h), b64Val_b64Char h]

/-- The padding `b64Decode` adds after an encoded string. -/
def b64Pad (bs : Bytes) : List Char := List.replicate ((3 - bs.length % 3) % 3) padChar

theorem b64Encode_length_mod (bs : Bytes) :
    (4 - (b64Encode bs).length % 4) % 4 = (3 - bs.length % 3) % 3 := by
  fun_induction b64Encode bs with
  | case1 => rfl
  | case2 a => rfl
  | case3 a b => rfl
  | case4 a b c rest ih => simp only [List.length_cons]; omega

/-- What holds of the alphabet holds of every character of an encoded string. -/
theorem b64Encode_all {p : Char → Bool} (hp : ∀ n < 64, p (b64Char n) = true) (bs : Bytes) :
    (b64Encode bs).all p = true := by
  fun_induction b64Encode bs with
  | case1 => rfl
  | case2 a =>
      have ha : a.toNat < 256 := a.toNat_lt
      simp [hp (a.toNat / 4) (by omega), hp (a.toNat % 4 * 16) (by omega)]
  | case3 a b =>
      have ha : a.toNat < 256 := a.toNat_lt
      have hb : b.toNat < 256 := b.toNat_lt
      simp [hp (a.toNat / 4) (by omega), hp (a.toNat % 4 * 16 + b.toNat / 16) (by omega),
        hp (b.toNat % 16 * 4) (by omega)]
  | case4 a b c rest ih =>
      have ha : a.toNat < 256 := a.toNat_lt
      have hb : b.toNat < 256 := b.toNat_lt
      have hc : c.toNat < 256 := c.toNat_lt
      simp only [List.all_cons, Bool.and_eq_true]
      exact ⟨hp _ (by omega), hp _ (by omega), hp _ (by omega), hp _ (by omega), ih⟩

theorem b64Encode_ascii (bs : Bytes) : (b64Encode bs).all (fun c => c.toNat < 128) = true :=
  b64Encode_all (fun _ hn => decide_eq_true (b64Char_ascii hn)) bs

/-- Decoding an encoded, padded string byte group by byte group. -/
theorem a2bBase64_encode (bs : Bytes) : a2bBase64 0 0 0 (b64Encode bs ++ b64Pad bs) = some bs := by
  fun_induction b64Encode bs with
  | case1 => rfl
  | case2 a =>
      have ha : a.toNat < 256 := a.toNat_lt
      have hbyte : UInt8.ofNat (a.toNat / 4 * 4 + a.toNat % 4 * 16 / 16) = a := by
        rw [show a.toNat / 4 * 4 + a.toNat % 4 * 16 / 16 = a.toNat by omega, UInt8.ofNat_toNat]
      have hpad : b64Pad [a] = [padChar, padChar] := rfl
      simp only [hpad, List.cons_append, List.nil_append]
      rw [a2bBase64_first (by omega), a2bBase64_second (by omega), hbyte]
      simp [a2bBase64]
  | case3 a b =>
      have ha : a.toNat < 256 := a.toNat_lt
      have hb : b.toNat < 256 := b.toNat_lt
      have h1 : UInt8.ofNat (a.toNat / 4 * 4 + (a.toNat % 4 * 16 + b.toNat / 16) / 16) = a := by
        rw [show a.toNat / 4 * 4 + (a.toNat % 4 * 16 + b.toNat / 16) / 16 = a.toNat by omega,
          UInt8.ofNat_toNat]
      have h2 : UInt8.ofNat ((a.toNat % 4 * 16 + b.toNat / 16) % 16 * 16 +
          b.toNat % 16 * 4 / 4) = b := by
        rw [show (a.toNat % 4 * 16 + b.toNat / 16) % 16 * 16 + b.toNat % 16 * 4 / 4 = b.toNat
          by omega, UInt8.ofNat_toNat]
      have hpad : b64Pad [a, b] = [padChar] := rfl
      simp only [hpad, List.cons_append, List.nil_append]
      rw [a2bBase64_first (by omega), a2bBase64_second (by omega), a2bBase64_third (by omega), h1, h2]
      simp [a2bBase64]
  | case4 a b c rest ih =>
      have ha : a.toNat < 256 := a.toNat_lt
      have hb : b.toNat < 256 := b.toNat_lt
      have hc : c.toNat < 256 := c.toNat_lt
      have h1 : UInt8.ofNat (a.toNat / 4 * 4 + (a.toNat % 4 * 16 + b.toNat / 16) / 16) = a := by
        rw [show a.toNat / 4 * 4 + (a.toNat % 4 * 16 + b.toNat / 16) / 16 = a.toNat by omega,
          UInt8.ofNat_toNat]
      have h2 : UInt8.ofNat ((a.toNat % 4 * 16 + b.toNat / 16) % 16 * 16 +
          (b.toNat % 16 * 4 + c.toNat / 64) / 4) = b := by
        rw [show (a.toNat % 4 * 16 + b.toNat / 16) % 16 * 16 +
          (b.toNat % 16 * 4 + c.toNat / 64) / 4 = b.toNat by omega, UInt8.ofNat_toNat]
      have h3 : UInt8.ofNat ((b.toNat % 16 * 4 + c.toNat / 64) % 4 * 64 + c.toNat % 64) = c := by
        rw [show (b.toNat % 16 * 4 + c.toNat / 64) % 4 * 64 + c.toNat % 64 = c.toNat by omega,
          UInt8.ofNat_toNat]
      have hpad : b64Pad (a :: b :: c :: rest) = b64Pad rest := by
        simp only [b64Pad, List.length_cons]
        congr 1
        omega
      simp only [hpad, List.cons_append]
      rw [a2bBase64_first (by omega), a2bBase64_second (by omega), a2bBase64_third (by omega),
        a2bBase64_fourth (by omega), h1, h2, h3, ih]
      rfl

/-- Decoding an unpadded encoding gives the bytes back. -/
theorem b64Decode_b64Encode (bs : Bytes) : b64Decode (b64Encode bs) = some bs := by
  rw [b64Decode, if_pos (b64Encode_ascii bs), b64Encode_length_mod]
  exact a2bBase64_encode bs

/-! ### Base64, standard and padded -/

/-- The standard alphabet has `+` and `/` in the places of `-` and `_`. -/
def b64StdChar (c : Char) : Char := if c = '-' then '+' else if c = '_' then '/' else c

/-- `base64.b64encode(b)`, as characters. -/
def b64StdEncode (bs : Bytes) : List Char := (b64Encode bs ++ b64Pad bs).map b64StdChar

/-- `base64.b64decode(s)`. What is not of the alphabet is skipped, unless it is not ASCII. -/
def b64StdDecode (s : List Char) : Option Bytes :=
  if s.all (fun c => c.toNat < 128) then
    a2bBase64 0 0 0 (s.filter fun c => c ≠ '-' && c ≠ '_')
  else none

theorem b64Val_b64StdChar (c : Char) : b64Val (b64StdChar c) = b64Val c := by
  unfold b64StdChar
  split
  · rename_i h
    rw [h]
    decide
  · split
    · rename_i h
      rw [h]
      decide
    · rfl

theorem b64StdChar_eq_pad {c : Char} : b64StdChar c = padChar ↔ c = padChar := by
  unfold b64StdChar
  split
  · rename_i h
    rw [h]
    decide
  · split
    · rename_i h
      rw [h]
      decide
    · rfl

/-- The decoder does not tell the alphabets apart. -/
theorem a2bBase64_map_std (quad left pads : Nat) (s : List Char) :
    a2bBase64 quad left pads (s.map b64StdChar) = a2bBase64 quad left pads s := by
  fun_induction a2bBase64 quad left pads s with
  | _ => simp_all [a2bBase64, b64Val_b64StdChar, b64StdChar_eq_pad]

theorem b64StdDecode_b64StdEncode (bs : Bytes) : b64StdDecode (b64StdEncode bs) = some bs := by
  have hpads : ∀ {p : Char → Bool}, p padChar = true → (b64Pad bs).all p = true := by
    intro p hp
    rw [List.all_eq_true]
    intro c hc
    rw [List.eq_of_mem_replicate hc]
    exact hp
  have hascii : (b64StdEncode bs).all (fun c => c.toNat < 128) = true := by
    rw [b64StdEncode, List.all_map, List.all_append, Bool.and_eq_true]
    refine ⟨b64Encode_all (fun n hn => ?_) bs, hpads (by decide)⟩
    interval_cases n <;> decide
  have hstd : (b64StdEncode bs).filter (fun c => c ≠ '-' && c ≠ '_') = b64StdEncode bs := by
    refine List.filter_eq_self.mpr (List.all_eq_true.mp ?_)
    rw [b64StdEncode, List.all_map, List.all_append, Bool.and_eq_true]
    refine ⟨b64Encode_all (fun n hn => ?_) bs, hpads (by decide)⟩
    interval_cases n <;> decide
  rw [b64StdDecode, if_pos hascii, hstd, b64StdEncode, a2bBase64_map_std, a2bBase64_encode]

end Lib
