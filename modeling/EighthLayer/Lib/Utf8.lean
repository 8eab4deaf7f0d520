import EighthLayer.Lib.Bytes

/-!
# EighthLayer.Lib.Utf8

Reading bytes as UTF-8 where what is no UTF-8 is replaced, byte by byte, by U+FFFD.

A text that is read from its own UTF-8 is itself; so bytes survive being read and written
exactly when they are the UTF-8 of some text.
-/

namespace Lib

/-- The characters of some bytes, of which there are at most as many as there are bytes. -/
def lossyChars : Nat → Bytes → List Char
  | 0, _ => []
  | _ + 1, [] => []
  | fuel + 1, b :: bs =>
    match (b :: bs).toByteArray.utf8DecodeChar? 0 with
    | some c => c :: lossyChars fuel ((b :: bs).drop c.utf8Size)
    | none => Char.ofNat 0xFFFD :: lossyChars fuel bs

/-- The text that some bytes are read as. -/
def lossyText (b : Bytes) : String := String.ofList (lossyChars b.length b)

theorem utf8_eq_flatMap (s : String) : utf8 s = s.toList.flatMap String.utf8EncodeChar := by
  have hencode : s.toUTF8 = (s.toList.flatMap String.utf8EncodeChar).toByteArray :=
    String.utf8Encode_toList.symm
  rw [utf8, hencode, List.data_toByteArray]

theorem utf8_append (s t : String) : utf8 (s ++ t) = utf8 s ++ utf8 t := by
  rw [utf8_eq_flatMap, utf8_eq_flatMap, utf8_eq_flatMap, String.toList_append,
    List.flatMap_append]

/-- A character is read off the front of its encoding. -/
theorem lossyChars_encode {cs : List Char} {fuel : Nat}
    (h : (cs.flatMap String.utf8EncodeChar).length ≤ fuel) :
    lossyChars fuel (cs.flatMap String.utf8EncodeChar) = cs := by
  induction cs generalizing fuel with
  | nil =>
      cases fuel with
      | zero => rfl
      | succ fuel => rfl
  | cons c cs ih =>
      have hpos := c.utf8Size_pos
      have hlength := String.length_utf8EncodeChar c
      rw [List.flatMap_cons] at h ⊢
      rw [List.length_append, hlength] at h
      obtain ⟨fuel, rfl⟩ := Nat.exists_eq_add_of_le' (show 1 ≤ fuel by omega)
      obtain ⟨b, bs, hbytes⟩ := List.exists_cons_of_ne_nil
        (List.ne_nil_of_length_pos (hlength ▸ hpos : 0 < (String.utf8EncodeChar c).length))
      have hdecode : (String.utf8EncodeChar c ++
          cs.flatMap String.utf8EncodeChar).toByteArray.utf8DecodeChar? 0 = some c := by
        rw [List.toByteArray_append]
        exact ByteArray.utf8DecodeChar?_utf8EncodeChar_append
      have hdrop : (String.utf8EncodeChar c ++ cs.flatMap String.utf8EncodeChar).drop c.utf8Size =
          cs.flatMap String.utf8EncodeChar := by
        rw [← hlength, List.drop_left]
      rw [hbytes, List.cons_append] at hdecode hdrop ⊢
      simp only [lossyChars, hdecode, hdrop]
      rw [ih (by omega)]

/-- **Round trip.** -/
theorem lossyText_utf8 (s : String) : lossyText (utf8 s) = s := by
  rw [lossyText, utf8_eq_flatMap, lossyChars_encode (Nat.le_refl _), String.ofList_toList]

/-- Bytes of which none had to be replaced are the encoding of what they are read as. -/
theorem encode_lossyChars {fuel : Nat} {bs : Bytes} (h : bs.length ≤ fuel)
    (hclean : Char.ofNat 0xFFFD ∉ lossyChars fuel bs) :
    (lossyChars fuel bs).flatMap String.utf8EncodeChar = bs := by
  induction fuel generalizing bs with
  | zero =>
      rw [List.length_eq_zero_iff.mp (Nat.le_zero.mp h)]
      rfl
  | succ fuel ih =>
      cases bs with
      | nil => rfl
      | cons b bs =>
          simp only [lossyChars] at hclean ⊢
          split at hclean
          · rename_i c hdecode
            obtain ⟨rest, hrest⟩ := ByteArray.exists_of_utf8DecodeChar?_eq_some hdecode
            have hbytes : b :: bs = String.utf8EncodeChar c ++ rest.data.toList := by
              have hdata := congrArg (fun a => a.data.toList) hrest
              simpa using hdata
            have hdrop : (b :: bs).drop c.utf8Size = rest.data.toList := by
              rw [hbytes, ← String.length_utf8EncodeChar c, List.drop_left]
            have hpos := c.utf8Size_pos
            have hlength : ((b :: bs).drop c.utf8Size).length ≤ fuel := by
              rw [List.length_drop]
              omega
            rw [List.flatMap_cons, ih hlength fun hmem => hclean (List.mem_cons_of_mem _ hmem),
              hdrop, ← hbytes]
          · exact absurd List.mem_cons_self hclean

/-- The bytes are the UTF-8 of a text. -/
def IsUtf8 (b : Bytes) : Prop := utf8 (lossyText b) = b

instance (b : Bytes) : Decidable (IsUtf8 b) := inferInstanceAs (Decidable (_ = _))

theorem isUtf8_utf8 (s : String) : IsUtf8 (utf8 s) := congrArg utf8 (lossyText_utf8 s)

theorem isUtf8_iff {b : Bytes} : IsUtf8 b ↔ ∃ s, utf8 s = b := by
  constructor
  · intro h
    exact ⟨_, h⟩
  · rintro ⟨s, rfl⟩
    exact isUtf8_utf8 s

/-- Texts that are read from bytes are written as these bytes. -/
theorem map_utf8_iff {ts : List Bytes} :
    (ts.map lossyText).map utf8 = ts ↔ ∀ t ∈ ts, IsUtf8 t := by
  rw [List.map_map]
  conv_lhs => rhs; rw [← List.map_id ts]
  exact List.map_inj_left

/-- A text without U+FFFD is read from its own UTF-8 alone. -/
theorem eq_utf8_of_lossyText {b : Bytes} {s : String} (h : lossyText b = s)
    (hclean : Char.ofNat 0xFFFD ∉ s.toList) : b = utf8 s := by
  have hchars : s.toList = lossyChars b.length b := by
    rw [← h, lossyText, String.toList_ofList]
  rw [hchars] at hclean
  rw [utf8_eq_flatMap, hchars, encode_lossyChars (Nat.le_refl _) hclean]

end Lib
