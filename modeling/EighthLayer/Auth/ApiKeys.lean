import EighthLayer.Aigrp.Endpoint
import EighthLayer.Lib.Bytes

/-!
# EighthLayer.Auth.ApiKeys

The texts of API keys (`api_keys.py`): a namespace, a version, the key's id and its secret, with
dots in between.

The id is read by the reader of UUIDs, which takes it in many forms. So a text that is accepted is
the text of the key that it is read as exactly if its id is written in 32 lower-case digits
(`token_codec`).
-/

namespace EighthLayer.Auth

open Lib Aigrp

/-! ## Numbers in base 16 -/

/-- The number that digits of base `b` denote. -/
def ofDigits (b : Nat) (ds : List Nat) : Nat := ds.foldl (fun n d => n * b + d) 0

/-- The last `w` digits of a number. -/
def toDigits (b : Nat) : (w n : Nat) → List Nat
  | 0, _ => []
  | w + 1, n => toDigits b w (n / b) ++ [n % b]

@[simp] theorem length_toDigits (b w n : Nat) : (toDigits b w n).length = w := by
  induction w generalizing n with
  | zero => rfl
  | succ w ih => simp [toDigits, ih]

theorem lt_of_mem_toDigits {b w n d : Nat} (hb : 0 < b) (h : d ∈ toDigits b w n) : d < b := by
  induction w generalizing n with
  | zero => cases h
  | succ w ih =>
      rcases List.mem_append.mp h with hfront | hlast
      · exact ih hfront
      · rw [List.mem_singleton.mp hlast]
        exact Nat.mod_lt _ hb

theorem ofDigits_append (b : Nat) (ds : List Nat) (d : Nat) :
    ofDigits b (ds ++ [d]) = ofDigits b ds * b + d := by
  simp [ofDigits, List.foldl_append]

/-- Digits are read back as the number. -/
theorem ofDigits_toDigits {b w n : Nat} (h : n < b ^ w) : ofDigits b (toDigits b w n) = n := by
  induction w generalizing n with
  | zero =>
      rw [Nat.pow_zero] at h
      rw [Nat.lt_one_iff.mp h]
      rfl
  | succ w ih =>
      have hdiv : n / b < b ^ w := Nat.div_lt_of_lt_mul (by rwa [Nat.pow_succ, Nat.mul_comm] at h)
      rw [toDigits, ofDigits_append, ih hdiv, Nat.div_add_mod']

theorem ofDigits_lt {b : Nat} {ds : List Nat} (h : ∀ d ∈ ds, d < b) :
    ofDigits b ds < b ^ ds.length := by
  induction ds using List.reverseRecOn with
  | nil => exact Nat.one_pos
  | append_singleton ds d ih =>
      have hd := h d (by simp)
      have hlt := ih fun d' hd' => h d' (by simp [hd'])
      rw [ofDigits_append, List.length_append, List.length_singleton, Nat.pow_succ]
      have hmul : (ofDigits b ds + 1) * b ≤ b ^ ds.length * b := Nat.mul_le_mul_right b hlt
      rw [Nat.succ_mul] at hmul
      omega

/-- A number is written as the digits that it is read from. -/
theorem toDigits_ofDigits {b : Nat} {ds : List Nat} (h : ∀ d ∈ ds, d < b) :
    toDigits b ds.length (ofDigits b ds) = ds := by
  induction ds using List.reverseRecOn with
  | nil => rfl
  | append_singleton ds d ih =>
      have hd := h d (by simp)
      have hrest := ih fun d' hd' => h d' (by simp [hd'])
      rw [List.length_append, List.length_singleton, toDigits, ofDigits_append,
        Nat.mul_comm, Nat.mul_add_div (by omega), Nat.div_eq_of_lt hd, Nat.add_zero, hrest,
        Nat.mul_add_mod, Nat.mod_eq_of_lt hd]

/-! ## `int(text, 16)` -/

section Int

variable [Digits]

/-- A character as `int` sees it: spaces and digits outside ASCII are turned into those of ASCII. -/
def asciiForInt (c : Char) : Char :=
  if c.toNat < 127 then c
  else if isSpace c = true then ' '
  else match Digits.value c with
    | some d => if d < 10 then hexDigit d else '?'
    | none => '?'

/-- A run of hexadecimal digits, single underscores between them, and what follows it. -/
def hexRun (underscore : Bool) (acc : Nat) : List Char → Option (Nat × List Char)
  | [] => if underscore = true then none else some (acc, [])
  | c :: s =>
    if c = '_' then if underscore = true then none else hexRun true acc s
    else match hexVal c with
      | some d => hexRun false (acc * 16 + d) s
      | none => if underscore = true then none else some (acc, c :: s)

/-- `0x`, and one underscore after it. -/
def skipHexPrefix : List Char → List Char
  | '0' :: x :: s =>
    if x = 'x' ∨ x = 'X' then match s with
      | '_' :: s => s
      | s => s
    else '0' :: x :: s
  | s => s

/-- The digits of a number, and spaces behind them. -/
def readHexDigits (s : List Char) : Option Nat :=
  match s with
  | [] => none
  | c :: _ =>
    if hexVal c = none then none
    else match hexRun false 0 s with
      | none => none
      | some (n, rest) => if rest.all isAsciiSpace = true then some n else none

/-- `int(text, 16)`; `none` is its `ValueError`. -/
def intBase16 (text : List Char) : Option Int :=
  match (text.map asciiForInt).dropWhile isAsciiSpace with
  | '-' :: s => (readHexDigits (skipHexPrefix s)).map fun n => -Int.ofNat n
  | '+' :: s => (readHexDigits (skipHexPrefix s)).map Int.ofNat
  | s => (readHexDigits (skipHexPrefix s)).map Int.ofNat

/-! ## UUIDs -/

/-- A UUID, by its number. -/
structure Uuid where
  int : Nat
  int_lt : int < 16 ^ 32
deriving DecidableEq

/-- `hex`: 32 lower-case digits. -/
def Uuid.hex (u : Uuid) : List Char := (toDigits 16 32 u.int).map hexDigit

/-- `text.replace(pattern, "")`, in at most as many steps as the text is long. -/
def removeText (pattern : List Char) : Nat → List Char → List Char
  | _, [] => []
  | 0, s => s
  | n + 1, c :: s =>
    if pattern.isPrefixOf (c :: s) then removeText pattern n ((c :: s).drop pattern.length)
    else c :: removeText pattern n s

/-- `text.strip("{}")`. -/
def stripBraces (s : List Char) : List Char :=
  let brace := fun c : Char => c = '\x7b' || c = '\x7d'
  ((s.dropWhile brace).reverse.dropWhile brace).reverse

/-- What is left of the text of a UUID without its prefixes, braces and hyphens. -/
def bareHex (text : List Char) : List Char :=
  let s := removeText "urn:".toList text.length text
  let s := removeText "uuid:".toList s.length s
  (stripBraces s).filter (· ≠ '-')

/-- `uuid.UUID(hex=text)`; `none` is its `ValueError`. -/
def uuidOfHex (text : List Char) : Option Uuid :=
  if (bareHex text).length ≠ 32 then none
  else match intBase16 (bareHex text) with
    | none => none
    | some n => if h : 0 ≤ n ∧ n.toNat < 16 ^ 32 then some ⟨n.toNat, h.2⟩ else none

/-! ## Tokens -/

/-- `_SECRET_ALPHABET`. -/
def secretAlphabet : List Char := "abcdefghijklmnopqrstuvwxyz234567".toList

/-- `_SECRET_LENGTH`. -/
def secretLength : Nat := 52

/-- `generate_secret`, of the 32 bytes that it draws: their bits, and four more that are zero, in
base 32. -/
def generateSecret (raw : Bytes) : String :=
  String.ofList ((toDigits 32 52 (ofDigits 256 (raw.map UInt8.toNat) * 16)).map fun d =>
    secretAlphabet.getD d 'a')

/-- Whether a secret has the form of those that are generated. -/
def IsSecret (secret : List Char) : Prop :=
  secret.length = secretLength ∧ ∀ c ∈ secret, c ∈ secretAlphabet

instance (secret : List Char) : Decidable (IsSecret secret) :=
  @instDecidableAnd _ _ _ (List.decidableBAll (fun c => c ∈ secretAlphabet) secret)

/-- `encode_token`. -/
def encodeToken (keyId : Uuid) (secret : String) : String :=
  String.ofList ("cqa".toList ++ '.' :: ("v1".toList ++ '.' :: (keyId.hex ++ '.' :: secret.toList)))

/-- `decode_token`; `none` is its `ValueError`. -/
def decodeToken (token : String) : Option (Uuid × String) :=
  match token.toList.splitOn '.' with
  | [namespace_, version, keyIdHex, secret] =>
    if namespace_ ≠ "cqa".toList ∨ version ≠ "v1".toList then none
    else if ¬ IsSecret secret then none
    else (uuidOfHex keyIdHex).map fun keyId => (keyId, String.ofList secret)
  | _ => none

end Int

/-! ## Reading back -/

/-- Lower-case digits, 32 of them. -/
def IsLowerHex (text : List Char) : Prop :=
  text.length = 32 ∧ ∀ c ∈ text, c ∈ "0123456789abcdef".toList

instance (text : List Char) : Decidable (IsLowerHex text) :=
  @instDecidableAnd _ _ _ (List.decidableBAll (fun c => c ∈ "0123456789abcdef".toList) text)

/-- What a lower-case digit is not. -/
theorem lowerHex_ne {c x : Char} (h : c ∈ "0123456789abcdef".toList)
    (hx : x ∉ "0123456789abcdef".toList) : c ≠ x := fun heq => hx (heq ▸ h)

theorem removeText_of_not_mem {x : Char} {pattern s : List Char} (hx : x ∉ s) (n : Nat) :
    removeText (x :: pattern) n s = s := by
  induction s generalizing n with
  | nil => cases n <;> rfl
  | cons c s ih =>
      cases n with
      | zero => rfl
      | succ n =>
          have hc : (x == c) = false := beq_eq_false_iff_ne.mpr fun heq => hx (heq ▸ List.mem_cons_self)
          rw [removeText, List.isPrefixOf, hc, Bool.false_and, if_neg (by decide),
            ih fun h => hx (List.mem_cons_of_mem _ h)]

theorem dropWhile_eq_self {p : Char → Bool} {s : List Char} (h : ∀ c ∈ s, p c = false) :
    s.dropWhile p = s := by
  cases s with
  | nil => rfl
  | cons c s => rw [List.dropWhile_cons, h c List.mem_cons_self, if_neg (by decide)]

theorem stripBraces_eq_self {s : List Char}
    (h : ∀ c ∈ s, (c = '\x7b' || c = '\x7d' : Bool) = false) : stripBraces s = s := by
  unfold stripBraces
  dsimp only
  rw [dropWhile_eq_self h, dropWhile_eq_self fun c hc => h c (List.mem_reverse.mp hc),
    List.reverse_reverse]

/-- There is nothing to be left out of lower-case digits. -/
theorem bareHex_lowerHex {text : List Char} (h : ∀ c ∈ text, c ∈ "0123456789abcdef".toList) :
    bareHex text = text := by
  have hu : 'u' ∉ text := fun hmem => absurd (h _ hmem) (by decide)
  have hbrace : ∀ c ∈ text, (c = '\x7b' || c = '\x7d' : Bool) = false := by
    intro c hc
    rw [decide_eq_false (lowerHex_ne (h c hc) (by decide)),
      decide_eq_false (lowerHex_ne (h c hc) (by decide))]
    rfl
  have hhyphen : ∀ c ∈ text, decide (c ≠ '-') = true := fun c hc =>
    decide_eq_true (lowerHex_ne (h c hc) (by decide))
  unfold bareHex
  dsimp only
  have hurn : removeText "urn:".toList text.length text = text := removeText_of_not_mem hu _
  rw [hurn]
  have huuid : removeText "uuid:".toList text.length text = text := removeText_of_not_mem hu _
  rw [huuid, stripBraces_eq_self hbrace, List.filter_eq_self.mpr hhyphen]

/-- The values of lower-case digits. -/
theorem exists_digits {text : List Char} (h : ∀ c ∈ text, c ∈ "0123456789abcdef".toList) :
    ∃ ds : List Nat, (∀ d ∈ ds, d < 16) ∧ text = ds.map hexDigit := by
  have hone : ∀ c ∈ "0123456789abcdef".toList, ∃ d < 16, c = hexDigit d :=
    forall_mem_of_all (by decide)
  induction text with
  | nil => exact ⟨[], fun d hd => absurd hd List.not_mem_nil, rfl⟩
  | cons c text ih =>
      obtain ⟨d, hd, rfl⟩ := hone c (h c List.mem_cons_self)
      obtain ⟨ds, hds, rfl⟩ := ih fun c' hc' => h c' (List.mem_cons_of_mem _ hc')
      refine ⟨d :: ds, fun d' hd' => ?_, rfl⟩
      rcases List.mem_cons.mp hd' with rfl | hd'
      · exact hd
      · exact hds d' hd'

theorem mem_lowerHex_hexDigit {d : Nat} (h : d < 16) : hexDigit d ∈ "0123456789abcdef".toList := by
  have hall : ∀ d < 16, hexDigit d ∈ "0123456789abcdef".toList := by decide
  exact hall d h

theorem hexRun_digits {ds : List Nat} (h : ∀ d ∈ ds, d < 16) (acc : Nat) :
    hexRun false acc (ds.map hexDigit) = some (ds.foldl (fun n d => n * 16 + d) acc, []) := by
  induction ds generalizing acc with
  | nil => rfl
  | cons d ds ih =>
      have hd := h d List.mem_cons_self
      have hne : hexDigit d ≠ '_' := lowerHex_ne (mem_lowerHex_hexDigit hd) (by decide)
      rw [List.map_cons, hexRun, if_neg hne, hexVal_hexDigit hd]
      exact ih (fun d' hd' => h d' (List.mem_cons_of_mem _ hd')) _

theorem isLowerHex_hex (u : Uuid) : IsLowerHex u.hex := by
  refine ⟨by rw [Uuid.hex, List.length_map, length_toDigits], fun c hc => ?_⟩
  obtain ⟨d, hd, rfl⟩ := List.mem_map.mp hc
  exact mem_lowerHex_hexDigit (lt_of_mem_toDigits (by decide) hd)

/-- The text of four parts without dots is split into them. -/
theorem splitOn_token {keyIdHex secret : List Char} (hkeyId : '.' ∉ keyIdHex)
    (hsecret : '.' ∉ secret) :
    ("cqa".toList ++ '.' :: ("v1".toList ++ '.' :: (keyIdHex ++ '.' :: secret))).splitOn '.' =
      ["cqa".toList, "v1".toList, keyIdHex, secret] := by
  rw [List.splitOn_append_cons_self_of_not_mem (by decide),
    List.splitOn_append_cons_self_of_not_mem (by decide),
    List.splitOn_append_cons_self_of_not_mem hkeyId, List.splitOn_eq_singleton hsecret]

theorem encodeToken_eq {keyId : Uuid} {secret : String} :
    (encodeToken keyId secret).toList =
      "cqa".toList ++ '.' :: ("v1".toList ++ '.' :: (keyId.hex ++ '.' :: secret.toList)) :=
  String.toList_ofList

/-- A token is put together of its parts. -/
theorem toList_of_splitOn {token : String} {keyIdHex secret : List Char}
    (h : token.toList.splitOn '.' = ["cqa".toList, "v1".toList, keyIdHex, secret]) :
    token.toList =
      "cqa".toList ++ '.' :: ("v1".toList ++ '.' :: (keyIdHex ++ '.' :: secret)) := by
  have hjoin : List.intercalate ['.'] (token.toList.splitOn '.') = token.toList :=
    List.intercalate_splitOn '.'
  rw [h] at hjoin
  rw [← hjoin]
  simp [List.intercalate]

section Codec

variable [Digits]

/-- Lower-case digits are read as the number that they denote. -/
theorem intBase16_digits {ds : List Nat} (h : ∀ d ∈ ds, d < 16) (hne : ds ≠ []) :
    intBase16 (ds.map hexDigit) = some (Int.ofNat (ofDigits 16 ds)) := by
  have hlower : ∀ c ∈ ds.map hexDigit, c ∈ "0123456789abcdef".toList := by
    intro c hc
    obtain ⟨d, hd, rfl⟩ := List.mem_map.mp hc
    exact mem_lowerHex_hexDigit (h d hd)
  have hascii : (ds.map hexDigit).map asciiForInt = ds.map hexDigit := by
    have hsmall : ∀ c ∈ "0123456789abcdef".toList, c.toNat < 127 := forall_mem_of_all (by decide)
    refine (List.map_congr_left fun c hc => ?_).trans (List.map_id _)
    rw [asciiForInt, if_pos (hsmall c (hlower c hc))]
    rfl
  have hspace : (ds.map hexDigit).dropWhile isAsciiSpace = ds.map hexDigit := by
    have hno : ∀ c ∈ "0123456789abcdef".toList, isAsciiSpace c = false :=
      forall_mem_of_all (by decide)
    exact dropWhile_eq_self fun c hc => hno c (hlower c hc)
  have hread : readHexDigits (ds.map hexDigit) = some (ofDigits 16 ds) := by
    have hrun := hexRun_digits h 0
    cases ds with
    | nil => exact absurd rfl hne
    | cons d ds =>
        rw [List.map_cons] at hrun ⊢
        rw [readHexDigits, hexVal_hexDigit (h d List.mem_cons_self), if_neg (by simp), hrun]
        rfl
  have hstart : skipHexPrefix (ds.map hexDigit) = ds.map hexDigit := by
    unfold skipHexPrefix
    split
    · rename_i x s heq
      have hx := hlower x (by rw [heq]; simp)
      rw [if_neg, heq]
      rintro (hx' | hx')
      · exact lowerHex_ne hx (by decide) hx'
      · exact lowerHex_ne hx (by decide) hx'
    · rfl
  unfold intBase16
  rw [hascii, hspace]
  split
  · rename_i s heq
    exact absurd (hlower '-' (by rw [heq]; simp)) (by decide)
  · rename_i s heq
    exact absurd (hlower '+' (by rw [heq]; simp)) (by decide)
  · rw [hstart, hread]
    rfl

/-- A UUID is read from its 32 digits. -/
theorem uuidOfHex_digits {ds : List Nat} (h : ∀ d ∈ ds, d < 16) (hlength : ds.length = 32) :
    ∃ u, uuidOfHex (ds.map hexDigit) = some u ∧ u.int = ofDigits 16 ds := by
  have hlower : ∀ c ∈ ds.map hexDigit, c ∈ "0123456789abcdef".toList := by
    intro c hc
    obtain ⟨d, hd, rfl⟩ := List.mem_map.mp hc
    exact mem_lowerHex_hexDigit (h d hd)
  have hne : ds ≠ [] := fun hnil => by
    rw [hnil] at hlength
    cases hlength
  have hlt : ofDigits 16 ds < 16 ^ 32 := hlength ▸ ofDigits_lt h
  unfold uuidOfHex
  rw [bareHex_lowerHex hlower, if_neg (by rw [List.length_map, hlength]; decide),
    intBase16_digits h hne]
  dsimp only
  rw [dif_pos ⟨Int.natCast_nonneg _, hlt⟩]
  exact ⟨_, rfl, Int.toNat_natCast _⟩

theorem uuidOfHex_hex (u : Uuid) : uuidOfHex u.hex = some u := by
  obtain ⟨v, hv, hint⟩ := @uuidOfHex_digits _ (toDigits 16 32 u.int)
    (fun d hd => lt_of_mem_toDigits (by decide) hd) (length_toDigits 16 32 u.int)
  rw [ofDigits_toDigits u.int_lt] at hint
  rw [Uuid.hex, hv]
  obtain ⟨n, hn⟩ := u
  obtain ⟨m, hm⟩ := v
  dsimp only at hint
  subst hint
  rfl

/-- 32 lower-case digits are those of the UUID that they are read as. -/
theorem hex_of_uuidOfHex {text : List Char} {u : Uuid} (h : IsLowerHex text)
    (hread : uuidOfHex text = some u) : u.hex = text := by
  obtain ⟨ds, hds, rfl⟩ := exists_digits h.2
  have hlength : ds.length = 32 := by rw [← h.1, List.length_map]
  obtain ⟨v, hv, hint⟩ := uuidOfHex_digits hds hlength
  obtain rfl := Option.some.inj (hv.symm.trans hread)
  rw [Uuid.hex, hint, ← hlength, toDigits_ofDigits hds]

/-! ## Tokens -/

/-- The part of a token that its id is read from. -/
def keyIdPart (token : String) : List Char := (token.toList.splitOn '.').getD 2 []

/-- What an accepted token is made of. -/
theorem decodeToken_eq_some_iff {token : String} {keyId : Uuid} {secret : String} :
    decodeToken token = some (keyId, secret) ↔
      ∃ keyIdHex, token.toList.splitOn '.' =
        ["cqa".toList, "v1".toList, keyIdHex, secret.toList] ∧ IsSecret secret.toList ∧
          uuidOfHex keyIdHex = some keyId := by
  constructor
  · intro h
    unfold decodeToken at h
    split at h
    · rename_i namespace_ version keyIdHex secret' hparts
      split at h
      · cases h
      · rename_i hversion
        split at h
        · cases h
        · rename_i hsecret
          obtain ⟨keyId', hkeyId, heq⟩ := Option.map_eq_some_iff.mp h
          obtain ⟨rfl, rfl⟩ := Prod.mk.inj heq
          rw [not_or, not_not, not_not] at hversion
          obtain ⟨rfl, rfl⟩ := hversion
          have htext : (String.ofList secret').toList = secret' := String.toList_ofList
          exact ⟨keyIdHex, by rw [hparts, htext], htext.symm ▸ not_not.mp hsecret, hkeyId⟩
    · cases h
  · rintro ⟨keyIdHex, hparts, hsecret, hkeyId⟩
    unfold decodeToken
    rw [hparts]
    dsimp only
    rw [if_neg (by simp), if_neg (not_not.mpr hsecret), hkeyId, String.ofList_toList]
    rfl

/-- **Tokens.** A key's token is read back exactly if its secret has the form of those that are
generated. And a token that is accepted is that of the key that it is read as, exactly if its id is
written in 32 lower-case digits. -/
theorem token_codec :
    (∀ (keyId : Uuid) (secret : String),
      decodeToken (encodeToken keyId secret) = some (keyId, secret) ↔ IsSecret secret.toList) ∧
    (∀ raw : Bytes, IsSecret (generateSecret raw).toList) ∧
    ∀ (token : String) (keyId : Uuid) (secret : String),
      decodeToken token = some (keyId, secret) →
        (token = encodeToken keyId secret ↔ IsLowerHex (keyIdPart token)) := by
  refine ⟨fun keyId secret => ⟨fun h => ?_, fun h => ?_⟩, fun raw => ?_, fun token keyId secret h => ?_⟩
  · obtain ⟨_, -, hsecret, -⟩ := decodeToken_eq_some_iff.mp h
    exact hsecret
  · have hdot : '.' ∉ keyId.hex := fun hmem =>
      absurd ((isLowerHex_hex keyId).2 _ hmem) (by decide)
    have hdot' : '.' ∉ secret.toList := fun hmem => absurd (h.2 _ hmem) (by decide)
    refine decodeToken_eq_some_iff.mpr ⟨keyId.hex, ?_, h, uuidOfHex_hex keyId⟩
    rw [encodeToken_eq, splitOn_token hdot hdot']
  · have hall : ∀ d < 32, secretAlphabet.getD d 'a' ∈ secretAlphabet := by decide
    have htext : (generateSecret raw).toList = _ := String.toList_ofList
    rw [htext]
    refine ⟨by rw [List.length_map, length_toDigits]; rfl, fun c hc => ?_⟩
    obtain ⟨d, hd, rfl⟩ := List.mem_map.mp hc
    exact hall d (lt_of_mem_toDigits (by decide) hd)
  · obtain ⟨keyIdHex, hparts, -, hkeyId⟩ := decodeToken_eq_some_iff.mp h
    have hpart : keyIdPart token = keyIdHex := by
      rw [keyIdPart, hparts]
      rfl
    have htext := toList_of_splitOn hparts
    rw [hpart]
    constructor
    · intro heq
      rw [heq, encodeToken_eq] at htext
      simp only [List.append_cancel_left_eq, List.cons.injEq, true_and,
        List.append_cancel_right_eq] at htext
      rw [← htext]
      exact isLowerHex_hex keyId
    · intro hlower
      apply String.toList_injective
      rw [htext, encodeToken_eq, hex_of_uuidOfHex hlower hkeyId]

end Codec

section Sample

local instance keyDigits : Digits := asciiDigits

/-- A token whose id is in upper case. -/
def upperToken : String :=
  "cqa.v1.0123456789ABCDEF0123456789ABCDEF.abcdefghijklmnopqrstuvwxyz234567abcdefghijklmnopqrst"

/-- What its id is read as. -/
def sampleKeyId : Uuid := ⟨0x0123456789ABCDEF0123456789ABCDEF, by decide⟩

/-- Its secret. -/
def sampleSecret : List Char := secretAlphabet ++ secretAlphabet.take 20

theorem toList_sampleSecret : (String.ofList sampleSecret).toList = sampleSecret :=
  String.toList_ofList

theorem isSecret_sample : IsSecret sampleSecret := by decide +kernel

theorem dot_notMem_sample : '.' ∉ sampleSecret := fun hmem =>
  absurd (isSecret_sample.2 _ hmem) (by decide)

theorem upperToken_eq : upperToken =
    String.ofList ("cqa".toList ++ '.' :: ("v1".toList ++ '.' ::
      (("0123456789ABCDEF".toList ++ "0123456789ABCDEF".toList) ++ '.' :: sampleSecret))) := by
  decide +kernel

/-- The token in upper case is accepted, as one that is written differently. -/
theorem upper_token_accepted :
    ∃ keyId secret, decodeToken upperToken = some (keyId, secret) ∧
      upperToken ≠ encodeToken keyId secret := by
  have htext : upperToken.toList = _ := (congrArg String.toList upperToken_eq).trans String.toList_ofList
  refine ⟨sampleKeyId, String.ofList sampleSecret, decodeToken_eq_some_iff.mpr
    ⟨"0123456789ABCDEF".toList ++ "0123456789ABCDEF".toList, ?_, toList_sampleSecret ▸ isSecret_sample,
      by decide +kernel⟩, fun heq => ?_⟩
  · rw [htext, toList_sampleSecret]
    exact splitOn_token (by decide +kernel) dot_notMem_sample
  · have hlist := congrArg String.toList heq
    rw [htext, encodeToken_eq, toList_sampleSecret] at hlist
    simp only [List.append_cancel_left_eq, List.cons.injEq, true_and,
      List.append_cancel_right_eq] at hlist
    exact absurd hlist (by decide +kernel)

/-- The same token in lower case is that of its key. -/
theorem token_codec_sample :
    ∃ keyId secret, decodeToken
        "cqa.v1.0123456789abcdef0123456789abcdef.abcdefghijklmnopqrstuvwxyz234567abcdefghijklmnopqrst"
          = some (keyId, secret) ∧
      "cqa.v1.0123456789abcdef0123456789abcdef.abcdefghijklmnopqrstuvwxyz234567abcdefghijklmnopqrst"
        = encodeToken keyId secret := by
  have htoken :
      "cqa.v1.0123456789abcdef0123456789abcdef.abcdefghijklmnopqrstuvwxyz234567abcdefghijklmnopqrst" =
        encodeToken sampleKeyId (String.ofList sampleSecret) := by
    rw [encodeToken, toList_sampleSecret]
    decide +kernel
  have hdecode := (token_codec.1 sampleKeyId (String.ofList sampleSecret)).mpr
    (toList_sampleSecret ▸ isSecret_sample)
  rw [← htoken] at hdecode
  refine ⟨_, _, hdecode, (token_codec.2.2 _ _ _ hdecode).mpr ?_⟩
  have hdot : '.' ∉ sampleKeyId.hex := fun hmem =>
    absurd ((isLowerHex_hex sampleKeyId).2 _ hmem) (by decide)
  rw [htoken, keyIdPart, encodeToken_eq, toList_sampleSecret, splitOn_token hdot dot_notMem_sample]
  exact isLowerHex_hex sampleKeyId

end Sample

end EighthLayer.Auth
