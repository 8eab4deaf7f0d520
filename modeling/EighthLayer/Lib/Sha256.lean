import EighthLayer.Lib.Bytes

/-!
# EighthLayer.Lib.Sha256

SHA-256 (`hashlib.sha256`) and HMAC-SHA-256 (`hmac.new(..., sha256)`) over byte
lists. Every loop is structural, so a digest of a closed message is a closed
term the kernel can compute.

Nothing here says that SHA-256 is collision-free, which is false of any
function into 32 bytes. A result that needs it names the finitely many messages
that occur and assumes `CollisionFreeOn` of those.
-/

namespace Lib

namespace Sha256

/-- The eight working variables of a block, which are also the chaining value. -/
structure Regs where
  a : UInt32
  b : UInt32
  c : UInt32
  d : UInt32
  e : UInt32
  f : UInt32
  g : UInt32
  h : UInt32
deriving DecidableEq

/-- The initial chaining value. -/
def initial : Regs :=
  ⟨0x6a09e667, 0xbb67ae85, 0x3c6ef372, 0xa54ff53a, 0x510e527f, 0x9b05688c, 0x1f83d9ab, 0x5be0cd19⟩

/-- The sixty-four round constants. -/
def constants : List UInt32 := [
  0x428a2f98, 0x71374491, 0xb5c0fbcf, 0xe9b5dba5, 0x3956c25b, 0x59f111f1, 0x923f82a4, 0xab1c5ed5,
  0xd807aa98, 0x12835b01, 0x243185be, 0x550c7dc3, 0x72be5d74, 0x80deb1fe, 0x9bdc06a7, 0xc19bf174,
  0xe49b69c1, 0xefbe4786, 0x0fc19dc6, 0x240ca1cc, 0x2de92c6f, 0x4a7484aa, 0x5cb0a9dc, 0x76f988da,
  0x983e5152, 0xa831c66d, 0xb00327c8, 0xbf597fc7, 0xc6e00bf3, 0xd5a79147, 0x06ca6351, 0x14292967,
  0x27b70a85, 0x2e1b2138, 0x4d2c6dfc, 0x53380d13, 0x650a7354, 0x766a0abb, 0x81c2c92e, 0x92722c85,
  0xa2bfe8a1, 0xa81a664b, 0xc24b8b70, 0xc76c51a3, 0xd192e819, 0xd6990624, 0xf40e3585, 0x106aa070,
  0x19a4c116, 0x1e376c08, 0x2748774c, 0x34b0bcb5, 0x391c0cb3, 0x4ed8aa4a, 0x5b9cca4f, 0x682e6ff3,
  0x748f82ee, 0x78a5636f, 0x84c87814, 0x8cc70208, 0x90befffa, 0xa4506ceb, 0xbef9a3f7, 0xc67178f2]

/-- Rotation to the right. -/
def rotr (x n : UInt32) : UInt32 := (x >>> n) ||| (x <<< (32 - n))

/-- One round, with the sum of the round constant and the schedule word. -/
def round (s : Regs) (k w : UInt32) : Regs :=
  let t1 := s.h + (rotr s.e 6 ^^^ rotr s.e 11 ^^^ rotr s.e 25)
    + ((s.e &&& s.f) ^^^ (~~~ s.e &&& s.g)) + k + w
  let t2 := (rotr s.a 2 ^^^ rotr s.a 13 ^^^ rotr s.a 22)
    + ((s.a &&& s.b) ^^^ (s.a &&& s.c) ^^^ (s.b &&& s.c))
  ⟨t1 + t2, s.a, s.b, s.c, s.d + t1, s.e, s.f, s.g⟩

/-- Extend the message schedule by `n` words; the newest word stands first. -/
def schedule : Nat → List UInt32 → List UInt32
  | 0, ws => ws
  | n + 1, ws =>
    let x := ws.getD 14 0
    let y := ws.getD 1 0
    let s0 := rotr x 7 ^^^ rotr x 18 ^^^ (x >>> 3)
    let s1 := rotr y 17 ^^^ rotr y 19 ^^^ (y >>> 10)
    schedule n ((s1 + ws.getD 6 0 + s0 + ws.getD 15 0) :: ws)

/-- Four big-endian bytes as a word. -/
def word : Bytes → UInt32
  | [a, b, c, d] =>
    (a.toUInt32 <<< 24) ||| (b.toUInt32 <<< 16) ||| (c.toUInt32 <<< 8) ||| d.toUInt32
  | _ => 0

/-- The first `k` pieces of `n` elements each. -/
def pieces {α : Type} (n : Nat) : Nat → List α → List (List α)
  | 0, _ => []
  | k + 1, xs => xs.take n :: pieces n k (xs.drop n)

/-- Fold one 64-byte block into the chaining value. -/
def compress (s : Regs) (block : Bytes) : Regs :=
  let w := (schedule 48 ((pieces 4 16 block).map word).reverse).reverse
  let t := (constants.zip w).foldl (fun r kw => round r kw.1 kw.2) s
  ⟨s.a + t.a, s.b + t.b, s.c + t.c, s.d + t.d, s.e + t.e, s.f + t.f, s.g + t.g, s.h + t.h⟩

/-- The `k` low bytes of `n`, most significant first. -/
def beBytes : (k n : Nat) → Bytes
  | 0, _ => []
  | k + 1, n => beBytes k (n / 256) ++ [UInt8.ofNat n]

/-- The padded message: a one bit, zeros, and the length in bits. -/
def pad (m : Bytes) : Bytes :=
  m ++ 0x80 :: List.replicate ((119 - m.length % 64) % 64) 0 ++ beBytes 8 (8 * m.length)

/-- A word as four big-endian bytes. -/
def wordBytes (w : UInt32) : Bytes :=
  [(w >>> 24).toUInt8, (w >>> 16).toUInt8, (w >>> 8).toUInt8, w.toUInt8]

/-- The digest a chaining value stands for. -/
def Regs.digest (t : Regs) : Bytes :=
  wordBytes t.a ++ wordBytes t.b ++ wordBytes t.c ++ wordBytes t.d ++
    wordBytes t.e ++ wordBytes t.f ++ wordBytes t.g ++ wordBytes t.h

end Sha256

/-- `hashlib.sha256(m).digest()`. -/
def sha256 (m : Bytes) : Bytes :=
  let p := Sha256.pad m
  ((Sha256.pieces 64 (p.length / 64) p).foldl Sha256.compress Sha256.initial).digest

/-- A digest has thirty-two bytes. -/
@[simp] theorem sha256_length (m : Bytes) : (sha256 m).length = 32 := rfl

set_option maxRecDepth 20000 in
example : hex (sha256 [97, 98, 99]) =
    "ba7816bf8f01cfea414140de5dae2223b00361a396177a9cb410ff61f20015ad".toList := by
  decide +kernel

/-- The HMAC key block: a long key is hashed, a short one padded with zeros. -/
def hmacKey (key : Bytes) : Bytes :=
  let k := if 64 < key.length then sha256 key else key
  k ++ List.replicate (64 - k.length) 0

/-- `hmac.new(key, m, hashlib.sha256).digest()`. -/
def hmacSha256 (key m : Bytes) : Bytes :=
  sha256 ((hmacKey key).map (· ^^^ 0x5c) ++ sha256 ((hmacKey key).map (· ^^^ 0x36) ++ m))

/-- HKDF-SHA256 for one block of output, 32 bytes. -/
def hkdfSha256 (salt ikm info : Bytes) : Bytes := hmacSha256 (hmacSha256 salt ikm) (info ++ [1])

/-! ### Collision freedom, relative to the messages that occur -/

/-- `f` has no two different arguments of the same value among those of `S`. -/
def CollisionFreeOn {α β : Type} (f : α → β) (S : α → Prop) : Prop :=
  ∀ x y, S x → S y → f x = f y → x = y

theorem CollisionFreeOn.mono {α β : Type} {f : α → β} {S T : α → Prop}
    (h : CollisionFreeOn f T) (hsub : ∀ x, S x → T x) : CollisionFreeOn f S :=
  fun x y hx hy => h x y (hsub x hx) (hsub y hy)

/-- Two messages of different images do not collide. -/
theorem collisionFreeOn_pair {α β : Type} {f : α → β} {S : α → Prop} {a b : α} (hne : f a ≠ f b)
    (honly : ∀ x, S x → x = a ∨ x = b) : CollisionFreeOn f S := by
  intro x y hx hy heq
  rcases honly x hx with rfl | rfl <;> rcases honly y hy with rfl | rfl
  · rfl
  · exact absurd heq hne
  · exact absurd heq.symm hne
  · rfl

/-- Lists of the same images are the same. -/
theorem CollisionFreeOn.map_inj {α β : Type} {f : α → β} : ∀ {l m : List α},
    CollisionFreeOn f (fun x => x ∈ l ∨ x ∈ m) → l.map f = m.map f → l = m
  | [], [], _, _ => rfl
  | x :: l, y :: m, hfree, h => by
      obtain ⟨hxy, hrest⟩ := List.cons.inj h
      have hhead : x = y := hfree x y (by simp) (by simp) hxy
      have htail : l = m := CollisionFreeOn.map_inj (hfree.mono fun z hz => by grind) hrest
      rw [hhead, htail]

end Lib
