import EighthLayer.Lib.Sha256
import EighthLayer.Lib.Utf8

/-!
# EighthLayer.Lib.Sha256Nat

SHA-256 with its words as natural numbers. It is the same function (`sha256_eq_sha256Nat`), and the
kernel, which computes with numbers and not with machine words, takes a fraction of the time for
it.
-/

namespace Lib

namespace Sha256

/-- `Regs`, as numbers. -/
structure NatRegs where
  a : Nat
  b : Nat
  c : Nat
  d : Nat
  e : Nat
  f : Nat
  g : Nat
  h : Nat

def Regs.nats (s : Regs) : NatRegs :=
  ⟨s.a.toNat, s.b.toNat, s.c.toNat, s.d.toNat, s.e.toNat, s.f.toNat, s.g.toNat, s.h.toNat⟩

/-! ## Words -/

def rotrNat (x n : Nat) : Nat := (x >>> n ||| x <<< (32 - n)) % 2 ^ 32

theorem toNat_rotr (x n : UInt32) (hpos : 0 < n.toNat) (hlt : n.toNat < 32) :
    (rotr x n).toNat = rotrNat x.toNat n.toNat := by
  have hx : x.toNat >>> n.toNat < 2 ^ 32 :=
    Nat.lt_of_le_of_lt (Nat.shiftRight_le _ _) x.toNat_lt
  have hsub : (32 - n).toNat = 32 - n.toNat :=
    UInt32.toNat_sub_of_le _ _ (UInt32.le_iff_toNat_le.mpr (Nat.le_of_lt hlt))
  rw [rotr, UInt32.toNat_or, UInt32.toNat_shiftRight, UInt32.toNat_shiftLeft, hsub,
    Nat.mod_eq_of_lt hlt, Nat.mod_eq_of_lt (by omega : 32 - n.toNat < 32), rotrNat,
    Nat.or_mod_two_pow, Nat.mod_eq_of_lt hx]

/-- `word`, as a number. -/
def wordNat : Bytes → Nat
  | [a, b, c, d] =>
    ((a.toNat <<< 24) % 2 ^ 32) ||| ((b.toNat <<< 16) % 2 ^ 32) ||| ((c.toNat <<< 8) % 2 ^ 32) |||
      d.toNat
  | _ => 0

theorem toNat_word : ∀ bs : Bytes, (word bs).toNat = wordNat bs
  | [a, b, c, d] => by simp [word, wordNat]
  | [] | [_] | [_, _] | [_, _, _] | _ :: _ :: _ :: _ :: _ :: _ => rfl

/-- `wordBytes`, of a number. -/
def wordBytesNat (w : Nat) : Bytes :=
  [UInt8.ofNat (w >>> 24), UInt8.ofNat (w >>> 16), UInt8.ofNat (w >>> 8), UInt8.ofNat w]

theorem wordBytes_eq (w : UInt32) : wordBytes w = wordBytesNat w.toNat := by
  simp [wordBytes, wordBytesNat, ← UInt8.toNat_inj]

/-! ## Blocks -/

/-- `round`, on numbers. -/
def roundNat (s : NatRegs) (k w : Nat) : NatRegs :=
  let t1 := (s.h + (rotrNat s.e 6 ^^^ rotrNat s.e 11 ^^^ rotrNat s.e 25)
    + ((s.e &&& s.f) ^^^ ((2 ^ 32 - 1 - s.e) &&& s.g)) + k + w) % 2 ^ 32
  let t2 := (rotrNat s.a 2 ^^^ rotrNat s.a 13 ^^^ rotrNat s.a 22)
    + ((s.a &&& s.b) ^^^ (s.a &&& s.c) ^^^ (s.b &&& s.c))
  ⟨(t1 + t2) % 2 ^ 32, s.a, s.b, s.c, (s.d + t1) % 2 ^ 32, s.e, s.f, s.g⟩

theorem nats_round (s : Regs) (k w : UInt32) :
    (round s k w).nats = roundNat s.nats k.toNat w.toNat := by
  have hrotr : ∀ (x n : UInt32), 0 < n.toNat → n.toNat < 32 →
      (rotr x n).toNat = rotrNat x.toNat n.toNat := toNat_rotr
  simp only [round, Regs.nats, roundNat, UInt32.toNat_add, UInt32.toNat_xor, UInt32.toNat_and,
    UInt32.toNat_not, hrotr _ 6 (by decide) (by decide), hrotr _ 11 (by decide) (by decide),
    hrotr _ 25 (by decide) (by decide), hrotr _ 2 (by decide) (by decide),
    hrotr _ 13 (by decide) (by decide), hrotr _ 22 (by decide) (by decide), Nat.add_mod_mod,
    Nat.mod_add_mod]
  rfl

/-- `schedule`, on numbers. -/
def scheduleNat : Nat → List Nat → List Nat
  | 0, ws => ws
  | n + 1, ws =>
    let x := ws.getD 14 0
    let y := ws.getD 1 0
    let s0 := rotrNat x 7 ^^^ rotrNat x 18 ^^^ (x >>> 3)
    let s1 := rotrNat y 17 ^^^ rotrNat y 19 ^^^ (y >>> 10)
    scheduleNat n ((s1 + ws.getD 6 0 + s0 + ws.getD 15 0) % 2 ^ 32 :: ws)

theorem map_toNat_schedule (n : Nat) (ws : List UInt32) :
    (schedule n ws).map UInt32.toNat = scheduleNat n (ws.map UInt32.toNat) := by
  induction n generalizing ws with
  | zero => rfl
  | succ n ih =>
      have hget : ∀ i, (ws.getD i 0).toNat = (ws.map UInt32.toNat).getD i 0 := fun i => by
        rw [List.getD_eq_getElem?_getD, List.getD_eq_getElem?_getD, List.getElem?_map]
        cases ws[i]? with
        | none => rfl
        | some w => rfl
      have hrotr : ∀ (x n : UInt32), 0 < n.toNat → n.toNat < 32 →
          (rotr x n).toNat = rotrNat x.toNat n.toNat := toNat_rotr
      rw [schedule, scheduleNat, ih, List.map_cons]
      simp only [UInt32.toNat_add, UInt32.toNat_xor, UInt32.toNat_shiftRight, hget,
        hrotr _ 7 (by decide) (by decide), hrotr _ 18 (by decide) (by decide),
        hrotr _ 17 (by decide) (by decide), hrotr _ 19 (by decide) (by decide), Nat.mod_add_mod]
      rfl

/-- `compress`, on numbers. -/
def compressNat (s : NatRegs) (block : Bytes) : NatRegs :=
  let w := (scheduleNat 48 ((pieces 4 16 block).map wordNat).reverse).reverse
  let t := ((constants.map UInt32.toNat).zip w).foldl (fun r kw => roundNat r kw.1 kw.2) s
  ⟨(s.a + t.a) % 2 ^ 32, (s.b + t.b) % 2 ^ 32, (s.c + t.c) % 2 ^ 32, (s.d + t.d) % 2 ^ 32,
    (s.e + t.e) % 2 ^ 32, (s.f + t.f) % 2 ^ 32, (s.g + t.g) % 2 ^ 32, (s.h + t.h) % 2 ^ 32⟩

theorem nats_compress (s : Regs) (block : Bytes) :
    (compress s block).nats = compressNat s.nats block := by
  have hrounds : ∀ (ks ws : List UInt32) (r : Regs),
      ((ks.zip ws).foldl (fun r kw => round r kw.1 kw.2) r).nats =
        ((ks.map UInt32.toNat).zip (ws.map UInt32.toNat)).foldl
          (fun r kw => roundNat r kw.1 kw.2) r.nats := by
    intro ks
    induction ks with
    | nil => intro ws r; rfl
    | cons k ks ih =>
        intro ws r
        cases ws with
        | nil => rfl
        | cons w ws =>
            rw [List.zip_cons_cons, List.foldl_cons, ih, nats_round]
            rfl
  have hwords : ((schedule 48 ((pieces 4 16 block).map word).reverse).reverse).map UInt32.toNat =
      (scheduleNat 48 ((pieces 4 16 block).map wordNat).reverse).reverse := by
    rw [List.map_reverse, map_toNat_schedule, List.map_reverse, List.map_map]
    have hword : UInt32.toNat ∘ word = wordNat := funext toNat_word
    rw [hword]
  have hsum : ∀ s t : Regs,
      Regs.nats ⟨s.a + t.a, s.b + t.b, s.c + t.c, s.d + t.d, s.e + t.e, s.f + t.f, s.g + t.g,
        s.h + t.h⟩ =
        ⟨(s.nats.a + t.nats.a) % 2 ^ 32, (s.nats.b + t.nats.b) % 2 ^ 32,
          (s.nats.c + t.nats.c) % 2 ^ 32, (s.nats.d + t.nats.d) % 2 ^ 32,
          (s.nats.e + t.nats.e) % 2 ^ 32, (s.nats.f + t.nats.f) % 2 ^ 32,
          (s.nats.g + t.nats.g) % 2 ^ 32, (s.nats.h + t.nats.h) % 2 ^ 32⟩ := fun s t => by
    simp only [Regs.nats, UInt32.toNat_add]
  rw [compressNat, ← hwords, ← hrounds]
  exact hsum s _

end Sha256

/-- `sha256`, with words as numbers. -/
def sha256Nat (m : Bytes) : Bytes :=
  let p := Sha256.pad m
  let t := (Sha256.pieces 64 (p.length / 64) p).foldl Sha256.compressNat Sha256.initial.nats
  [t.a, t.b, t.c, t.d, t.e, t.f, t.g, t.h].flatMap Sha256.wordBytesNat

theorem sha256_eq_sha256Nat (m : Bytes) : sha256 m = sha256Nat m := by
  have hblocks : ∀ (bs : List Bytes) (s : Sha256.Regs),
      (bs.foldl Sha256.compress s).nats = bs.foldl Sha256.compressNat s.nats := by
    intro bs
    induction bs with
    | nil => intro s; rfl
    | cons b bs ih =>
        intro s
        rw [List.foldl_cons, List.foldl_cons, ih, Sha256.nats_compress]
  rw [sha256, sha256Nat, ← hblocks, Sha256.Regs.digest]
  simp only [Sha256.wordBytes_eq, List.flatMap_cons, List.flatMap_nil, List.append_nil,
    List.append_assoc]
  rfl

end Lib
