import Mathlib.Order.Lattice
import Mathlib.Algebra.Group.Nat.Defs
import Mathlib.Data.List.Basic

/-!
# EighthLayer.Lib.Positional

Numbers written with a fixed number of symbols, the most significant one first. If the symbols are in the
order of the digits that they stand for, the texts are in the order of the numbers (`places_lt_iff`).
-/

namespace Lib

variable {α : Type}

/-! ### Lexicographic order -/

/-- Lists with prefixes of one length compare by the prefix first. -/
theorem append_lt_append_iff [LinearOrder α] : ∀ {a b x y : List α}, a.length = b.length →
    (a ++ x < b ++ y ↔ a < b ∨ (a = b ∧ x < y))
  | [], [], x, y, _ => by simp
  | c :: a, d :: b, x, y, h => by
      have hlen : a.length = b.length := by simpa using h
      simp only [List.cons_append, List.cons_lt_cons_iff, append_lt_append_iff hlen,
        List.cons.injEq]
      grind

/-! ### Places -/

/-- The last `w` places of `n` in base `b`, the digit `d` being written `sym d`. -/
def places (b : Nat) (sym : Nat → α) : (w n : Nat) → List α
  | 0, _ => []
  | w + 1, n => places b sym w (n / b) ++ [sym (n % b)]

variable {b : Nat} {sym : Nat → α}

@[simp] theorem length_places (w n : Nat) : (places b sym w n).length = w := by
  induction w generalizing n with
  | zero => rfl
  | succ w ih => simp [places, ih]

/-- Only symbols of digits stand in a number. -/
theorem mem_places (hb : 0 < b) {c : α} {w n : Nat} (h : c ∈ places b sym w n) : ∃ d < b, sym d = c := by
  induction w generalizing n with
  | zero => exact absurd h List.not_mem_nil
  | succ w ih =>
    rcases List.mem_append.mp h with hhigh | hlow
    · exact ih hhigh
    · exact ⟨n % b, Nat.mod_lt n hb, (List.mem_singleton.mp hlow).symm⟩

/-- Numbers of one width are equal if their texts are. -/
theorem places_inj (hsym : ∀ d < b, ∀ e < b, (sym d = sym e ↔ d = e)) {w m n : Nat} (hm : m < b ^ w)
    (hn : n < b ^ w) : places b sym w m = places b sym w n ↔ m = n := by
  induction w generalizing m n with
  | zero =>
    rw [Nat.pow_zero, Nat.lt_one_iff] at hm hn
    simp [places, hm, hn]
  | succ w ih =>
    have hb : 0 < b := Nat.pos_of_ne_zero fun h => by simp [h] at hm
    have hhigh : ∀ {k : Nat}, k < b ^ (w + 1) → k / b < b ^ w := fun hk =>
      Nat.div_lt_of_lt_mul (by rwa [Nat.pow_succ, Nat.mul_comm] at hk)
    refine ⟨fun h => ?_, fun h => by rw [h]⟩
    obtain ⟨hfront, hlast⟩ := List.append_inj h (by simp)
    have hdiv := (ih (hhigh hm) (hhigh hn)).mp hfront
    have hmod := (hsym _ (Nat.mod_lt m hb) _ (Nat.mod_lt n hb)).mp (List.cons.inj hlast).1
    rw [← Nat.div_add_mod m b, hdiv, hmod, Nat.div_add_mod]

/-- **Numbers of one width** are in the order of their texts. -/
theorem places_lt_iff [LinearOrder α] (hsym : ∀ d < b, ∀ e < b, (sym d < sym e ↔ d < e)) {w m n : Nat}
    (hm : m < b ^ w) (hn : n < b ^ w) : places b sym w m < places b sym w n ↔ m < n := by
  have hinj : ∀ d < b, ∀ e < b, (sym d = sym e ↔ d = e) := by
    intro d hd e he
    have hlt := hsym d hd e he
    have hgt := hsym e he d hd
    refine ⟨fun h => ?_, congrArg sym⟩
    rw [h, lt_self_iff_false, false_iff] at hlt hgt
    omega
  induction w generalizing m n with
  | zero =>
    rw [Nat.pow_zero, Nat.lt_one_iff] at hm hn
    simp [places, hm, hn]
  | succ w ih =>
    have hb : 0 < b := Nat.pos_of_ne_zero fun h => by simp [h] at hm
    have hhigh : ∀ {k : Nat}, k < b ^ (w + 1) → k / b < b ^ w := fun hk =>
      Nat.div_lt_of_lt_mul (by rwa [Nat.pow_succ, Nat.mul_comm] at hk)
    have hfront : (places b sym w (m / b) < places b sym w (n / b)) ↔ m / b < n / b :=
      ih (hhigh hm) (hhigh hn)
    rw [places, places, append_lt_append_iff (by simp), hfront,
      places_inj hinj (hhigh hm) (hhigh hn), List.cons_lt_cons_iff,
      hsym _ (Nat.mod_lt m hb) _ (Nat.mod_lt n hb)]
    simp only [List.lt_irrefl, and_false, or_false]
    constructor
    · rintro (hdiv | ⟨hdiv, hmod⟩)
      · exact lt_of_not_ge fun hle => absurd (Nat.div_le_div_right hle) (Nat.not_le.mpr hdiv)
      · rw [← Nat.div_add_mod m b, ← Nat.div_add_mod n b, hdiv]
        exact Nat.add_lt_add_left hmod _
    · intro h
      rcases Nat.lt_or_eq_of_le (Nat.div_le_div_right (c := b) h.le) with hdiv | hdiv
      · exact .inl hdiv
      · refine .inr ⟨hdiv, ?_⟩
        rw [← Nat.div_add_mod m b, ← Nat.div_add_mod n b, hdiv] at h
        exact Nat.lt_of_add_lt_add_left h

end Lib
