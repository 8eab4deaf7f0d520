import EighthLayer.Lib.Sha256
import Mathlib.Data.List.Basic

/-!
# EighthLayer.Lib.Merkle

Binary Merkle trees that duplicate the last node of an odd level, over an
arbitrary type of digests and an arbitrary node function.

A root computed this way commits to its leaves only *given their number*:
`root_inj` recovers the leaves from the root of a list of the same length, and
`root_duplicate_last` is the reason the length is needed. Collision freedom is
asked only of the pairs that are hashed on the way (`hashed`).
-/

namespace Lib.Merkle

variable {H : Type}

/-- The two children of each node one level up. -/
def pairs : List H → List (H × H)
  | [] => []
  | [a] => [(a, a)]
  | a :: b :: rest => (a, b) :: pairs rest

/-- Lists of one length with the same pairs are the same. -/
theorem pairs_inj : ∀ {l m : List H}, l.length = m.length → pairs l = pairs m → l = m
  | [], [], _, _ => rfl
  | [a], [b], _, h => by
      simp only [pairs, List.cons.injEq, Prod.mk.injEq, and_true] at h
      rw [h.1]
  | a :: b :: l, c :: d :: m, hlen, h => by
      simp only [pairs, List.cons.injEq, Prod.mk.injEq] at h
      have hrest := pairs_inj (by simpa using hlen) h.2
      rw [h.1.1, h.1.2, hrest]

theorem pairs_length : ∀ l : List H, (pairs l).length = (l.length + 1) / 2
  | [] => by simp [pairs]
  | [_] => by simp [pairs]
  | a :: b :: l => by
      simp only [pairs, List.length_cons, pairs_length l]
      omega

/-- The last node of an odd level is paired with itself. -/
theorem pairs_duplicate_last : ∀ (l : List H) (a : H), l.length % 2 = 0 →
    pairs (l ++ [a, a]) = pairs (l ++ [a])
  | [], _, _ => rfl
  | [_], _, h => by cases h
  | b :: c :: l, a, h => by
      have hl : l.length % 2 = 0 := by
        simp only [List.length_cons] at h
        omega
      simp only [List.cons_append, pairs, pairs_duplicate_last l a hl]

/-- Both children of a node come from the level below. -/
theorem mem_of_mem_pairs : ∀ {l : List H} {p : H × H}, p ∈ pairs l → p.1 ∈ l ∧ p.2 ∈ l
  | [a], p, h => by
      obtain rfl := List.mem_singleton.mp h
      simp
  | a :: b :: l, p, h => by
      rcases List.mem_cons.mp h with rfl | htail
      · simp
      · have hrest := mem_of_mem_pairs htail
        exact ⟨by simp [hrest.1], by simp [hrest.2]⟩

variable (node : H → H → H)

/-- One level up. -/
def level (l : List H) : List H := (pairs l).map fun p => node p.1 p.2

@[simp] theorem level_length (l : List H) : (level node l).length = (l.length + 1) / 2 := by
  rw [level, List.length_map, pairs_length]

/-- Climb until at most one node is left, at most `n` levels. -/
def climb : (n : Nat) → List H → List H
  | 0, l => l
  | n + 1, l => if l.length ≤ 1 then l else climb n (level node l)

/-- The pairs hashed on the way up. -/
def hashed : (n : Nat) → List H → List (H × H)
  | 0, _ => []
  | n + 1, l => if l.length ≤ 1 then [] else pairs l ++ hashed n (level node l)

/-- The root of a list of leaves; the empty list has none. -/
def root (l : List H) : Option H := (climb node l.length l).head?

/-- As many levels as there are leaves are enough. -/
theorem climb_length : ∀ {n : Nat} {l : List H}, 0 < l.length → l.length ≤ n + 1 →
    (climb node n l).length = 1
  | 0, l, hpos, hle => by
      rw [climb]
      omega
  | n + 1, l, hpos, hle => by
      rw [climb]
      split
      · omega
      · exact climb_length (by rw [level_length]; omega) (by rw [level_length]; omega)

theorem root_isSome {l : List H} (h : l ≠ []) : (root node l).isSome := by
  have hpos := List.length_pos_iff.mpr h
  have hone := climb_length node (n := l.length) hpos (by omega)
  obtain ⟨a, ha⟩ := List.length_eq_one_iff.mp hone
  rw [root, ha]
  rfl

/-- One level determines the level below, given its length. -/
theorem level_inj {l m : List H} (hlen : l.length = m.length)
    (hfree : CollisionFreeOn (fun p : H × H => node p.1 p.2) (fun p => p ∈ pairs l ∨ p ∈ pairs m))
    (h : level node l = level node m) : l = m :=
  pairs_inj hlen (hfree.map_inj h)

/-- The top of a climb determines where it began, given the length. -/
theorem climb_inj : ∀ {n : Nat} {l m : List H}, l.length = m.length →
    CollisionFreeOn (fun p : H × H => node p.1 p.2)
      (fun p => p ∈ hashed node n l ∨ p ∈ hashed node n m) →
    climb node n l = climb node n m → l = m
  | 0, l, m, _, _, h => h
  | n + 1, l, m, hlen, hfree, h => by
      by_cases hone : l.length ≤ 1
      · rwa [climb, climb, if_pos hone, if_pos (by omega)] at h
      · have hm : ¬ m.length ≤ 1 := by omega
        rw [climb, climb, if_neg hone, if_neg hm] at h
        rw [hashed, hashed, if_neg hone, if_neg hm] at hfree
        have hlevel : level node l = level node m := by
          refine climb_inj (by rw [level_length, level_length, hlen]) ?_ h
          exact hfree.mono fun p hp => hp.imp (List.mem_append_right _) (List.mem_append_right _)
        refine level_inj node hlen ?_ hlevel
        exact hfree.mono fun p hp => hp.imp (List.mem_append_left _) (List.mem_append_left _)

/-- **Binding.** The root of a list of leaves determines the leaves among the
lists of its length. -/
theorem root_inj {l m : List H} (hlen : l.length = m.length)
    (hfree : CollisionFreeOn (fun p : H × H => node p.1 p.2)
      (fun p => p ∈ hashed node l.length l ∨ p ∈ hashed node m.length m))
    (h : root node l = root node m) : l = m := by
  by_cases hpos : 0 < l.length
  · have hl := climb_length node (n := l.length) hpos (by omega)
    have hm := climb_length node (n := m.length) (l := m) (by omega) (by omega)
    obtain ⟨a, ha⟩ := List.length_eq_one_iff.mp hl
    obtain ⟨b, hb⟩ := List.length_eq_one_iff.mp hm
    rw [root, root, ha, hb] at h
    rw [← hlen] at hb hfree
    refine climb_inj node (n := l.length) hlen hfree ?_
    rw [ha, hb, Option.some.inj h]
  · have hl : l = [] := List.length_eq_zero_iff.mp (by omega)
    have hm : m = [] := List.length_eq_zero_iff.mp (by omega)
    rw [hl, hm]

/-- **Binding, as a reduction.** Two lists of one length and one root are the same, or
two different pairs hashed on the way have the same node. -/
theorem root_inj_or_collision {l m : List H} (hlen : l.length = m.length)
    (h : root node l = root node m) :
    l = m ∨ ∃ p q : H × H, (p ∈ hashed node l.length l ∨ p ∈ hashed node m.length m) ∧
      (q ∈ hashed node l.length l ∨ q ∈ hashed node m.length m) ∧
      p ≠ q ∧ node p.1 p.2 = node q.1 q.2 := by
  by_cases hcol : ∃ p q : H × H, (p ∈ hashed node l.length l ∨ p ∈ hashed node m.length m) ∧
      (q ∈ hashed node l.length l ∨ q ∈ hashed node m.length m) ∧
      p ≠ q ∧ node p.1 p.2 = node q.1 q.2
  · exact .inr hcol
  · refine .inl (root_inj node hlen ?_ h)
    intro p q hp hq hnode
    by_contra hne
    exact hcol ⟨p, q, hp, hq, hne, hnode⟩

/-- The top of a climb from at least two nodes is itself a hashed node. -/
theorem top_hashed : ∀ {n : Nat} {l : List H} {a : H}, 2 ≤ l.length → l.length ≤ n + 1 →
    climb node n l = [a] → ∃ p ∈ hashed node n l, a = node p.1 p.2
  | 0, l, a, hge, hle, _ => by omega
  | n + 1, l, a, hge, hle, h => by
      rw [climb, if_neg (by omega)] at h
      rw [hashed, if_neg (by omega)]
      by_cases htwo : 2 ≤ (level node l).length
      · obtain ⟨p, hp, ha⟩ := top_hashed htwo (by rw [level_length]; omega) h
        exact ⟨p, List.mem_append_right _ hp, ha⟩
      · -- one level up stands the root alone
        have hlen := level_length node l
        have hone : level node l = [a] := by
          cases n with
          | zero => exact h
          | succ n => rwa [climb, if_pos (by omega)] at h
        obtain ⟨p, hp, rfl⟩ : ∃ p ∈ pairs l, node p.1 p.2 = a := by
          have ha : a ∈ level node l := by rw [hone]; exact List.mem_singleton_self a
          exact List.mem_map.mp ha
        exact ⟨p, List.mem_append_left _ hp, rfl⟩

/-- The root of at least two leaves is a hashed node. -/
theorem root_hashed {l : List H} {a : H} (hge : 2 ≤ l.length) (h : root node l = some a) :
    ∃ p ∈ hashed node l.length l, a = node p.1 p.2 := by
  obtain ⟨b, hb⟩ := List.length_eq_one_iff.mp
    (climb_length node (n := l.length) (l := l) (by omega) (by omega))
  rw [root, hb] at h
  obtain rfl := Option.some.inj h
  exact top_hashed node hge (by omega) hb

/-- Climbing further than needed changes nothing. -/
theorem climb_mono : ∀ {n k : Nat} {l : List H}, l.length ≤ n + 1 →
    climb node (n + k) l = climb node n l
  | 0, 0, l, _ => rfl
  | 0, k + 1, l, hle => by rw [Nat.zero_add, climb, climb, if_pos (by omega)]
  | n + 1, k, l, hle => by
      rw [Nat.add_right_comm, climb, climb]
      split
      · rfl
      · exact climb_mono (by rw [level_length]; omega)

/-- **The length is needed.** Repeating the last leaf of an odd number of at
least three leaves leaves the root as it was. -/
theorem root_duplicate_last {l : List H} (a : H) (heven : l.length % 2 = 0) (hne : l ≠ []) :
    root node (l ++ [a, a]) = root node (l ++ [a]) := by
  have hpos := List.length_pos_iff.mpr hne
  have hlevel : level node (l ++ [a, a]) = level node (l ++ [a]) := by
    rw [level, level, pairs_duplicate_last l a heven]
  have hshort : (level node (l ++ [a])).length ≤ l.length + 1 := by
    simp only [level_length, List.length_append, List.length_singleton]
    omega
  have hlong : climb node (l ++ [a, a]).length (l ++ [a, a]) =
      climb node (l.length + 1) (level node (l ++ [a])) := by
    have hlen : (l ++ [a, a]).length = l.length + 1 + 1 := by simp
    rw [hlen, climb, if_neg (by omega), hlevel]
  have hless : climb node (l ++ [a]).length (l ++ [a]) =
      climb node l.length (level node (l ++ [a])) := by
    have hlen : (l ++ [a]).length = l.length + 1 := by simp
    rw [hlen, climb, if_neg (by omega)]
  rw [root, root, hlong, hless, climb_mono node (k := 1) hshort]

end Lib.Merkle
