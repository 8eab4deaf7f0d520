import Mathlib.Data.List.Sort
import Mathlib.Data.Prod.Lex

/-!
# EighthLayer.Lib.Ranking

Lists sorted by a key, the greatest first, as `sorted(…, key=…, reverse=True)` sorts them:
what has the same key stays in order. When the keys of the elements differ, the order in
which they came does not matter.
-/

namespace Lib

variable {α β κ : Type} [LinearOrder κ]

/-- Sorted by a key, the greatest first. -/
def sortDesc (key : α → κ) (l : List α) : List α := l.mergeSort fun a b => decide (key b ≤ key a)

variable {key : α → κ} {l l' : List α}

theorem sortDesc_perm (key : α → κ) (l : List α) : (sortDesc key l).Perm l :=
  List.mergeSort_perm l _

@[simp] theorem mem_sortDesc {a : α} : a ∈ sortDesc key l ↔ a ∈ l := (sortDesc_perm key l).mem_iff

@[simp] theorem sortDesc_nil (key : α → κ) : sortDesc key ([] : List α) = [] :=
  (sortDesc_perm key []).eq_nil

@[simp] theorem sortDesc_singleton (key : α → κ) (a : α) : sortDesc key [a] = [a] :=
  List.perm_singleton.mp (sortDesc_perm key [a])

/-- The keys go down. -/
theorem sortDesc_pairwise (key : α → κ) (l : List α) :
    (sortDesc key l).Pairwise fun a b => key b ≤ key a := by
  have hsorted : (sortDesc key l).Pairwise fun a b => decide (key b ≤ key a) = true :=
    List.pairwise_mergeSort
      (fun a b c hab hbc => by
        have hba := of_decide_eq_true hab
        have hcb := of_decide_eq_true hbc
        exact decide_eq_true (hcb.trans hba))
      (fun a b => by
        rcases le_total (key b) (key a) with h | h
        · simp [h]
        · simp [h]) l
  exact hsorted.imp fun h => of_decide_eq_true h

/-- What has one key stays in order. -/
theorem filter_sortDesc (key : α → κ) (l : List α) (k : κ) :
    (sortDesc key l).filter (fun a => key a = k) = l.filter fun a => key a = k := by
  have hsub : (l.filter fun a => key a = k).Sublist (sortDesc key l) := by
    refine List.sublist_mergeSort ?_ ?_ ?_ List.filter_sublist
    · intro a b c hab hbc
      exact decide_eq_true ((of_decide_eq_true hbc).trans (of_decide_eq_true hab))
    · intro a b
      simpa using le_total (key b) (key a)
    · refine List.pairwise_of_forall_mem_list fun a ha b hb => ?_
      have hka := of_decide_eq_true (List.mem_filter.mp ha).2
      have hkb := of_decide_eq_true (List.mem_filter.mp hb).2
      exact decide_eq_true (hkb.trans hka.symm).le
  have hfilter := hsub.filter fun a => decide (key a = k)
  rw [List.filter_filter] at hfilter
  simp only [Bool.and_self] at hfilter
  exact (hfilter.eq_of_length ((sortDesc_perm key l).filter _).length_eq.symm).symm

/-- What holds of any two elements in their order holds of those with the same key when they are
sorted. -/
theorem pairwise_sortDesc {r : α → α → Prop} (h : l.Pairwise r) :
    (sortDesc key l).Pairwise fun a b => key b ≤ key a ∧ (key a = key b → r a b) := by
  refine (sortDesc_pairwise key l).and (List.pairwise_iff_forall_sublist.mpr ?_)
  intro a b hsub heq
  have hfilter := hsub.filter fun x => decide (key x = key b)
  rw [filter_sortDesc, List.filter_cons_of_pos (by simpa using heq),
    List.filter_cons_of_pos (by simp), List.filter_nil] at hfilter
  exact List.pairwise_iff_forall_sublist.mp h (hfilter.trans List.filter_sublist)

/-- **The first** of the sorted list is the first of those with the greatest key. -/
theorem head?_sortDesc_eq_some_iff {a : α} :
    (sortDesc key l).head? = some a ↔
      (∀ b ∈ l, key b ≤ key a) ∧ l.find? (fun b => key b = key a) = some a := by
  have hfirst : ∀ k, l.find? (fun b => key b = k) = (sortDesc key l).find? fun b => key b = k := by
    intro k
    rw [← List.head?_filter, ← List.head?_filter, filter_sortDesc]
  rw [hfirst]
  have hpairwise := sortDesc_pairwise key l
  have hmem : ∀ b, b ∈ l ↔ b ∈ sortDesc key l := fun b => mem_sortDesc.symm
  simp only [hmem]
  cases hsorted : sortDesc key l with
  | nil => simp
  | cons b rest =>
      rw [hsorted] at hpairwise
      have hrest := (List.pairwise_cons.mp hpairwise).1
      rw [List.head?_cons, List.find?_cons]
      constructor
      · intro h
        cases h
        refine ⟨fun c hc => ?_, by simp⟩
        rcases List.mem_cons.mp hc with rfl | hc
        · exact le_rfl
        · exact hrest c hc
      · rintro ⟨hmax, hfind⟩
        have hle := hmax b List.mem_cons_self
        by_cases heq : key b = key a
        · rw [decide_eq_true heq] at hfind
          exact hfind
        · rw [decide_eq_false heq] at hfind
          have ha := List.mem_of_find?_eq_some hfind
          exact absurd (le_antisymm hle (hrest a ha)) heq

/-- Decorating, sorting and undecorating: the key is computed first. -/
theorem sortDesc_map (f : β → α) (l : List β) :
    sortDesc key (l.map f) = (sortDesc (fun b => key (f b)) l).map f := by
  unfold sortDesc
  rw [List.map_mergeSort]
  intro a _ b _
  rfl

/-- Two orders of the same elements, whose keys all differ, are sorted into one. -/
theorem sortDesc_congr (hperm : l.Perm l')
    (hkey : ∀ a ∈ l, ∀ b ∈ l, key a = key b → a = b) : sortDesc key l = sortDesc key l' := by
  have hsorted : (sortDesc key l).Perm (sortDesc key l') :=
    (sortDesc_perm key l).trans (hperm.trans (sortDesc_perm key l').symm)
  refine hsorted.eq_of_pairwise ?_ (sortDesc_pairwise key l) (sortDesc_pairwise key l')
  intro a b ha hb hba hab
  have ha' := mem_sortDesc.mp ha
  have hb' := hperm.mem_iff.mpr (mem_sortDesc.mp hb)
  exact hkey a ha' b hb' (le_antisymm hab hba)

/-- **Places.** In a list whose keys go up, an element is among the first so many exactly if so
few are before it. -/
theorem mem_take_iff_countP_lt {l : List α} (hsorted : l.Pairwise fun a b => key a < key b)
    {a : α} (ha : a ∈ l) {n : Nat} :
    a ∈ l.take n ↔ l.countP (fun b => key b < key a) < n := by
  induction l generalizing n with
  | nil => cases ha
  | cons b l ih =>
      obtain ⟨hhead, hsorted⟩ := List.pairwise_cons.mp hsorted
      cases n with
      | zero => simp
      | succ n =>
          rw [List.take_succ_cons, List.mem_cons]
          rcases List.mem_cons.mp ha with rfl | ha
          · have hnone : l.countP (fun b => key b < key a) = 0 := by
              refine List.countP_eq_zero.mpr fun b hb => ?_
              simpa using (hhead b hb).le
            simp [hnone]
          · have hlt := hhead a ha
            have hne : a ≠ b := fun h => absurd (h ▸ hlt) (lt_irrefl _)
            rw [List.countP_cons_of_pos (by simpa using hlt), or_iff_right hne, ih hsorted ha,
              Nat.succ_lt_succ_iff]

end Lib
