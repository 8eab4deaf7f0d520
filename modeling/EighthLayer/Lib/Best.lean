import EighthLayer.Lib.Ranking

/-!
# EighthLayer.Lib.Best

The best of some candidates: the first few of them in an order in which a key goes down. Among equal
keys any order will do, as it does where what is sorted comes out of a hash table or the sort is not
stable. So the best are not determined, but their keys are (`Best.keys_eq`), and so is who is among
them, but for ties with the last (`Best.ge`).
-/

namespace Lib

variable {α β κ : Type} [LinearOrder κ]

/-- The first `n` of the candidates, in some order in which the keys go down. -/
def Best (key : α → κ) (n : Nat) (candidates result : List α) : Prop :=
  ∃ sorted : List α, sorted.Perm candidates ∧ sorted.Pairwise (fun a b => key b ≤ key a) ∧
    result = sorted.take n

/-- A sort takes the best. -/
theorem best_sortDesc (key : α → κ) (n : Nat) (l : List α) :
    Best key n l ((sortDesc key l).take n) :=
  ⟨sortDesc key l, sortDesc_perm key l, sortDesc_pairwise key l, rfl⟩

namespace Best

variable {key : α → κ} {n : Nat} {candidates result : List α}

theorem mem (h : Best key n candidates result) {a : α} (ha : a ∈ result) : a ∈ candidates := by
  obtain ⟨sorted, hperm, -, rfl⟩ := h
  exact hperm.mem_iff.mp (List.mem_of_mem_take ha)

theorem length (h : Best key n candidates result) : result.length = min n candidates.length := by
  obtain ⟨sorted, hperm, -, rfl⟩ := h
  rw [List.length_take, hperm.length_eq]

/-- The keys go down. -/
theorem pairwise (h : Best key n candidates result) :
    result.Pairwise fun a b => key b ≤ key a := by
  obtain ⟨sorted, -, hsorted, rfl⟩ := h
  exact hsorted.sublist (List.take_sublist n sorted)

/-- What is left out has no greater key than any that is not. -/
theorem ge (h : Best key n candidates result) {a b : α} (ha : a ∈ candidates) (hout : a ∉ result)
    (hb : b ∈ result) : key a ≤ key b := by
  obtain ⟨sorted, hperm, hsorted, rfl⟩ := h
  rw [← List.take_append_drop n sorted] at hsorted
  have hmem : a ∈ sorted := hperm.mem_iff.mpr ha
  rw [← List.take_append_drop n sorted, List.mem_append] at hmem
  exact (List.pairwise_append.mp hsorted).2.2 b hb a (hmem.resolve_left hout)

/-- Of the same candidates the best are the best, however they are listed. -/
theorem of_perm (h : Best key n candidates result) {candidates' : List α}
    (hperm : candidates.Perm candidates') : Best key n candidates' result := by
  obtain ⟨sorted, hsorted, hpairwise, hresult⟩ := h
  exact ⟨sorted, hsorted.trans hperm, hpairwise, hresult⟩

/-- **The keys of the best are determined** by the keys of the candidates. -/
theorem keys_eq {key' : β → κ} {candidates' result' : List β} (h : Best key n candidates result)
    (h' : Best key' n candidates' result')
    (hperm : (candidates.map key).Perm (candidates'.map key')) :
    result.map key = result'.map key' := by
  obtain ⟨sorted, hsorted, hpairwise, rfl⟩ := h
  obtain ⟨sorted', hsorted', hpairwise', rfl⟩ := h'
  have hkeys : (sorted.map key).Perm (sorted'.map key') :=
    ((hsorted.map key).trans hperm).trans (hsorted'.map key').symm
  have heq : sorted.map key = sorted'.map key' :=
    hkeys.eq_of_pairwise (fun a b _ _ hab hba => le_antisymm hba hab)
      (List.pairwise_map.mpr hpairwise) (List.pairwise_map.mpr hpairwise')
  rw [List.map_take, List.map_take, heq]

/-- Two lists of the best of candidates that stand for one another: what the one has and the other
has not is no better than anything that the other has. -/
theorem le_of_counterpart {ι : Type} {id : α → ι} {id' : β → ι} {key' : β → κ}
    {candidates' result' : List β} (h : Best key n candidates result)
    (h' : Best key' n candidates' result')
    (hcounterpart : ∀ b ∈ candidates', ∃ a ∈ candidates, id a = id' b ∧ key a = key' b) {b : β}
    (hb : b ∈ result') (hout : id' b ∉ result.map id) {a : α} (ha : a ∈ result) :
    key' b ≤ key a := by
  obtain ⟨c, hc, hid, hkey⟩ := hcounterpart b (h'.mem hb)
  have hleft : c ∉ result := fun hmem => hout (hid ▸ List.mem_map_of_mem hmem)
  rw [← hkey]
  exact h.ge hc hleft ha

end Best

end Lib
