import Mathlib.Data.List.Nodup

/-!
# EighthLayer.Lib.Dict

Dictionaries that keep the order in which their keys were put in, as lists of pairs: a key that is set
again keeps its place.

All that is said of a dictionary is said by looking its keys up (`lookup_set_self`, `lookup_set_ne`,
`lookup_del_self`); the other equations let the last change of a key stand for all of them.
-/

namespace Lib.Dict

variable {α β : Type} [DecidableEq α]

/-- `d[k] = v`. -/
def set (k : α) (v : β) (d : List (α × β)) : List (α × β) :=
  if (d.lookup k).isSome then d.map fun m => if m.1 = k then (k, v) else m else d ++ [(k, v)]

/-- `del d[k]`, where there is one. -/
def del (k : α) (d : List (α × β)) : List (α × β) := d.filter fun m => m.1 ≠ k

/-! ### Looking up -/

theorem lookup_cons_self (k : α) (v : β) (d : List (α × β)) :
    ((k, v) :: d).lookup k = some v := by
  simp

theorem lookup_cons_ne {k k' : α} (h : k' ≠ k) (v : β) (d : List (α × β)) :
    ((k, v) :: d).lookup k' = d.lookup k' := by
  rw [List.lookup_cons, beq_eq_false_iff_ne.mpr h]

theorem lookup_append_of_none {k : α} {d : List (α × β)} (h : d.lookup k = none)
    (d' : List (α × β)) : (d ++ d').lookup k = d'.lookup k := by
  rw [List.lookup_append, h, Option.none_or]

theorem lookup_eq_none_iff {k : α} {d : List (α × β)} :
    d.lookup k = none ↔ ∀ m ∈ d, m.1 ≠ k := by
  rw [List.lookup_eq_none_iff]
  refine forall₂_congr fun m _ => ?_
  rw [bne_iff_ne, ne_comm]

theorem lookup_map_of_ne {k k' : α} (h : k' ≠ k) (v : β) (d : List (α × β)) :
    (d.map fun m => if m.1 = k then (k, v) else m).lookup k' = d.lookup k' := by
  induction d with
  | nil => rfl
  | cons m d ih =>
      obtain ⟨k₀, w⟩ := m
      rw [List.map_cons]
      by_cases hk : k₀ = k
      · rw [if_pos hk, lookup_cons_ne h, ih, hk, lookup_cons_ne h]
      · rw [if_neg hk, List.lookup_cons, List.lookup_cons, ih]

theorem lookup_map_self {k : α} (v : β) {d : List (α × β)} (h : (d.lookup k).isSome) :
    (d.map fun m => if m.1 = k then (k, v) else m).lookup k = some v := by
  induction d with
  | nil => cases h
  | cons m d ih =>
      obtain ⟨k₀, w⟩ := m
      rw [List.map_cons]
      by_cases hk : k₀ = k
      · rw [if_pos hk, lookup_cons_self]
      · rw [if_neg hk, lookup_cons_ne (Ne.symm hk)]
        rw [lookup_cons_ne (Ne.symm hk)] at h
        exact ih h

@[simp] theorem lookup_set_self (k : α) (v : β) (d : List (α × β)) :
    (set k v d).lookup k = some v := by
  unfold set
  by_cases h : (d.lookup k).isSome
  · rw [if_pos h, lookup_map_self v h]
  · rw [if_neg h, lookup_append_of_none (Option.not_isSome_iff_eq_none.mp h), lookup_cons_self]

@[simp] theorem lookup_set_ne {k k' : α} (h : k' ≠ k) (v : β) (d : List (α × β)) :
    (set k v d).lookup k' = d.lookup k' := by
  unfold set
  split
  · exact lookup_map_of_ne h v d
  · rw [List.lookup_append, lookup_cons_ne h, List.lookup_nil, Option.or_none]

@[simp] theorem lookup_del_self (k : α) (d : List (α × β)) : (del k d).lookup k = none :=
  lookup_eq_none_iff.mpr fun _ hm => of_decide_eq_true (List.mem_filter.mp hm).2

/-! ### Changes of one key -/

/-- A key that is not there is not deleted. -/
theorem del_eq_self {k : α} {d : List (α × β)} (h : d.lookup k = none) : del k d = d :=
  List.filter_eq_self.mpr fun m hm => decide_eq_true (lookup_eq_none_iff.mp h m hm)

theorem set_ne_nil (k : α) (v : β) (d : List (α × β)) : set k v d ≠ [] := by
  intro h
  have hlookup := lookup_set_self k v d
  rw [h] at hlookup
  cases hlookup

@[simp] theorem set_set (k : α) (v w : β) (d : List (α × β)) : set k w (set k v d) = set k w d := by
  have hsome : ((set k v d).lookup k).isSome := by rw [lookup_set_self]; rfl
  rw [set, if_pos hsome]
  unfold set
  by_cases h : (d.lookup k).isSome
  · rw [if_pos h, if_pos h, List.map_map]
    refine List.map_congr_left fun m _ => ?_
    by_cases hm : m.1 = k
    · simp [hm]
    · simp [hm]
  · have hnone := lookup_eq_none_iff.mp (Option.not_isSome_iff_eq_none.mp h)
    rw [if_neg h, if_neg h, List.map_append]
    congr 1
    · refine List.map_congr_left (g := id) (fun m hm => if_neg (hnone m hm)) |>.trans (List.map_id d)
    · simp

@[simp] theorem del_set (k : α) (v : β) (d : List (α × β)) : del k (set k v d) = del k d := by
  have hfilter : ∀ d : List (α × β),
      del k (d.map fun m => if m.1 = k then (k, v) else m) = del k d := by
    intro d
    unfold del
    induction d with
    | nil => rfl
    | cons m d ih =>
        rw [List.map_cons]
        by_cases hm : m.1 = k
        · simpa [hm] using ih
        · simpa [hm] using ih
  unfold set
  split
  · exact hfilter d
  · simp [del]

/-- What is the value of a key everywhere is not changed by setting it. -/
theorem set_eq_self {k : α} {v : β} {d : List (α × β)} (h : d.lookup k = some v)
    (hall : ∀ m ∈ d, m.1 = k → m.2 = v) : set k v d = d := by
  have hsome : (d.lookup k).isSome := by rw [h]; rfl
  rw [set, if_pos hsome]
  refine (List.map_congr_left fun m hm => ?_).trans (List.map_id d)
  by_cases hk : m.1 = k
  · rw [if_pos hk, id_eq, ← hk, ← hall m hm hk]
  · rw [if_neg hk, id_eq]

/-- Another key is set without regard to it. -/
theorem set_of_set_eq_self {k k' : α} (hne : k' ≠ k) {v w : β} {d : List (α × β)}
    (h : set k v d = d) : set k v (set k' w d) = set k' w d := by
  have hlookup : d.lookup k = some v := by rw [← h, lookup_set_self]
  have hsome : (d.lookup k).isSome := by rw [hlookup]; rfl
  have hsome' : ((set k' w d).lookup k).isSome := by
    rw [lookup_set_ne (Ne.symm hne), hlookup]
    rfl
  have hmap : (d.map fun m => if m.1 = k then (k, v) else m) = d := by
    rw [set, if_pos hsome] at h
    exact h
  rw [set, if_pos hsome']
  unfold set
  split
  · rw [List.map_map]
    conv_rhs => rw [← hmap, List.map_map]
    refine List.map_congr_left fun m _ => ?_
    by_cases hm : m.1 = k'
    · simp [hm, hne]
    · by_cases hm' : m.1 = k
      · simp [hm', hne.symm]
      · simp [hm, hm']
  · rw [List.map_append, hmap]
    simp [hne]

theorem keys_set_of_isSome {k : α} {v : β} {d : List (α × β)} (h : (d.lookup k).isSome) :
    (set k v d).map Prod.fst = d.map Prod.fst := by
  rw [set, if_pos h, List.map_map]
  refine List.map_congr_left fun m _ => ?_
  by_cases hm : m.1 = k
  · simp [hm]
  · simp [hm]

/-- No key is put in twice. -/
theorem nodup_set {k : α} {v : β} {d : List (α × β)} (h : (d.map Prod.fst).Nodup) :
    ((set k v d).map Prod.fst).Nodup := by
  by_cases hk : (d.lookup k).isSome
  · rwa [keys_set_of_isSome hk]
  · have hnone := lookup_eq_none_iff.mp (Option.not_isSome_iff_eq_none.mp hk)
    rw [set, if_neg hk, List.map_append]
    refine List.Nodup.append h (List.nodup_singleton k) ?_
    intro a ha hak
    obtain ⟨m, hm, rfl⟩ := List.mem_map.mp ha
    exact hnone m hm (List.mem_singleton.mp hak)

theorem set_eq_self_of_mem {k : α} {v : β} {d : List (α × β)} (hd : (d.map Prod.fst).Nodup)
    (h : (k, v) ∈ d) : set k v d = d := by
  have hall : ∀ m ∈ d, m.1 = k → m.2 = v := by
    intro m hm hk
    exact congrArg Prod.snd (List.inj_on_of_nodup_map hd hm h hk)
  refine set_eq_self ?_ hall
  cases hlookup : d.lookup k with
  | none => exact absurd rfl (lookup_eq_none_iff.mp hlookup _ h)
  | some w =>
      obtain ⟨before, after, rfl, -⟩ := List.lookup_eq_some_iff.mp hlookup
      have hw : w = v := hall (k, w) (List.mem_append_right _ List.mem_cons_self) rfl
      rw [hw]

theorem set_inj {k : α} {v w : β} {d : List (α × β)} (h : set k v d = set k w d) : v = w := by
  have hlookup := congrArg (List.lookup k) h
  rw [lookup_set_self, lookup_set_self] at hlookup
  exact Option.some.inj hlookup

/-- A key that is set is not one that is deleted. -/
theorem set_ne_del (k : α) (v : β) (d d' : List (α × β)) : set k v d ≠ del k d' := by
  intro h
  have hlookup := congrArg (List.lookup k) h
  rw [lookup_set_self, lookup_del_self] at hlookup
  cases hlookup

end Lib.Dict
