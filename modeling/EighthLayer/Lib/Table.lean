import Mathlib.Data.List.Nodup
import Mathlib.Data.List.Basic

/-!
# EighthLayer.Lib.Table

A table of rows with a primary key: the rows in the order they were inserted, no two
with one key. An insertion under a key that is taken fails; an update changes rows in
place and leaves every key as it is.
-/

namespace Lib

variable {κ ρ : Type}

/-- Rows, the primary key of each being `key` of it. -/
structure Table (key : ρ → κ) where
  rows : List ρ
  nodup : (rows.map key).Nodup

namespace Table

variable {key : ρ → κ}

@[ext] theorem ext : ∀ {t t' : Table key}, t.rows = t'.rows → t = t'
  | ⟨_, _⟩, ⟨_, _⟩, rfl => rfl

instance [DecidableEq ρ] : DecidableEq (Table key) := fun t t' =>
  decidable_of_iff (t.rows = t'.rows) ⟨Table.ext, fun h => h ▸ rfl⟩

instance : Membership ρ (Table key) := ⟨fun t r => r ∈ t.rows⟩

theorem mem_def {t : Table key} {r : ρ} : r ∈ t ↔ r ∈ t.rows := Iff.rfl

/-- A row is determined by its key. -/
theorem eq_of_key_eq {t : Table key} {r r' : ρ} (hr : r ∈ t) (hr' : r' ∈ t)
    (h : key r = key r') : r = r' :=
  List.inj_on_of_nodup_map t.nodup hr hr' h

/-- The table with no rows. -/
def empty : Table key := ⟨[], List.nodup_nil⟩

@[simp] theorem not_mem_empty (r : ρ) : r ∉ (empty : Table key) := List.not_mem_nil

/-- The table with one row. -/
def single (r : ρ) : Table key := ⟨[r], List.nodup_singleton _⟩

/-! ## Reading a row -/

section Keyed

variable [DecidableEq κ]

/-- The row under a key. -/
def find (t : Table key) (k : κ) : Option ρ := t.rows.find? fun r => key r = k

theorem find_eq_some_iff {t : Table key} {k : κ} {r : ρ} :
    t.find k = some r ↔ r ∈ t ∧ key r = k := by
  constructor
  · intro h
    unfold find at h
    have hk : key r = k := by simpa using List.find?_some h
    exact ⟨List.mem_of_find?_eq_some h, hk⟩
  · rintro ⟨hr, hk⟩
    cases h : t.find k with
    | none =>
        have hnot := List.find?_eq_none.mp h r hr
        exact absurd (decide_eq_true hk) hnot
    | some r' =>
        unfold find at h
        have hk' : key r' = k := by simpa using List.find?_some h
        rw [eq_of_key_eq (List.mem_of_find?_eq_some h) hr (hk'.trans hk.symm)]

theorem find_eq_none_iff {t : Table key} {k : κ} : t.find k = none ↔ ∀ r ∈ t, key r ≠ k := by
  rw [find, List.find?_eq_none]
  simp only [decide_eq_true_eq]
  exact Iff.rfl

theorem find_key {t : Table key} {r : ρ} (h : r ∈ t) : t.find (key r) = some r :=
  find_eq_some_iff.mpr ⟨h, rfl⟩

@[simp] theorem find_empty (k : κ) : (empty : Table key).find k = none := rfl

@[simp] theorem find_single (r : ρ) : (single r : Table key).find (key r) = some r :=
  find_key (mem_def.mpr (List.mem_singleton.mpr rfl))

/-! ## Counting -/

omit [DecidableEq κ] in
theorem countP_pos_iff {t : Table key} {p : ρ → Bool} :
    0 < t.rows.countP p ↔ ∃ r ∈ t, p r = true :=
  List.countP_pos_iff

omit [DecidableEq κ] in
/-- One of several rows: there is another one, under another key. -/
theorem one_lt_countP_iff [DecidableEq ρ] {t : Table key} {p : ρ → Bool} {r : ρ} (hr : r ∈ t)
    (hp : p r = true) : 1 < t.rows.countP p ↔ ∃ r' ∈ t, p r' = true ∧ key r' ≠ key r := by
  have hnodup : t.rows.Nodup := List.Nodup.of_map key t.nodup
  have hcount : t.rows.countP p = (t.rows.erase r).countP p + 1 := by
    rw [(List.perm_cons_erase hr).countP_eq p, List.countP_cons_of_pos hp]
  rw [hcount, Nat.lt_add_left_iff_pos, List.countP_pos_iff]
  constructor
  · rintro ⟨r', hr', hp'⟩
    obtain ⟨hne, hmem⟩ := hnodup.mem_erase_iff.mp hr'
    exact ⟨r', hmem, hp', fun heq => hne (eq_of_key_eq hmem hr heq)⟩
  · rintro ⟨r', hr', hp', hne⟩
    exact ⟨r', hnodup.mem_erase_iff.mpr ⟨fun heq => hne (congrArg key heq), hr'⟩, hp'⟩

/-! ## Inserting -/

/-- `INSERT`: fails when the key is taken. -/
def insert (t : Table key) (r : ρ) : Option (Table key) :=
  if h : key r ∈ t.rows.map key then none
  else some ⟨t.rows ++ [r], by
    rw [List.map_append, List.map_singleton]
    exact List.nodup_append.mpr ⟨t.nodup, List.nodup_singleton _, fun a ha b hb heq =>
      h (List.mem_singleton.mp hb ▸ heq ▸ ha)⟩⟩

@[simp] theorem insert_empty (r : ρ) : (empty : Table key).insert r = some (single r) := rfl

theorem insert_eq_none_iff {t : Table key} {r : ρ} :
    t.insert r = none ↔ ∃ r' ∈ t, key r' = key r := by
  unfold insert
  by_cases h : key r ∈ t.rows.map key
  · rw [dif_pos h]
    exact ⟨fun _ => List.mem_map.mp h, fun _ => rfl⟩
  · rw [dif_neg h]
    exact ⟨nofun, fun hold => absurd (List.mem_map.mpr hold) h⟩

theorem insert_eq_some_iff {t t' : Table key} {r : ρ} :
    t.insert r = some t' ↔ t.find (key r) = none ∧ t'.rows = t.rows ++ [r] := by
  unfold insert
  split
  · rename_i h
    obtain ⟨r', hr', hk⟩ := List.mem_map.mp h
    simp only [reduceCtorEq, false_iff, not_and]
    intro hnone
    exact absurd hk (find_eq_none_iff.mp hnone r' hr')
  · rename_i h
    have hnone : t.find (key r) = none :=
      find_eq_none_iff.mpr fun r' hr' hk => h (List.mem_map.mpr ⟨r', hr', hk⟩)
    simp only [Option.some.injEq, hnone, true_and]
    exact ⟨fun h => h ▸ rfl, fun h => Table.ext h.symm⟩

theorem mem_insert {t t' : Table key} {r : ρ} (h : t.insert r = some t') {x : ρ} :
    x ∈ t' ↔ x ∈ t ∨ x = r := by
  rw [mem_def, (insert_eq_some_iff.mp h).2, List.mem_append, List.mem_singleton]
  exact Iff.rfl

/-- The key of an inserted row was free. -/
theorem find_none_of_insert {t t' : Table key} {r : ρ} (h : t.insert r = some t') :
    t.find (key r) = none := (insert_eq_some_iff.mp h).1

theorem find_insert_self {t t' : Table key} {r : ρ} (h : t.insert r = some t') :
    t'.find (key r) = some r :=
  find_eq_some_iff.mpr ⟨(mem_insert h).mpr (.inr rfl), rfl⟩

theorem find_insert_of_ne {t t' : Table key} {r : ρ} (h : t.insert r = some t') {k : κ}
    (hk : key r ≠ k) : t'.find k = t.find k := by
  unfold find
  rw [(insert_eq_some_iff.mp h).2, List.find?_append]
  simp [hk]

/-- An insertion keeps the rows that are there. -/
theorem find_insert_of_some {t t' : Table key} {r x : ρ} {k : κ} (h : t.insert r = some t')
    (hx : t.find k = some x) : t'.find k = some x := by
  obtain ⟨hmem, hk⟩ := find_eq_some_iff.mp hx
  exact find_eq_some_iff.mpr ⟨(mem_insert h).mpr (.inl hmem), hk⟩

/-- `INSERT OR IGNORE`: a row whose key is taken is dropped. -/
def insertOrIgnore (t : Table key) (r : ρ) : Table key := (t.insert r).getD t

/-- The row that is there stays; a free key gets the new row. -/
theorem find_insertOrIgnore (t : Table key) (r : ρ) (k : κ) :
    (t.insertOrIgnore r).find k = (t.find k).or (if key r = k then some r else none) := by
  unfold insertOrIgnore
  cases h : t.insert r with
  | none =>
      obtain ⟨old, hold, hkey⟩ := insert_eq_none_iff.mp h
      rw [Option.getD_none]
      split
      · next hk =>
          rw [← hk, ← hkey, find_key hold]
          rfl
      · rw [Option.or_none]
  | some t' =>
      rw [Option.getD_some]
      split
      · next hk =>
          subst hk
          rw [find_insert_self h, find_none_of_insert h]
          rfl
      · next hk => rw [find_insert_of_ne h hk, Option.or_none]

theorem mem_insertOrIgnore {t : Table key} {r x : ρ} :
    x ∈ t.insertOrIgnore r ↔ x ∈ t ∨ (x = r ∧ t.find (key r) = none) := by
  unfold insertOrIgnore
  cases h : t.insert r with
  | none =>
      obtain ⟨old, hold, hkey⟩ := insert_eq_none_iff.mp h
      rw [Option.getD_none, or_iff_left]
      rintro ⟨-, hnone⟩
      exact find_eq_none_iff.mp hnone old hold hkey
  | some t' =>
      rw [Option.getD_some, mem_insert h, find_none_of_insert h]
      simp

/-- Wherever a row was to be inserted, there is one of its key. -/
theorem exists_mem_insertOrIgnore (t : Table key) (r : ρ) :
    ∃ x ∈ t.insertOrIgnore r, key x = key r := by
  cases hfind : t.find (key r) with
  | none => exact ⟨r, mem_insertOrIgnore.mpr (.inr ⟨rfl, hfind⟩), rfl⟩
  | some x =>
      obtain ⟨hx, hkey⟩ := find_eq_some_iff.mp hfind
      exact ⟨x, mem_insertOrIgnore.mpr (.inl hx), hkey⟩

theorem insertOrIgnore_eq_self {t : Table key} {r : ρ} (h : (t.find (key r)).isSome) :
    t.insertOrIgnore r = t := by
  obtain ⟨old, hold⟩ := Option.isSome_iff_exists.mp h
  obtain ⟨hmem, hkey⟩ := find_eq_some_iff.mp hold
  rw [insertOrIgnore, insert_eq_none_iff.mpr ⟨old, hmem, hkey⟩, Option.getD_none]

/-- **The first row wins.** After rows are inserted or ignored one after the other, each key
has the row it had, or else the first of the new ones. -/
theorem find_foldl_insertOrIgnore (t : Table key) (rs : List ρ) (k : κ) :
    (rs.foldl insertOrIgnore t).find k = (t.find k).or (rs.find? fun r => key r = k) := by
  induction rs generalizing t with
  | nil => rw [List.foldl_nil, List.find?_nil, Option.or_none]
  | cons r rs ih =>
      rw [List.foldl_cons, ih, find_insertOrIgnore, Option.or_assoc, List.find?_cons]
      by_cases hk : key r = k
      · simp [hk]
      · simp [hk]

theorem mem_foldl_insertOrIgnore {t : Table key} {rs : List ρ} {x : ρ} (h : x ∈ t) :
    x ∈ rs.foldl insertOrIgnore t := by
  induction rs generalizing t with
  | nil => exact h
  | cons r rs ih => exact ih (mem_insertOrIgnore.mpr (.inl h))

theorem of_mem_foldl_insertOrIgnore {t : Table key} {rs : List ρ} {x : ρ}
    (h : x ∈ rs.foldl insertOrIgnore t) : x ∈ t ∨ (x ∈ rs ∧ t.find (key x) = none) := by
  have hfind := find_key h
  rw [find_foldl_insertOrIgnore] at hfind
  cases hold : t.find (key x) with
  | some y =>
      rw [hold, Option.some_or] at hfind
      cases hfind
      exact .inl (find_eq_some_iff.mp hold).1
  | none =>
      rw [hold, Option.none_or] at hfind
      exact .inr ⟨List.mem_of_find?_eq_some hfind, rfl⟩

/-- Rows whose keys are all taken change nothing. -/
theorem foldl_insertOrIgnore_eq_self {t : Table key} {rs : List ρ}
    (h : ∀ r ∈ rs, (t.find (key r)).isSome) : rs.foldl insertOrIgnore t = t := by
  induction rs with
  | nil => rfl
  | cons r rs ih =>
      rw [List.foldl_cons, insertOrIgnore_eq_self (h r (List.mem_cons_self ..))]
      exact ih fun x hx => h x (List.mem_cons_of_mem _ hx)

end Keyed

/-! ## Updating and deleting -/

/-- `UPDATE … WHERE`: `f` on the rows that satisfy `p`. -/
def update (t : Table key) (p : ρ → Bool) (f : ρ → ρ) (hf : ∀ r, key (f r) = key r) : Table key where
  rows := t.rows.map fun r => if p r then f r else r
  nodup := by
    have hkeys : (t.rows.map fun r => if p r then f r else r).map key = t.rows.map key := by
      rw [List.map_map]
      refine List.map_congr_left fun r _ => ?_
      simp only [Function.comp_apply]
      split
      · exact hf r
      · rfl
    rw [hkeys]
    exact t.nodup

section Update

variable {t : Table key} {p : ρ → Bool} {f : ρ → ρ} {hf : ∀ r, key (f r) = key r}

theorem mem_update {x : ρ} :
    x ∈ t.update p f hf ↔ ∃ r ∈ t, (if p r then f r else r) = x := by
  simp [mem_def, update]

theorem find_update [DecidableEq κ] (k : κ) :
    (t.update p f hf).find k = (t.find k).map fun r => if p r then f r else r := by
  cases h : t.find k with
  | none =>
      refine find_eq_none_iff.mpr fun x hx hk => ?_
      obtain ⟨r, hr, rfl⟩ := mem_update.mp hx
      refine find_eq_none_iff.mp h r hr ?_
      rw [← hk]
      split
      · exact (hf r).symm
      · rfl
  | some r =>
      obtain ⟨hr, hk⟩ := find_eq_some_iff.mp h
      refine find_eq_some_iff.mpr ⟨mem_update.mpr ⟨r, hr, rfl⟩, ?_⟩
      dsimp only
      split
      · exact (hf r).trans hk
      · exact hk

@[simp] theorem update_single {r : ρ} (h : p r = true) :
    (single r : Table key).update p f hf = single (f r) := by
  refine Table.ext ?_
  simp [update, single, h]

/-- An update whose condition no row meets changes nothing. -/
theorem update_eq_self (h : ∀ r ∈ t, p r = false) : t.update p f hf = t := by
  refine Table.ext ?_
  refine (List.map_congr_left fun r hr => ?_).trans t.rows.map_id
  rw [h r hr]
  rfl

end Update

/-- `DELETE … WHERE`. -/
def delete (t : Table key) (p : ρ → Bool) : Table key where
  rows := t.rows.filter fun r => !p r
  nodup := (List.filter_sublist.map key).nodup t.nodup

theorem mem_delete {t : Table key} {p : ρ → Bool} {x : ρ} :
    x ∈ t.delete p ↔ x ∈ t ∧ p x = false := by
  simp [mem_def, delete]

@[simp] theorem delete_single {p : ρ → Bool} {r : ρ} (h : p r = true) :
    (single r : Table key).delete p = empty := by
  refine Table.ext ?_
  simp [delete, single, empty, h]

/-- `INSERT … ON CONFLICT DO UPDATE` of all columns. -/
def upsert [DecidableEq κ] (t : Table key) (r : ρ) : Table key :=
  match t.insert r with
  | some t' => t'
  | none => t.update (fun x => key x = key r) (fun x => if key x = key r then r else x) (by
      intro x
      split
      · rename_i h
        exact h.symm
      · rfl)

/-- The row is there, and takes the place of the one that had its key. -/
theorem mem_upsert [DecidableEq κ] {t : Table key} {r x : ρ} :
    x ∈ t.upsert r ↔ x = r ∨ (x ∈ t ∧ key x ≠ key r) := by
  unfold upsert
  cases h : t.insert r with
  | some t' =>
      have hnone := find_eq_none_iff.mp (find_none_of_insert h)
      show x ∈ t' ↔ _
      rw [mem_insert h]
      constructor
      · rintro (hx | rfl)
        · exact .inr ⟨hx, hnone x hx⟩
        · exact .inl rfl
      · rintro (rfl | ⟨hx, -⟩)
        · exact .inr rfl
        · exact .inl hx
  | none =>
      obtain ⟨old, hold, hkey⟩ := insert_eq_none_iff.mp h
      dsimp only
      rw [mem_update]
      constructor
      · rintro ⟨y, hy, rfl⟩
        by_cases hk : key y = key r
        · simp [hk]
        · simp [hk, hy]
      · rintro (rfl | ⟨hx, hk⟩)
        · exact ⟨old, hold, by simp [hkey]⟩
        · exact ⟨x, hx, by simp [hk]⟩

theorem rows_upsert_of_none [DecidableEq κ] {t : Table key} {r : ρ} (h : t.find (key r) = none) :
    (t.upsert r).rows = t.rows ++ [r] := by
  unfold upsert
  split
  · rename_i t' hins
    exact (insert_eq_some_iff.mp hins).2
  · rename_i hnone
    obtain ⟨old, hold, hkey⟩ := insert_eq_none_iff.mp hnone
    exact absurd hkey (find_eq_none_iff.mp h old hold)

theorem rows_upsert_of_some [DecidableEq κ] {t : Table key} {r old : ρ}
    (h : t.find (key r) = some old) :
    (t.upsert r).rows = t.rows.map fun x => if key x = key r then r else x := by
  unfold upsert
  split
  · rename_i t' hins
    cases (find_none_of_insert hins).symm.trans h
  · simp only [update, decide_eq_true_eq]
    refine List.map_congr_left fun x _ => ?_
    split
    · rfl
    · rfl

theorem find_upsert_self [DecidableEq κ] (t : Table key) (r : ρ) :
    (t.upsert r).find (key r) = some r :=
  find_eq_some_iff.mpr ⟨mem_upsert.mpr (.inl rfl), rfl⟩

/-! ## A table as a bag of rows -/

theorem nodup_rows (t : Table key) : t.rows.Nodup := List.Nodup.of_map key t.nodup

/-- A row, and the others. -/
theorem perm_of_find [DecidableEq κ] {t : Table key} {r : ρ} {k : κ} (h : t.find k = some r) :
    t.rows.Perm (r :: (t.delete fun x => key x = k).rows) := by
  obtain ⟨hr, rfl⟩ := find_eq_some_iff.mp h
  have hnodup : (r :: (t.delete fun x => key x = key r).rows).Nodup := by
    refine List.nodup_cons.mpr ⟨fun hmem => ?_, nodup_rows _⟩
    exact of_decide_eq_false (mem_delete.mp hmem).2 rfl
  refine (List.perm_ext_iff_of_nodup t.nodup_rows hnodup).mpr fun x => ?_
  rw [List.mem_cons, ← mem_def, ← mem_def, mem_delete, decide_eq_false_iff_not]
  constructor
  · intro hx
    by_cases hkey : key x = key r
    · exact .inl (eq_of_key_eq hx hr hkey)
    · exact .inr ⟨hx, hkey⟩
  · rintro (rfl | ⟨hx, -⟩)
    · exact hr
    · exact hx

/-- The new row, and the others. -/
theorem perm_upsert [DecidableEq κ] (t : Table key) (r : ρ) :
    (t.upsert r).rows.Perm (r :: (t.delete fun x => key x = key r).rows) := by
  refine (perm_of_find (find_upsert_self t r)).trans (List.Perm.cons r ?_)
  refine (List.perm_ext_iff_of_nodup (nodup_rows _) (nodup_rows _)).mpr fun x => ?_
  rw [← mem_def, ← mem_def, mem_delete, mem_delete, mem_upsert, decide_eq_false_iff_not]
  constructor
  · rintro ⟨rfl | ⟨hx, -⟩, hkey⟩
    · exact absurd rfl hkey
    · exact ⟨hx, hkey⟩
  · rintro ⟨hx, hkey⟩
    exact ⟨.inr ⟨hx, hkey⟩, hkey⟩

theorem countP_delete_le (t : Table key) (p f : ρ → Bool) :
    (t.delete p).rows.countP f ≤ t.rows.countP f :=
  List.Sublist.countP_le List.filter_sublist

end Table

end Lib
