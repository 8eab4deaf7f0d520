import EighthLayer.Lib.Ranking
import Mathlib.Data.List.Nodup
import Mathlib.Data.List.Perm.Subperm

/-!
# EighthLayer.Lib.Keyset

Reading rows page by page, the greatest key first, each page below the last key of the one before.

Rows may come in between two pages. Whatever comes, the pages go down, and what was there at the
start is read once; where all that comes has greater keys, nothing else is read, and the pages
come to an end.
-/

namespace Lib

variable {α κ : Type} [LinearOrder κ]

/-- Whether a key is below a cursor. -/
def Below (cursor : Option κ) (k : κ) : Prop := ∀ c, cursor = some c → k < c

instance (cursor : Option κ) (k : κ) : Decidable (Below cursor k) :=
  match cursor with
  | none => isTrue fun _ h => nomatch h
  | some c => decidable_of_iff (k < c) ⟨fun h _ heq => Option.some.inj heq ▸ h, fun h => h c rfl⟩

@[simp] theorem below_none (k : κ) : Below none k := fun _ h => nomatch h

@[simp] theorem below_some {c k : κ} : Below (some c) k ↔ k < c :=
  ⟨fun h => h c rfl, fun h _ heq => Option.some.inj heq ▸ h⟩

variable (key : α → κ)

/-- The rows of a page: at most `limit` of those below the cursor, the greatest first. -/
def keysetPage (limit : Nat) (cursor : Option κ) (rows : List α) : List α :=
  (sortDesc key (rows.filter fun a => Below cursor (key a))).take limit

/-- The cursor of the next page: the last key of a full page. -/
def nextCursor (limit : Nat) (page : List α) : Option κ :=
  if page.length = limit then page.getLast?.map key else none

/-- The rows of at most `n` pages, read of the tables from the `i`-th on, and whether the last of
them had no next cursor. -/
def keysetWalk (limit : Nat) (rows : Nat → List α) :
    (n i : Nat) → (cursor : Option κ) → List α × Bool
  | 0, _, _ => ([], false)
  | n + 1, i, cursor =>
    let page := keysetPage key limit cursor (rows i)
    match nextCursor key limit page with
    | none => (page, true)
    | some c =>
      let rest := keysetWalk limit rows n (i + 1) (some c)
      (page ++ rest.1, rest.2)

variable {key} {limit : Nat} {cursor : Option κ}

/-! ## One page -/

section Page

variable {rows : List α}

theorem mem_of_mem_keysetPage {a : α} (h : a ∈ keysetPage key limit cursor rows) :
    a ∈ rows ∧ Below cursor (key a) := by
  have hmem := mem_sortDesc.mp (List.mem_of_mem_take h)
  exact ⟨(List.mem_filter.mp hmem).1, of_decide_eq_true (List.mem_filter.mp hmem).2⟩

/-- The keys of a page go down. -/
theorem keysetPage_pairwise (limit : Nat) (cursor : Option κ) (hkeys : (rows.map key).Nodup) :
    (keysetPage key limit cursor rows).Pairwise fun a b => key b < key a := by
  have hsorted := sortDesc_pairwise key (rows.filter fun a => Below cursor (key a))
  have hnodup : ((sortDesc key (rows.filter fun a => Below cursor (key a))).map key).Nodup :=
    ((sortDesc_perm key _).map key).nodup_iff.mpr
      (hkeys.sublist (List.filter_sublist.map key))
  have hne := List.pairwise_map.mp hnodup
  refine ((hsorted.and hne).imp fun h => ?_).sublist (List.take_sublist _ _)
  exact lt_of_le_of_ne h.1 h.2.symm

/-- What is below the cursor and not on the page is below all of the page, which is full. -/
theorem mem_keysetPage_or (limit : Nat) {a : α} (ha : a ∈ rows) (hbelow : Below cursor (key a)) :
    a ∈ keysetPage key limit cursor rows ∨
      ((keysetPage key limit cursor rows).length = limit ∧
        ∀ b ∈ keysetPage key limit cursor rows, key a ≤ key b) := by
  have hsorted := sortDesc_pairwise key (rows.filter fun a => Below cursor (key a))
  have hmem : a ∈ sortDesc key (rows.filter fun a => Below cursor (key a)) :=
    mem_sortDesc.mpr (List.mem_filter.mpr ⟨ha, decide_eq_true hbelow⟩)
  unfold keysetPage
  generalize sortDesc key (rows.filter fun a => Below cursor (key a)) = sorted at hsorted hmem
  rw [← List.take_append_drop limit sorted] at hsorted hmem
  rcases List.mem_append.mp hmem with htake | hdrop
  · exact .inl htake
  · have hlength := List.length_pos_of_mem hdrop
    rw [List.length_drop] at hlength
    exact .inr ⟨List.length_take_of_le (by omega), fun b hb =>
      (List.pairwise_append.mp hsorted).2.2 b hb a hdrop⟩

/-- The cursor after a page is a key of it, and the least. -/
theorem nextCursor_eq_some {page : List α} {c : κ} (h : nextCursor key limit page = some c)
    (hdown : page.Pairwise fun a b => key b < key a) :
    page.length = limit ∧ (∃ b ∈ page, key b = c) ∧ ∀ a ∈ page, c ≤ key a := by
  unfold nextCursor at h
  split at h
  · rename_i hlength
    obtain ⟨b, hb, rfl⟩ := Option.map_eq_some_iff.mp h
    obtain ⟨front, rfl⟩ := List.getLast?_eq_some_iff.mp hb
    refine ⟨hlength, ⟨b, by simp, rfl⟩, fun a ha => ?_⟩
    rcases List.mem_append.mp ha with hfront | hlast
    · exact ((List.pairwise_append.mp hdown).2.2 a hfront b List.mem_cons_self).le
    · rw [List.mem_singleton.mp hlast]
  · cases h

omit [LinearOrder κ] in
theorem nextCursor_eq_none {page : List α} (hlimit : 0 < limit) :
    nextCursor key limit page = none ↔ page.length ≠ limit := by
  unfold nextCursor
  split
  · rename_i hlength
    have hne : page ≠ [] := List.ne_nil_of_length_pos (by omega)
    simp [hlength, List.getLast?_eq_getLast_of_ne_nil hne]
  · rename_i hlength
    simp [hlength]

end Page

/-! ## All pages -/

section Walk

variable {rows : Nat → List α}

theorem keysetWalk_below {n i : Nat} {a : α} (ha : a ∈ (keysetWalk key limit rows n i cursor).1)
    (hkeys : ∀ i, ((rows i).map key).Nodup) : Below cursor (key a) := by
  induction n generalizing i cursor with
  | zero => cases ha
  | succ n ih =>
      unfold keysetWalk at ha
      dsimp only at ha
      split at ha
      · exact (mem_of_mem_keysetPage ha).2
      · rename_i c hnext
        rcases List.mem_append.mp ha with hpage | hrest
        · exact (mem_of_mem_keysetPage hpage).2
        · obtain ⟨-, ⟨b, hb, rfl⟩, -⟩ := nextCursor_eq_some hnext (keysetPage_pairwise limit _ (hkeys i))
          have hlt := below_some.mp (ih hrest)
          exact fun c hc => hlt.trans ((mem_of_mem_keysetPage hb).2 c hc)

/-- **The pages go down.** -/
theorem keysetWalk_pairwise (hkeys : ∀ i, ((rows i).map key).Nodup) (limit n i : Nat)
    (cursor : Option κ) :
    (keysetWalk key limit rows n i cursor).1.Pairwise fun a b => key b < key a := by
  induction n generalizing i cursor with
  | zero => exact .nil
  | succ n ih =>
      have hpage := keysetPage_pairwise limit cursor (hkeys i)
      unfold keysetWalk
      dsimp only
      split
      · exact hpage
      · rename_i c hnext
        refine List.pairwise_append.mpr ⟨hpage, ih (i + 1) (some c), fun a ha b hb => ?_⟩
        have hlt := below_some.mp (keysetWalk_below hb hkeys)
        exact hlt.trans_le ((nextCursor_eq_some hnext hpage).2.2 a ha)

/-- **Once.** What was there at the start, below the cursor, is read if the pages come to an end. -/
theorem mem_keysetWalk (hlimit : 0 < limit) (hkeys : ∀ i, ((rows i).map key).Nodup)
    (hgrows : ∀ i, ∀ a ∈ rows i, a ∈ rows (i + 1)) {n i : Nat}
    (hend : (keysetWalk key limit rows n i cursor).2 = true) {a : α} (ha : a ∈ rows i)
    (hbelow : Below cursor (key a)) : a ∈ (keysetWalk key limit rows n i cursor).1 := by
  induction n generalizing i cursor with
  | zero => cases hend
  | succ n ih =>
      unfold keysetWalk at hend ⊢
      dsimp only at hend ⊢
      rcases mem_keysetPage_or limit ha hbelow with hpage | ⟨hfull, hleast⟩
      · split
        · exact hpage
        · exact List.mem_append_left _ hpage
      · split at hend
        · rename_i hnext
          exact absurd hfull ((nextCursor_eq_none hlimit).mp hnext)
        · rename_i c hnext
          obtain ⟨-, ⟨b, hb, rfl⟩, -⟩ := nextCursor_eq_some hnext (keysetPage_pairwise limit _ (hkeys i))
          by_cases heq : key a = key b
          · have hab := List.inj_on_of_nodup_map (hkeys i) ha (mem_of_mem_keysetPage hb).1 heq
            rw [hab]
            exact List.mem_append_left _ hb
          · exact List.mem_append_right _ (ih hend (hgrows i a ha)
              (below_some.mpr (lt_of_le_of_ne (hleast b hb) heq)))

/-- The pages are full for as long as they do not come to an end. -/
theorem length_keysetWalk {n i : Nat} (h : (keysetWalk key limit rows n i cursor).2 = false)
    (hkeys : ∀ i, ((rows i).map key).Nodup) :
    (keysetWalk key limit rows n i cursor).1.length = n * limit := by
  induction n generalizing i cursor with
  | zero => simp [keysetWalk]
  | succ n ih =>
      unfold keysetWalk at h ⊢
      dsimp only at h ⊢
      split at h
      · cases h
      · rename_i c hnext
        rw [List.length_append, (nextCursor_eq_some hnext (keysetPage_pairwise limit _ (hkeys i))).1, ih h,
          Nat.succ_mul, Nat.add_comm]

/-- Where only greater keys come in, nothing is read but what was there at the start. -/
theorem mem_of_mem_keysetWalk (hkeys : ∀ i, ((rows i).map key).Nodup)
    (hnewer : ∀ i, ∀ a ∈ rows (i + 1), a ∈ rows i ∨ ∀ b ∈ rows i, key b < key a) {n i : Nat} {a : α}
    (ha : a ∈ (keysetWalk key limit rows n i cursor).1) : a ∈ rows i := by
  induction n generalizing i cursor with
  | zero => cases ha
  | succ n ih =>
      unfold keysetWalk at ha
      dsimp only at ha
      split at ha
      · exact (mem_of_mem_keysetPage ha).1
      · rename_i c hnext
        rcases List.mem_append.mp ha with hpage | hrest
        · exact (mem_of_mem_keysetPage hpage).1
        · obtain ⟨-, ⟨b, hb, rfl⟩, -⟩ := nextCursor_eq_some hnext (keysetPage_pairwise limit _ (hkeys i))
          rcases hnewer i a (ih hrest) with hold | hnew
          · exact hold
          · have hlt := below_some.mp (keysetWalk_below hrest hkeys)
            exact absurd (hnew b (mem_of_mem_keysetPage hb).1) (lt_asymm hlt)

omit [LinearOrder κ] in
theorem mem_rows_add (hgrows : ∀ i, ∀ a ∈ rows i, a ∈ rows (i + 1)) {i : Nat} {a : α}
    (h : a ∈ rows i) (m : Nat) : a ∈ rows (i + m) := by
  induction m with
  | zero => exact h
  | succ m ih => exact hgrows _ a ih

/-- Whatever comes in, what is read is there once the pages have been read. -/
theorem mem_of_mem_keysetWalk_of_grows (hgrows : ∀ i, ∀ a ∈ rows i, a ∈ rows (i + 1)) {n i : Nat}
    {a : α} (ha : a ∈ (keysetWalk key limit rows n i cursor).1) : a ∈ rows (i + n) := by
  induction n generalizing i cursor with
  | zero => cases ha
  | succ n ih =>
      unfold keysetWalk at ha
      dsimp only at ha
      split at ha
      · exact mem_rows_add hgrows (mem_of_mem_keysetPage ha).1 _
      · rcases List.mem_append.mp ha with hpage | hrest
        · exact mem_rows_add hgrows (mem_of_mem_keysetPage hpage).1 _
        · have hmem := ih hrest
          rwa [Nat.add_right_comm, Nat.add_assoc] at hmem

/-- **The end.** Pages that could hold more rows than they are read from come to an end. -/
theorem keysetWalk_ends (hkeys : ∀ i, ((rows i).map key).Nodup) {n i : Nat} {among : List α}
    (hamong : ∀ a ∈ (keysetWalk key limit rows n i cursor).1, a ∈ among)
    (hn : among.length < n * limit) : (keysetWalk key limit rows n i cursor).2 = true := by
  refine Bool.eq_true_of_not_eq_false fun hmore => ?_
  have hlength := length_keysetWalk hmore hkeys
  have hnodup : (keysetWalk key limit rows n i cursor).1.Nodup :=
    (keysetWalk_pairwise hkeys limit n i cursor).imp fun hlt heq => absurd (heq ▸ hlt) (lt_irrefl _)
  have hle := (List.subperm_of_subset hnodup hamong).length_le
  omega

end Walk

end Lib
