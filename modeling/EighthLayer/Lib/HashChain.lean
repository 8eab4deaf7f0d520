import EighthLayer.Lib.Sha256
import Mathlib.Data.List.Chain
import Mathlib.Data.List.NodupEquivFin

/-!
# EighthLayer.Lib.HashChain

Append-only logs in which every entry names the hash of the entry before it and
the first one names a fixed genesis value.

`Linked` is what a writer maintains, `Follows` along a list is what a reader
checks. Over hashes that do not collide among the entries at hand:

* a linked log is one unforked chain (`Linked.unforked`);
* its order can be recovered from its entries (`Linked.eq_of_perm`);
* a list that only *ends* like it is a final segment of it
  (`isSuffix_of_same_last`).
-/

namespace Lib.HashChain

variable {E H : Type} (prev hash : E → H)

/-- `y` names `x` as its predecessor. -/
def Follows (x y : E) : Prop := prev y = hash x

instance [DecidableEq H] (x y : E) : Decidable (Follows prev hash x y) :=
  inferInstanceAs (Decidable (prev y = hash x))

/-- The entries form a chain that continues from the hash `g`. -/
def Linked : (g : H) → List E → Prop
  | _, [] => True
  | g, e :: es => prev e = g ∧ Linked (hash e) es

/-- The hash of the last entry, or `g` when there is none. -/
def tip : (g : H) → List E → H
  | g, [] => g
  | _, e :: es => tip (hash e) es

variable {prev hash}

@[simp] theorem tip_append (g : H) (xs ys : List E) :
    tip hash g (xs ++ ys) = tip hash (tip hash g xs) ys := by
  induction xs generalizing g with
  | nil => rfl
  | cons x xs ih => exact ih (hash x)

theorem tip_eq_getLast? (g : H) : ∀ l : List E, tip hash g l = (l.getLast?.map hash).getD g
  | [] => rfl
  | [_] => rfl
  | x :: y :: l => by
      rw [List.getLast?_cons_cons]
      exact (tip_eq_getLast? (hash x) (y :: l)).trans (by cases h : (y :: l).getLast? <;> simp_all)

theorem linked_append {g : H} {xs ys : List E} :
    Linked prev hash g (xs ++ ys) ↔ Linked prev hash g xs ∧ Linked prev hash (tip hash g xs) ys := by
  induction xs generalizing g with
  | nil => simp [Linked, tip]
  | cons x xs ih => simp only [List.cons_append, Linked, tip, ih, and_assoc]

/-- **Append.** An entry that names the tip keeps the log linked and becomes its tip. -/
theorem Linked.snoc {g : H} {xs : List E} {e : E} (h : Linked prev hash g xs)
    (he : prev e = tip hash g xs) : Linked prev hash g (xs ++ [e]) :=
  linked_append.mpr ⟨h, he, trivial⟩

/-- Along a linked log each entry follows the one before it. -/
theorem Linked.follows {g : H} : ∀ {l : List E}, Linked prev hash g l →
    l.IsChain (Follows prev hash)
  | [], _ => List.IsChain.nil
  | [_], _ => List.IsChain.singleton _
  | _ :: y :: l, h => List.isChain_cons_cons.mpr ⟨h.2.1, Linked.follows (l := y :: l) h.2⟩

theorem linked_of_follows : ∀ {e : E} {l : List E}, (e :: l).IsChain (Follows prev hash) →
    Linked prev hash (hash e) l
  | _, [], _ => trivial
  | _, _ :: _, h =>
    ⟨(List.isChain_cons_cons.mp h).1, linked_of_follows (List.isChain_cons_cons.mp h).2⟩

/-- What a reader checks, together with the first entry's predecessor. -/
theorem linked_cons_iff {g : H} {e : E} {l : List E} :
    Linked prev hash g (e :: l) ↔ prev e = g ∧ (e :: l).IsChain (Follows prev hash) :=
  ⟨fun h => ⟨h.1, h.follows⟩, fun h => ⟨h.1, linked_of_follows h.2⟩⟩

/-- Renaming the entries and the hashes of a linked log. -/
theorem Linked.map {E' H' : Type} {prev' hash' : E' → H'} {f : E → E'} {φ : H → H'}
    (hprev : ∀ e, prev' (f e) = φ (prev e)) (hhash : ∀ e, hash' (f e) = φ (hash e)) :
    ∀ {g : H} {l : List E}, Linked prev hash g l → Linked prev' hash' (φ g) (l.map f)
  | _, [], _ => trivial
  | _, e :: l, h => by
      refine ⟨by rw [hprev, h.1], ?_⟩
      rw [hhash]
      exact Linked.map hprev hhash h.2

/-! ### One unforked chain -/

/-- No two entries of `l` have the same hash, and none hashes to `genesis`. -/
structure NoCollision (hash : E → H) (genesis : H) (l : List E) : Prop where
  inj : CollisionFreeOn hash (· ∈ l)
  ne_genesis : ∀ e ∈ l, hash e ≠ genesis

theorem NoCollision.mono {genesis : H} {l m : List E} (h : NoCollision hash genesis m)
    (hsub : ∀ e ∈ l, e ∈ m) : NoCollision hash genesis l where
  inj := h.inj.mono hsub
  ne_genesis e he := h.ne_genesis e (hsub e he)

theorem Linked.prev_zero {g : H} {l : List E} (h : Linked prev hash g l) (hi : 0 < l.length) :
    prev l[0] = g := by
  cases l with
  | nil => cases hi
  | cons e l => exact h.1

theorem Linked.prev_succ {g : H} {l : List E} (h : Linked prev hash g l) (i : Nat)
    (hi : i + 1 < l.length) : prev l[i + 1] = hash l[i] :=
  h.follows.getElem i hi

/-- Two places of a linked log that name the same predecessor are the same place. -/
theorem Linked.index_inj {genesis : H} {l : List E} (h : Linked prev hash genesis l)
    (hnc : NoCollision hash genesis l) : ∀ (i j : Nat) (hi : i < l.length) (hj : j < l.length),
    prev l[i] = prev l[j] → i = j
  | 0, 0, _, _, _ => rfl
  | 0, j + 1, hi, hj, heq => by
      rw [h.prev_zero hi, h.prev_succ j hj] at heq
      exact absurd heq.symm (hnc.ne_genesis _ (List.getElem_mem _))
  | i + 1, 0, hi, hj, heq => by
      rw [h.prev_zero hj, h.prev_succ i hi] at heq
      exact absurd heq (hnc.ne_genesis _ (List.getElem_mem _))
  | i + 1, j + 1, hi, hj, heq => by
      rw [h.prev_succ i hi, h.prev_succ j hj] at heq
      have hent := hnc.inj _ _ (List.getElem_mem _) (List.getElem_mem _) heq
      have hij := Linked.index_inj h hnc i j (by omega) (by omega) (by rw [hent])
      rw [hij]

/-- The entries of a log are one chain: a single first entry, a single
predecessor for every other entry, and no two entries after the same one. -/
structure Unforked (prev hash : E → H) (genesis : H) (l : List E) : Prop where
  first : l ≠ [] → ∃! e, e ∈ l ∧ prev e = genesis
  pred : ∀ e ∈ l, prev e ≠ genesis → ∃! d, d ∈ l ∧ d ≠ e ∧ hash d = prev e
  no_fork : ∀ d ∈ l, ∀ e ∈ l, prev d = prev e → d = e

theorem Linked.no_fork {genesis : H} {l : List E} (h : Linked prev hash genesis l)
    (hnc : NoCollision hash genesis l) : ∀ d ∈ l, ∀ e ∈ l, prev d = prev e → d = e := by
  intro d hd e he heq
  obtain ⟨i, hi, rfl⟩ := List.getElem_of_mem hd
  obtain ⟨j, hj, rfl⟩ := List.getElem_of_mem he
  have hij := h.index_inj hnc i j hi hj heq
  subst hij
  rfl

/-- No entry occurs twice in a linked log. -/
theorem Linked.nodup {genesis : H} {l : List E} (h : Linked prev hash genesis l)
    (hnc : NoCollision hash genesis l) : l.Nodup := by
  rw [List.nodup_iff_injective_get]
  intro i j heq
  exact Fin.ext (h.index_inj hnc i j i.2 j.2 (congrArg prev heq))

/-- **A linked log is unforked.** -/
theorem Linked.unforked {genesis : H} {l : List E} (h : Linked prev hash genesis l)
    (hnc : NoCollision hash genesis l) : Unforked prev hash genesis l where
  first hne := by
    have hpos := List.length_pos_iff.mpr hne
    refine ⟨l[0], ⟨List.getElem_mem _, h.prev_zero hpos⟩, fun e he => ?_⟩
    exact h.no_fork hnc e he.1 _ (List.getElem_mem _) (by rw [he.2, h.prev_zero hpos])
  pred e he hne := by
    obtain ⟨i, hi, rfl⟩ := List.getElem_of_mem he
    cases i with
    | zero => exact absurd (h.prev_zero hi) hne
    | succ i =>
        have hprev := h.prev_succ i hi
        refine ⟨l[i], ⟨List.getElem_mem _, fun heq => ?_, hprev.symm⟩, fun d hd => ?_⟩
        · have := h.index_inj hnc i (i + 1) (by omega) hi (by rw [heq])
          omega
        · exact hnc.inj d _ hd.1 (List.getElem_mem _) (by rw [hd.2.2, hprev])
  no_fork := h.no_fork hnc

/-! ### The order is determined by the entries -/

/-- Two linked logs of the same entries are the same log. -/
theorem Linked.eq_of_perm {g : H} : ∀ {l m : List E}, Linked prev hash g l →
    Linked prev hash g m → (∀ d ∈ l, ∀ e ∈ l, prev d = prev e → d = e) → l.Perm m → l = m
  | [], m, _, _, _, hperm => (List.perm_nil.mp hperm.symm).symm
  | e :: l, [], _, _, _, hperm => absurd hperm.length_eq (by simp)
  | e :: l, d :: m, hl, hm, hfork, hperm => by
      have hd : d ∈ e :: l := hperm.mem_iff.mpr (List.mem_cons_self ..)
      have hde : d = e := hfork d hd e (List.mem_cons_self ..) (by rw [hm.1, hl.1])
      subst hde
      have htail : l = m := Linked.eq_of_perm hl.2 hm.2
        (fun x hx y hy => hfork x (List.mem_cons_of_mem _ hx) y (List.mem_cons_of_mem _ hy))
        hperm.cons_inv
      rw [htail]

/-- **The reading order is the writing order.** A rearrangement of a linked log
in which each entry follows the one before it is the log itself. -/
theorem Linked.eq_of_perm_follows {genesis : H} {l m : List E} (h : Linked prev hash genesis l)
    (hnc : NoCollision hash genesis l) (hperm : l.Perm m) (hm : m.IsChain (Follows prev hash)) :
    l = m := by
  have hfork := h.no_fork hnc
  cases m with
  | nil => exact List.perm_nil.mp hperm
  | cons d m =>
      refine h.eq_of_perm ?_ hfork hperm
      rw [linked_cons_iff]
      refine ⟨?_, hm⟩
      -- the genesis entry can follow nothing, so it stands first in `m` too
      have hpos : 0 < l.length := by rw [hperm.length_eq]; simp
      have hfirst : l[0] ∈ d :: m := hperm.mem_iff.mp (List.getElem_mem _)
      obtain ⟨j, hj, hj0⟩ := List.getElem_of_mem hfirst
      cases j with
      | zero =>
          rw [List.getElem_cons_zero] at hj0
          rw [hj0]
          exact h.prev_zero hpos
      | succ j =>
          have hprev : prev (d :: m)[j + 1] = hash (d :: m)[j] := hm.getElem j hj
          rw [hj0, h.prev_zero hpos] at hprev
          have hmem : (d :: m)[j] ∈ l := hperm.mem_iff.mpr (List.getElem_mem _)
          exact absurd hprev.symm (hnc.ne_genesis _ hmem)

/-! ### The tip commits to what precedes it -/

theorem tip_of_ne_nil (hash : E → H) {g : H} : ∀ {l : List E}, l ≠ [] → ∃ x ∈ l, tip hash g l = hash x
  | [x], _ => ⟨x, List.mem_singleton_self x, rfl⟩
  | x :: y :: l, _ => by
      obtain ⟨z, hz, htip⟩ := tip_of_ne_nil hash (g := hash x) (l := y :: l) (by simp)
      exact ⟨z, List.mem_cons_of_mem _ hz, htip⟩

/-- **Commitment.** A nonempty list whose entries follow one another and whose
tip is that of a linked log agrees, entry by entry, with a final segment of it:
with all of it when its first entry names the genesis value. Agreement is up to
`key`, which equal hashes must determine along with the predecessor. -/
theorem isSuffix_of_same_last {K : Type} {key : E → K} {genesis : H} {a c : List E}
    (ha : a.IsChain (Follows prev hash)) (hc : Linked prev hash genesis c)
    (hgen : ∀ x ∈ a, hash x ≠ genesis)
    (hagree : ∀ x ∈ a, ∀ y ∈ c, hash x = hash y → key x = key y ∧ prev x = prev y)
    (hne : a ≠ []) (htip : tip hash genesis a = tip hash genesis c) :
    a.map key <:+ c.map key := by
  induction a using List.reverseRecOn generalizing c with
  | nil => exact absurd rfl hne
  | append_singleton a x ih =>
      have hx : tip hash genesis (a ++ [x]) = hash x := by rw [tip_append]; rfl
      rw [hx] at htip
      rcases List.eq_nil_or_concat c with rfl | ⟨c, y, rfl⟩
      · exact absurd htip (hgen x (by simp))
      · rw [List.concat_eq_append] at hc htip hagree ⊢
        have hy : tip hash genesis (c ++ [y]) = hash y := by rw [tip_append]; rfl
        rw [hy] at htip
        obtain ⟨hkey, hprev⟩ := hagree x (by simp) y (by simp) htip
        obtain ⟨hc', hyprev, -⟩ := linked_append.mp hc
        simp only [List.map_append, List.map_singleton, hkey, List.suffix_append_self_iff]
        rcases List.eq_nil_or_concat a with rfl | ⟨a, z, rfl⟩
        · exact List.nil_suffix
        · rw [List.concat_eq_append] at ha ih hgen hagree ⊢
          obtain ⟨ha', -, hzx⟩ := List.isChain_append.mp ha
          have hxprev : prev x = hash z := hzx z (by simp) x (by simp)
          have hz : tip hash genesis (a ++ [z]) = hash z := by rw [tip_append]; rfl
          refine ih ha' hc' (fun w hw => hgen w (List.mem_append_left _ hw)) ?_ (by simp) ?_
          · intro w hw v hv
            exact hagree w (List.mem_append_left _ hw) v (List.mem_append_left _ hv)
          · rw [hz, ← hxprev, hprev, hyprev]

/-- A final segment that starts at the genesis value is the whole log. -/
theorem eq_of_same_last {K : Type} {key : E → K} {genesis : H} {a c : List E}
    (ha : Linked prev hash genesis a) (hc : Linked prev hash genesis c)
    (hgen : ∀ x ∈ a ++ c, hash x ≠ genesis)
    (hagree : ∀ x ∈ a, ∀ y ∈ c, hash x = hash y → key x = key y ∧ prev x = prev y)
    (htip : tip hash genesis a = tip hash genesis c) : a.map key = c.map key := by
  have hgena : ∀ x ∈ a, hash x ≠ genesis := fun x hx => hgen x (List.mem_append_left _ hx)
  have hgenc : ∀ x ∈ c, hash x ≠ genesis := fun x hx => hgen x (List.mem_append_right _ hx)
  by_cases hane : a = []
  · subst hane
    by_cases hcne : c = []
    · rw [hcne]
    · obtain ⟨x, hx, hxtip⟩ := tip_of_ne_nil hash (g := genesis) hcne
      exact absurd (hxtip.symm.trans htip.symm) (hgenc x hx)
  · by_cases hcne : c = []
    · subst hcne
      obtain ⟨x, hx, hxtip⟩ := tip_of_ne_nil hash (g := genesis) hane
      exact absurd (hxtip.symm.trans htip) (hgena x hx)
    · have hac := isSuffix_of_same_last ha.follows hc hgena hagree hane htip
      have hagree' : ∀ y ∈ c, ∀ x ∈ a, hash y = hash x → key y = key x ∧ prev y = prev x :=
        fun y hy x hx heq => (hagree x hx y hy heq.symm).imp Eq.symm Eq.symm
      have hca := isSuffix_of_same_last hc.follows ha hgenc hagree' hcne htip.symm
      exact hac.eq_of_length (Nat.le_antisymm hac.length_le hca.length_le)

end Lib.HashChain
