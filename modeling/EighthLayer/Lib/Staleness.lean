import Mathlib.Algebra.Order.Group.Int
import Mathlib.Data.List.Basic

/-!
# EighthLayer.Lib.Staleness

How old what a cache serves may be.

A value that changes has a `History`. A reader that keeps a copy of it serves what the value was some
time ago: `Lately` says that it has been the value at some time since a given one. A copy that is
kept for a time is that much older when it is served (`Entry.of_fresh`), and so is what was made
of a copy and is kept in turn: the times add up. Once the value has been left alone for as long,
there is nothing but the current value to be served (`History.Lately.eq_current`).
-/

namespace Lib

variable {α : Type}

/-- What a value has been set to and when, the latest first, and what it was before that. -/
structure History (α : Type) where
  changes : List (Int × α)
  initial : α

namespace History

/-- The value after some changes. -/
def after (initial : α) : List (Int × α) → α
  | [] => initial
  | change :: _ => change.2

/-- The value now. -/
def current (h : History α) : α := after h.initial h.changes

/-- The value is set at a time. -/
def set (h : History α) (time : Int) (v : α) : History α :=
  { h with changes := (time, v) :: h.changes }

@[simp] theorem current_set (h : History α) (time : Int) (v : α) : (h.set time v).current = v := rfl

/-- A value before a change was the value until then. -/
def LatelyIn (since : Int) (initial v : α) : List (Int × α) → Prop
  | [] => v = initial
  | change :: older => v = change.2 ∨ (since ≤ change.1 ∧ LatelyIn since initial v older)

/-- It was the value at some time from `since` on. -/
def Lately (h : History α) (since : Int) (v : α) : Prop := LatelyIn since h.initial v h.changes

/-- The current value is the latest at all times. -/
theorem lately_current (h : History α) (since : Int) : h.Lately since h.current := by
  obtain ⟨changes, initial⟩ := h
  cases changes with
  | nil => exact rfl
  | cons change older => exact .inl rfl

theorem Lately.mono {h : History α} {since since' : Int} {v : α} (hv : h.Lately since v)
    (hle : since' ≤ since) : h.Lately since' v := by
  obtain ⟨changes, initial⟩ := h
  unfold Lately at hv ⊢
  induction changes with
  | nil => exact hv
  | cons change older ih => exact hv.imp_right fun h => ⟨hle.trans h.1, ih h.2⟩

/-- What the value may have become since a time. -/
structure Extends (time : Int) (h h' : History α) : Prop where
  changes : ∃ newer, h'.changes = newer ++ h.changes ∧ ∀ change ∈ newer, time ≤ change.1
  initial : h'.initial = h.initial

theorem Extends.refl (time : Int) (h : History α) : Extends time h h :=
  ⟨⟨[], rfl, fun _ hmem => absurd hmem List.not_mem_nil⟩, rfl⟩

theorem Extends.set (h : History α) (time : Int) (v : α) : Extends time h (h.set time v) := by
  refine ⟨⟨[(time, v)], rfl, fun change hmem => ?_⟩, rfl⟩
  rw [List.mem_singleton.mp hmem]

theorem Extends.trans {time time' : Int} {h h' h'' : History α} (hle : time ≤ time')
    (hfirst : Extends time h h') (hthen : Extends time' h' h'') : Extends time h h'' := by
  obtain ⟨⟨newer, heq, hnewer⟩, hinitial⟩ := hfirst
  obtain ⟨⟨newest, heq', hnewest⟩, hinitial'⟩ := hthen
  refine ⟨⟨newest ++ newer, by rw [heq', heq, List.append_assoc], fun change hmem => ?_⟩,
    hinitial'.trans hinitial⟩
  rcases List.mem_append.mp hmem with hmem | hmem
  · exact hle.trans (hnewest change hmem)
  · exact hnewer change hmem

/-- What was the value lately was so, seen from later on. -/
theorem Lately.extends {h h' : History α} {since time : Int} {v : α} (hv : h.Lately since v)
    (hle : since ≤ time) (hext : Extends time h h') : h'.Lately since v := by
  obtain ⟨⟨newer, heq, hnewer⟩, hinitial⟩ := hext
  unfold Lately at hv ⊢
  rw [heq, hinitial]
  clear heq
  induction newer with
  | nil => exact hv
  | cons change newer ih =>
      have hfirst := hnewer change List.mem_cons_self
      exact .inr ⟨hle.trans hfirst, ih fun c hc => hnewer c (List.mem_cons_of_mem _ hc)⟩

/-- The value has been left alone since a time. -/
def Settled (h : History α) (since : Int) : Prop := ∀ change ∈ h.changes.head?, change.1 < since

/-- A value that has been left alone was lately nothing but what it is. -/
theorem Lately.eq_current {h : History α} {since : Int} {v : α} (hv : h.Lately since v)
    (hsettled : h.Settled since) : v = h.current := by
  obtain ⟨changes, initial⟩ := h
  cases changes with
  | nil => exact hv
  | cons change older =>
      have hbefore : change.1 < since := hsettled change rfl
      rcases hv with hv | ⟨hle, -⟩
      · exact hv
      · exact absurd hle (not_le.mpr hbefore)

theorem Settled.mono {h : History α} {since since' : Int} (hs : h.Settled since)
    (hle : since ≤ since') : h.Settled since' := fun change hmem => (hs change hmem).trans_le hle

end History

/-! ## Copies -/

/-- A copy, with the time at which its making began. -/
structure Entry (α : Type) where
  value : α
  time : Int

/-- What is served of a copy that is kept for `ttl`. -/
def Entry.fresh (ttl now : Int) (e : Entry α) : Option α :=
  if now - e.time < ttl then some e.value else none

/-- **Ages add up.** What is served at a time was copied less than the time to live before. So what
was lately so from some time before the copy on was so from that and the time to live before now. -/
theorem Entry.of_fresh {e : Entry α} {ttl now : Int} {served : α}
    (h : e.fresh ttl now = some served) : served = e.value ∧ now - ttl < e.time := by
  obtain ⟨hage, hserved⟩ := Option.ite_none_right_eq_some.mp h
  exact ⟨(Option.some.inj hserved).symm, by omega⟩

end Lib
