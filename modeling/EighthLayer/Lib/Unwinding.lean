import EighthLayer.Lib.Interleave

/-!
# EighthLayer.Lib.Unwinding

Programs that cannot tell whether others run beside them.

Some statements are those of the programs that are kept, some those of the others. Where two
databases that look the same answer every kept statement in the same way and then still look the
same, and no other statement changes how a database looks (`Unwinding`), the kept programs come as
far as they do in the run without the steps of the others (`Config.Alike.run`).
-/

namespace Lib

variable {Q : Type} {A : Q → Type} {σ α : Type}

/-- However its statements are answered, a program issues only those that satisfy a condition. -/
inductive Prog.Issues (P : Q → Prop) : Prog A α → Prop
  | done {a : α} : Issues P (.done a)
  | call {q : Q} {k : A q → Prog A α} (h : P q) (hrest : ∀ a, Issues P (k a)) : Issues P (.call q k)

theorem Prog.Issues.imp {P P' : Q → Prop} {p : Prog A α} (h : p.Issues P) (himp : ∀ q, P q → P' q) :
    p.Issues P' := by
  induction h with
  | done => exact .done
  | call hq _ ih => exact .call (himp _ hq) ih

variable [Database σ A]

/-- What is asked of the two kinds of statements: `same` holds of databases that look the same to
the kept ones. -/
structure Unwinding (A : Q → Type) [Database σ A] (kept other : Q → Prop) (same : σ → σ → Prop) :
    Prop where
  kept : ∀ q s s', kept q → same s s' →
    (Database.exec (A := A) q s).1 = (Database.exec (A := A) q s').1 ∧
      same (Database.exec (A := A) q s).2 (Database.exec (A := A) q s').2
  other : ∀ q s s', other q → same s s' → same (Database.exec (A := A) q s).2 s'

/-- Two runs, of which the kept programs have come equally far. -/
structure Config.Alike (kept other : Q → Prop) (same : σ → σ → Prop) (keeps : Nat → Bool)
    (c c' : Config σ A α) : Prop where
  same : same c.world.db c'.world.db
  tasks : ∀ i, keeps i = true → c.tasks[i]? = c'.tasks[i]?
  kept : ∀ i p, keeps i = true → c.tasks[i]? = some p → p.Issues kept
  other : ∀ i p, keeps i = false → c.tasks[i]? = some p → p.Issues other

namespace Config.Alike

variable {kept other : Q → Prop} {same : σ → σ → Prop} {keeps : Nat → Bool} {c c' : Config σ A α}

omit [Database σ A] in
/-- What is left of a program issues no other statements. -/
theorem set {P : Q → Prop} {i : Nat} {q : Q} {k : A q → Prog A α} {b : Bool}
    (hold : ∀ j p, keeps j = b → c.tasks[j]? = some p → p.Issues P)
    (htask : c.tasks[i]? = some (.call q k)) (a : A q) :
    ∀ j p, keeps j = b → (c.tasks.set i (k a))[j]? = some p → p.Issues P := by
  intro j p hj hp
  by_cases hij : i = j
  · subst hij
    rw [List.getElem?_set_self (List.getElem?_eq_some_iff.mp htask).1] at hp
    cases hp
    cases hold i _ hj htask with
    | call _ hrest => exact hrest a
  · rw [List.getElem?_set_ne hij] at hp
    exact hold j p hj hp

/-- A kept program takes its step in both runs. -/
theorem step_kept (hunwinding : Unwinding A kept other same) (h : Alike kept other same keeps c c')
    {i : Nat} (hi : keeps i = true) : Alike kept other same keeps (c.step i) (c'.step i) := by
  have htasks := h.tasks i hi
  rcases c.step_cases i with heq | ⟨q, k, htask, heq⟩
  · -- it has ended in both
    have heq' : c'.step i = c' := by
      rcases c'.step_cases i with heq' | ⟨q, k, htask', -⟩
      · exact heq'
      · rw [← htasks] at htask'
        have hlog := congrArg (fun c => c.world.log.length) heq
        rw [step_call htask'] at hlog
        simp at hlog
    rw [heq, heq']
    exact h
  · have hq : kept q := by
      cases h.kept i _ hi htask with
      | call hq _ => exact hq
    obtain ⟨hanswer, hsame⟩ := hunwinding.kept q _ _ hq h.same
    have htask' := htasks.symm.trans htask
    rw [heq, step_call htask']
    refine ⟨hsame, fun j hj => ?_, set h.kept htask _, set h.other htask _⟩
    by_cases hij : i = j
    · subst hij
      rw [List.getElem?_set_self (List.getElem?_eq_some_iff.mp htask).1,
        List.getElem?_set_self (List.getElem?_eq_some_iff.mp htask').1, hanswer]
    · rw [List.getElem?_set_ne hij, List.getElem?_set_ne hij]
      exact h.tasks j hj

/-- A step of another program is not seen. -/
theorem step_other (hunwinding : Unwinding A kept other same) (h : Alike kept other same keeps c c')
    {i : Nat} (hi : keeps i = false) : Alike kept other same keeps (c.step i) c' := by
  rcases c.step_cases i with heq | ⟨q, k, htask, heq⟩
  · rw [heq]
    exact h
  · have hq : other q := by
      cases h.other i _ hi htask with
      | call hq _ => exact hq
    rw [heq]
    refine ⟨hunwinding.other q _ _ hq h.same, fun j hj => ?_, set h.kept htask _,
      set h.other htask _⟩
    have hij : i ≠ j := by
      rintro rfl
      rw [hi] at hj
      cases hj
    rw [List.getElem?_set_ne hij]
    exact h.tasks j hj

/-- **The unwinding rule.** The kept programs come as far as they do when the steps of the others
are left out. -/
theorem run (hunwinding : Unwinding A kept other same) (h : Alike kept other same keeps c c')
    (schedule : List Nat) :
    Alike kept other same keeps (c.run schedule) (c'.run (schedule.filter keeps)) := by
  induction schedule generalizing c c' with
  | nil => exact h
  | cons i schedule ih =>
      cases hi : keeps i with
      | true =>
          rw [List.filter_cons_of_pos hi]
          exact ih (step_kept hunwinding h hi)
      | false =>
          rw [List.filter_cons_of_neg (by simp [hi])]
          exact ih (step_other hunwinding h hi)

end Config.Alike

end Lib
