import Mathlib.Data.List.Basic

/-!
# EighthLayer.Lib.Transaction

A transaction as a list of statements on the contents of a store, any of which may raise, and
which a fault may strike anywhere: before a statement or before the commit.

`Executes` is the execution in which nothing raises. A transaction that ends well is one such;
one that does not leaves the contents as they were.
-/

namespace Lib

/-- A statement: it raises, or changes the contents. -/
abbrev Statement (E D : Type) := D → Except E D

variable {E D : Type}

/-- Statements one after the other, from the `n`-th of a transaction on. -/
def runStatements (faults : Nat → Option E) : Nat → List (Statement E D) → D → Except E D
  | n, [], d =>
      match faults n with
      | some e => .error e
      | none => .ok d
  | n, s :: ss, d =>
      match faults n with
      | some e => .error e
      | none =>
          match s d with
          | .error e => .error e
          | .ok d' => runStatements faults (n + 1) ss d'

/-- A transaction: what it raises, if it does, and the contents after it. -/
def transact (faults : Nat → Option E) (ss : List (Statement E D)) (d : D) : Option E × D :=
  match runStatements faults 0 ss d with
  | .ok d' => (none, d')
  | .error e => (some e, d)

/-- Statements one after the other, none of which raises. -/
inductive Executes : List (Statement E D) → D → D → Prop where
  | nil (d : D) : Executes [] d d
  | cons {s : Statement E D} {ss : List (Statement E D)} {d d' d'' : D} (hs : s d = .ok d')
      (hss : Executes ss d' d'') : Executes (s :: ss) d d''

theorem executes_of_ok {faults : Nat → Option E} {ss : List (Statement E D)} {n : Nat} {d d' : D}
    (h : runStatements faults n ss d = .ok d') : Executes ss d d' := by
  induction ss generalizing n d with
  | nil =>
      unfold runStatements at h
      split at h
      · cases h
      · cases h
        exact .nil _
  | cons s ss ih =>
      unfold runStatements at h
      split at h
      · cases h
      · split at h
        · cases h
        · rename_i hs
          exact .cons hs (ih h)

/-- **A transaction is done or not done.** -/
theorem transact_cases (faults : Nat → Option E) (ss : List (Statement E D)) (d : D) :
    (∃ e, transact faults ss d = (some e, d)) ∨
      ∃ d', transact faults ss d = (none, d') ∧ Executes ss d d' := by
  unfold transact
  cases h : runStatements faults 0 ss d with
  | error e => exact .inl ⟨e, rfl⟩
  | ok d' => exact .inr ⟨d', rfl, executes_of_ok h⟩

/-- A transaction that raises leaves the contents as they were. -/
theorem transact_raised {faults : Nat → Option E} {ss : List (Statement E D)} {d : D} {e : E}
    (h : (transact faults ss d).1 = some e) : (transact faults ss d).2 = d := by
  rcases transact_cases faults ss d with ⟨e', heq⟩ | ⟨d', heq, -⟩
  · rw [heq]
  · rw [heq] at h
    cases h

/-- What every execution keeps, a transaction keeps. -/
theorem transact_invariant {P : D → Prop} {faults : Nat → Option E} {ss : List (Statement E D)}
    {d : D} (hd : P d) (hss : ∀ d', Executes ss d d' → P d') : P (transact faults ss d).2 := by
  rcases transact_cases faults ss d with ⟨e, heq⟩ | ⟨d', heq, hexec⟩
  · rwa [heq]
  · rw [heq]
    exact hss d' hexec

theorem executes_cons_iff {s : Statement E D} {ss : List (Statement E D)} {d d'' : D} :
    Executes (s :: ss) d d'' ↔ ∃ d', s d = .ok d' ∧ Executes ss d' d'' := by
  constructor
  · intro h
    cases h with
    | cons hs hss => exact ⟨_, hs, hss⟩
  · rintro ⟨d', hs, hss⟩
    exact .cons hs hss

@[simp] theorem executes_nil_iff {d d' : D} : Executes ([] : List (Statement E D)) d d' ↔ d' = d := by
  constructor
  · intro h
    cases h
    rfl
  · rintro rfl
    exact .nil d'

theorem executes_append_iff {ss ss' : List (Statement E D)} {d d'' : D} :
    Executes (ss ++ ss') d d'' ↔ ∃ d', Executes ss d d' ∧ Executes ss' d' d'' := by
  induction ss generalizing d with
  | nil => simp
  | cons s ss ih =>
      simp only [List.cons_append, executes_cons_iff, ih]
      constructor
      · rintro ⟨d₁, hs, d₂, hss, hss'⟩
        exact ⟨d₂, ⟨d₁, hs, hss⟩, hss'⟩
      · rintro ⟨d₂, ⟨d₁, hs, hss⟩, hss'⟩
        exact ⟨d₁, hs, d₂, hss, hss'⟩

end Lib
