import Mathlib.Data.List.Induction

/-!
# EighthLayer.Lib.Runs

Runs of a state machine whose inputs come in a list: the state is a left fold over them.
-/

namespace Lib

variable {σ α : Type}

/-- A run with one more input is that run and one more step. -/
theorem foldl_take_succ (step : σ → α → σ) (s : σ) {inputs : List α} {n : Nat} {a : α}
    (h : inputs[n]? = some a) :
    (inputs.take (n + 1)).foldl step s = step ((inputs.take n).foldl step s) a := by
  rw [List.take_add_one, h, Option.toList_some, List.foldl_append, List.foldl_cons, List.foldl_nil]

/-- **Invariants of runs.** What holds at the start and what every step keeps holds after every
run. The property may speak of the inputs so far. -/
theorem run_invariant {step : σ → α → σ} {P : List α → σ → Prop} {s : σ} (h : P [] s)
    (hstep : ∀ done s a, P done s → P (done ++ [a]) (step s a)) (inputs : List α) :
    P inputs (inputs.foldl step s) := by
  induction inputs using List.reverseRecOn with
  | nil => exact h
  | append_singleton done a ih =>
      rw [List.foldl_append, List.foldl_cons, List.foldl_nil]
      exact hstep done _ a ih

/-- **Guarded invariants of runs.** What holds at the start and what every step that meets a
condition keeps holds along every run whose steps meet it. -/
theorem run_invariant_of {step : σ → α → σ} {P : σ → Prop} {ok : σ → α → Prop} {s : σ} (h : P s)
    (hstep : ∀ s a, P s → ok s a → P (step s a)) {inputs : List α}
    (hok : ∀ n a, inputs[n]? = some a → ok ((inputs.take n).foldl step s) a) (n : Nat) :
    P ((inputs.take n).foldl step s) := by
  induction n with
  | zero => exact h
  | succ n ih =>
      cases ha : inputs[n]? with
      | some a =>
          rw [foldl_take_succ step s ha]
          exact hstep _ a ih (hok n a ha)
      | none =>
          -- the inputs have ended
          rw [List.take_add_one, ha, Option.toList_none, List.append_nil]
          exact ih

/-- Every step of a run meets a condition on the state that it starts from. -/
def StepsMeet (step : σ → α → σ) (ok : σ → α → Prop) : σ → List α → Prop
  | _, [] => True
  | s, a :: inputs => ok s a ∧ StepsMeet step ok (step s a) inputs

theorem stepsMeet_append {step : σ → α → σ} {ok : σ → α → Prop} {s : σ} {inputs inputs' : List α} :
    StepsMeet step ok s (inputs ++ inputs') ↔
      StepsMeet step ok s inputs ∧ StepsMeet step ok (inputs.foldl step s) inputs' := by
  induction inputs generalizing s with
  | nil => simp [StepsMeet]
  | cons a inputs ih => simp [StepsMeet, ih, and_assoc]

/-- Whether they do. -/
def decidableStepsMeet (step : σ → α → σ) (ok : σ → α → Prop) [∀ s a, Decidable (ok s a)] :
    ∀ (s : σ) (inputs : List α), Decidable (StepsMeet step ok s inputs)
  | _, [] => isTrue trivial
  | s, a :: inputs =>
    have := decidableStepsMeet step ok (step s a) inputs
    inferInstanceAs (Decidable (ok s a ∧ StepsMeet step ok (step s a) inputs))

/-- **Exact conditions of runs.** Where each step keeps a property exactly if it meets a
condition, the property holds all along a run exactly if every step meets it. -/
theorem run_prefixes_iff {step : σ → α → σ} {P : List α → σ → Prop} {ok : σ → α → Prop} {s : σ}
    (h : P [] s) (hstep : ∀ done s a, P done s → (P (done ++ [a]) (step s a) ↔ ok s a))
    (inputs : List α) :
    (∀ n, P (inputs.take n) ((inputs.take n).foldl step s)) ↔
      ∀ n a, inputs[n]? = some a → ok ((inputs.take n).foldl step s) a := by
  have hnext : ∀ {n a}, inputs[n]? = some a →
      P (inputs.take n) ((inputs.take n).foldl step s) →
        (P (inputs.take (n + 1)) ((inputs.take (n + 1)).foldl step s) ↔
          ok ((inputs.take n).foldl step s) a) := by
    intro n a ha hn
    rw [foldl_take_succ step s ha, List.take_add_one, ha, Option.toList_some]
    exact hstep _ _ a hn
  constructor
  · intro hall n a ha
    exact (hnext ha (hall n)).mp (hall (n + 1))
  · intro hok n
    induction n with
    | zero => exact h
    | succ n ih =>
        cases ha : inputs[n]? with
        | some a => exact (hnext ha ih).mpr (hok n a ha)
        | none =>
            -- the inputs have ended
            rw [List.take_add_one, ha, Option.toList_none, List.append_nil]
            exact ih

end Lib
