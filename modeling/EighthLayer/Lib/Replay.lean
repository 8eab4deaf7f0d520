import EighthLayer.Lib.Interleave

/-!
# EighthLayer.Lib.Replay

The log of a run as the history of its database.

What has been executed on a database determines it: it is what becomes of the first state when the
statements of the log are executed again (`replay`), and every answer in the log is the one that is
given there (`Faithful`). What a statement has found can so be read off the log up to it, and what a
program does by itself is found in the log as it is in its own (`split_own`).
-/

namespace Lib

variable {Q : Type} {A : Q → Type} {σ α : Type} [Database σ A]

/-- A database after the statements of a log, the latest of which comes first. -/
def replay (s : σ) : List (Event A) → σ
  | [] => s
  | e :: older => (Database.exec (A := A) e.stmt (replay s older)).2

@[simp] theorem replay_nil (s : σ) : replay s ([] : List (Event A)) = s := rfl

@[simp] theorem replay_cons (s : σ) (e : Event A) (older : List (Event A)) :
    replay s (e :: older) = (Database.exec (A := A) e.stmt (replay s older)).2 := rfl

/-- Every statement was answered as it is on the database that the earlier ones have left. -/
def Faithful (s : σ) : List (Event A) → Prop
  | [] => True
  | e :: older =>
      e.answer = (Database.exec (A := A) e.stmt (replay s older)).1 ∧ Faithful s older

theorem Faithful.of_append {s : σ} {newer log : List (Event A)} (h : Faithful s (newer ++ log)) :
    Faithful s log := by
  induction newer with
  | nil => exact h
  | cons e newer ih => exact ih h.2

/-- What a statement of the log was answered. -/
theorem Faithful.answer {s : σ} {newer older : List (Event A)} {i : Nat} {q : Q} {a : A q}
    (h : Faithful s (newer ++ ⟨i, q, a⟩ :: older)) :
    a = (Database.exec (A := A) q (replay s older)).1 :=
  h.of_append.1

/-- A world whose log is its history. -/
def World.Recorded (s : σ) (w : World σ A) : Prop := Faithful s w.log ∧ w.db = replay s w.log

theorem World.Recorded.exec {s : σ} {w : World σ A} (h : w.Recorded s) (i : Nat) (q : Q) :
    (w.exec i q).Recorded s := by
  refine ⟨⟨?_, h.1⟩, ?_⟩
  · rw [← h.2]
  · rw [World.exec_log, replay_cons, ← h.2]
    rfl

/-- **The history rule.** The log of every run is its history. -/
theorem Config.run_recorded (s : σ) (tasks : List (Prog A α)) (schedule : List Nat) :
    ((Config.start s tasks).run schedule).world.Recorded s :=
  Config.run_world (fun _ i q h => h.exec i q) ⟨trivial, rfl⟩ schedule

/-- A statement that is in the log was answered on what had come before it. -/
theorem World.Recorded.answer {s : σ} {w : World σ A} (h : w.Recorded s) {i : Nat} {q : Q} {a : A q}
    (he : (⟨i, q, a⟩ : Event A) ∈ w.log) :
    ∃ newer older, w.log = newer ++ ⟨i, q, a⟩ :: older ∧ Faithful s older ∧
      a = (Database.exec (A := A) q (replay s older)).1 := by
  obtain ⟨newer, older, hlog⟩ := List.append_of_mem he
  have hfaithful := h.1
  rw [hlog] at hfaithful
  exact ⟨newer, older, hlog, hfaithful.of_append.2, hfaithful.answer⟩

/-! ## The parts of a program in the log of all -/

omit [Database σ A] in
/-- The latest statement of a program, with what the others have done since, and what it had done
before. -/
theorem split_own {log : List (Event A)} {i : Nat} {e : Event A}
    {own : List (Event A)} (h : log.filter (fun e => e.task = i) = e :: own) :
    ∃ others older, log = others ++ e :: older ∧ (∀ e' ∈ others, e'.task ≠ i) ∧ e.task = i ∧
      older.filter (fun e => e.task = i) = own := by
  obtain ⟨others, older, hlog, hothers, he, hown⟩ := List.filter_eq_cons_iff.mp h
  exact ⟨others, older, hlog, fun e' h' => by simpa using hothers e' h', by simpa using he, hown⟩

end Lib
