import EighthLayer.Lib.Interleave

/-!
# EighthLayer.Lib.Crash

Programs that may be cut off between two of their statements.

What a program does to the database is described at every point at which it may be cut off
and at its end (`Prog.Through`); the rules follow the shape of the program.
-/

namespace Lib

variable {Q : Type} {A : Q → Type} {σ α β : Type} [Database σ A]

namespace Prog

/-- The database after a program that is cut off after `n` statements. -/
def cut : Nat → Prog A α → σ → σ
  | 0, _, s => s
  | _ + 1, done _, s => s
  | n + 1, call q k, s =>
      (k (Database.exec (A := A) q s).1).cut n (Database.exec (A := A) q s).2

/-- Wherever the program is cut off the database satisfies `P`; at its end the answer and the
database satisfy `R`. -/
inductive Through (P : σ → Prop) (R : α → σ → Prop) : Prog A α → σ → Prop
  | done {a : α} {s : σ} (hP : P s) (hR : R a s) : Through P R (.done a) s
  | next {q : Q} {k : A q → Prog A α} {s : σ} (hP : P s)
      (hrest : Through P R (k (Database.exec (A := A) q s).1) (Database.exec (A := A) q s).2) :
      Through P R (.call q k) s

variable {P : σ → Prop} {R : α → σ → Prop}

theorem Through.start {p : Prog A α} {s : σ} (h : p.Through P R s) : P s := by
  cases h with
  | done hP _ => exact hP
  | next hP _ => exact hP

/-- **The crash rule.** -/
theorem Through.cut {p : Prog A α} {s : σ} (h : p.Through P R s) (n : Nat) : P (p.cut n s) := by
  induction n generalizing p s with
  | zero =>
      cases p with
      | done a => exact h.start
      | call q k => exact h.start
  | succ n ih =>
      cases h with
      | done hP _ => exact hP
      | next _ hrest => exact ih hrest

/-- The rule for a program that is not cut off. -/
theorem Through.alone {p : Prog A α} {s : σ} (h : p.Through P R s) :
    R (p.alone s).1 (p.alone s).2 := by
  induction h with
  | done _ hR => exact hR
  | next _ _ ih => exact ih

/-- One program after another. -/
theorem Through.bind {p : Prog A α} {f : α → Prog A β} {S : β → σ → Prop} {s : σ}
    (h : p.Through P R s) (hf : ∀ a s, R a s → (f a).Through P S s) :
    (p.bind f).Through P S s := by
  induction h with
  | done _ hR => exact hf _ _ hR
  | next hP _ ih => exact .next hP ih

/-- A statement, and the rest from what it leaves. -/
theorem Through.call {q : Q} {k : A q → Prog A α} {s s' : σ} {a : A q} (hP : P s)
    (hexec : Database.exec (A := A) q s = (a, s')) (hrest : (k a).Through P R s') :
    (Prog.call q k).Through P R s := by
  refine .next hP ?_
  rw [hexec]
  exact hrest

end Prog

end Lib
