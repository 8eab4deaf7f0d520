import Mathlib.Data.List.Basic

/-!
# EighthLayer.Lib.Interleave

Programs that talk to a database one statement at a time, run side by side.

A program is a tree: it has an answer, or it issues a statement and goes on with what
the database answers. Several of them share one database; at each step a scheduler picks
one and its next statement is executed. What is proved about a program holds however
the others interleave with it: it may rely on a relation that every statement of every
program keeps, and owes the others the same (`Contract`).
-/

namespace Lib

/-! ## Programs -/

/-- A program that ends with an answer, or issues a statement `q` and goes on with what the
database answers it, an element of `A q`. -/
inductive Prog {Q : Type} (A : Q → Type) (α : Type) where
  | done (a : α)
  | call (q : Q) (k : A q → Prog A α)

/-- A database with states `σ`: what it answers to a statement, and what becomes of it. A
statement is atomic. -/
class Database (σ : Type) {Q : Type} (A : Q → Type) where
  exec : (q : Q) → σ → A q × σ

variable {Q : Type} {A : Q → Type} {σ α β : Type}

namespace Prog

def bind : Prog A α → (α → Prog A β) → Prog A β
  | done a, f => f a
  | call q k, f => call q fun a => (k a).bind f

@[simp] theorem done_bind (a : α) (f : α → Prog A β) : (done a : Prog A α).bind f = f a := rfl

@[simp] theorem call_bind (q : Q) (k : A q → Prog A α) (f : α → Prog A β) :
    (call q k).bind f = call q fun a => (k a).bind f := rfl

/-- The answer of a program that has ended. -/
def result : Prog A α → Option α
  | done a => some a
  | call _ _ => none

/-- What may be left of a program once some of its statements have been answered. -/
inductive Rest : Prog A α → Prog A α → Prop
  | refl (p : Prog A α) : Rest p p
  | next {q : Q} {k : A q → Prog A α} {a : A q} {p : Prog A α} : Rest (k a) p → Rest (call q k) p

theorem Rest.trans {p p' p'' : Prog A α} (h : Rest p p') (h' : Rest p' p'') : Rest p p'' := by
  induction h with
  | refl _ => exact h'
  | next _ ih => exact .next (ih h')

/-- A program that ends after at most `n` statements, whatever they are answered. -/
inductive EndsWithin : Nat → Prog A α → Prop
  | done {n : Nat} {a : α} : EndsWithin n (done a)
  | call {n : Nat} {q : Q} {k : A q → Prog A α} :
      (∀ a, EndsWithin n (k a)) → EndsWithin (n + 1) (call q k)

variable [Database σ A]

/-- A program each of whose statements keeps an invariant of the database, whatever the
others have made of the database in between. -/
inductive Preserves (inv : σ → Prop) : Prog A α → Prop
  | done {a : α} : Preserves inv (done a)
  | call {q : Q} {k : A q → Prog A α}
      (hinv : ∀ s, inv s → inv (Database.exec (A := A) q s).2)
      (hrest : ∀ s, inv s → Preserves inv (k (Database.exec (A := A) q s).1)) :
      Preserves inv (call q k)

/-- A program on its own: its answer, and the database after it. -/
def alone : Prog A α → σ → α × σ
  | done a, s => (a, s)
  | call q k, s =>
      let r := Database.exec (A := A) q s
      (k r.1).alone r.2

@[simp] theorem alone_done (a : α) (s : σ) : (done a : Prog A α).alone s = (a, s) := rfl

theorem alone_call (q : Q) (k : A q → Prog A α) (s : σ) :
    (call q k).alone s =
      (k (Database.exec (A := A) q s).1).alone (Database.exec (A := A) q s).2 := rfl

end Prog

/-! ## Runs -/

/-- A statement that was executed: which program issued it, and what it was answered. -/
structure Event {Q : Type} (A : Q → Type) where
  task : Nat
  stmt : Q
  answer : A stmt

/-- The database, and what has been executed on it, the latest first. -/
structure World (σ : Type) {Q : Type} (A : Q → Type) where
  db : σ
  log : List (Event A)

/-- The world after a program's statement. -/
def World.exec [Database σ A] (w : World σ A) (i : Nat) (q : Q) : World σ A where
  db := (Database.exec (A := A) q w.db).2
  log := ⟨i, q, (Database.exec (A := A) q w.db).1⟩ :: w.log

@[simp] theorem World.exec_db [Database σ A] (w : World σ A) (i : Nat) (q : Q) :
    (w.exec i q).db = (Database.exec (A := A) q w.db).2 := rfl

@[simp] theorem World.exec_log [Database σ A] (w : World σ A) (i : Nat) (q : Q) :
    (w.exec i q).log = ⟨i, q, (Database.exec (A := A) q w.db).1⟩ :: w.log := rfl

theorem World.mem_exec_log [Database σ A] {w : World σ A} {i j : Nat} {q q' : Q} {a : A q'} :
    (⟨j, q', a⟩ : Event A) ∈ (w.exec i q).log ↔
      (⟨j, q', a⟩ : Event A) ∈ w.log ∨
        (j = i ∧ q = q' ∧ a = (Database.exec (A := A) q' w.db).1) := by
  rw [World.exec_log, List.mem_cons, or_comm]
  refine or_congr_right ⟨fun heq => ?_, ?_⟩
  · injection heq with htask hstmt hanswer
    subst hstmt
    exact ⟨htask, rfl, eq_of_heq hanswer⟩
  · rintro ⟨rfl, rfl, rfl⟩
    rfl

/-- A world and the programs that run in it, each as far as it has come. -/
structure Config (σ : Type) {Q : Type} (A : Q → Type) (α : Type) where
  world : World σ A
  tasks : List (Prog A α)

namespace Config

/-- Programs that start on a database nothing has been done to. -/
def start (s : σ) (tasks : List (Prog A α)) : Config σ A α := ⟨⟨s, []⟩, tasks⟩

/-- Program `i` has ended with answer `a`. -/
def Answered (c : Config σ A α) (i : Nat) (a : α) : Prop := c.tasks[i]? = some (.done a)

theorem answered_iff_result {c : Config σ A α} {i : Nat} {a : α} :
    c.Answered i a ↔ c.tasks[i]?.bind Prog.result = some a := by
  unfold Answered
  rw [Option.bind_eq_some_iff]
  constructor
  · intro h
    exact ⟨_, h, rfl⟩
  · rintro ⟨p, hp, hresult⟩
    cases p with
    | done b =>
        cases hresult
        exact hp
    | call q k => cases hresult

variable [Database σ A]

/-- The next statement of program `i`; nothing when it has ended. -/
def step (c : Config σ A α) (i : Nat) : Config σ A α :=
  match c.tasks[i]? with
  | some (.call q k) =>
      { world := c.world.exec i q
        tasks := c.tasks.set i (k (Database.exec (A := A) q c.world.db).1) }
  | _ => c

/-- The programs picked one after the other. -/
def run (c : Config σ A α) : List Nat → Config σ A α
  | [] => c
  | i :: schedule => (c.step i).run schedule

@[simp] theorem run_nil (c : Config σ A α) : c.run [] = c := rfl

@[simp] theorem run_cons (c : Config σ A α) (i : Nat) (schedule : List Nat) :
    c.run (i :: schedule) = (c.step i).run schedule := rfl

theorem run_append (c : Config σ A α) (s₁ s₂ : List Nat) :
    c.run (s₁ ++ s₂) = (c.run s₁).run s₂ := by
  induction s₁ generalizing c with
  | nil => rfl
  | cons i s₁ ih => exact ih (c.step i)

/-- What a step does: nothing, or the next statement of its program. -/
theorem step_cases (c : Config σ A α) (i : Nat) :
    c.step i = c ∨ ∃ q k, c.tasks[i]? = some (.call q k) ∧
      c.step i =
        ⟨c.world.exec i q, c.tasks.set i (k (Database.exec (A := A) q c.world.db).1)⟩ := by
  unfold step
  split
  · rename_i q k h
    exact .inr ⟨q, k, h, rfl⟩
  · exact .inl rfl

theorem step_call {c : Config σ A α} {i : Nat} {q : Q} {k : A q → Prog A α}
    (h : c.tasks[i]? = some (.call q k)) :
    c.step i =
      ⟨c.world.exec i q, c.tasks.set i (k (Database.exec (A := A) q c.world.db).1)⟩ := by
  unfold step
  rw [h]

/-- A step is about one program only. -/
theorem step_task_of_ne (c : Config σ A α) {i j : Nat} (hne : i ≠ j) :
    (c.step i).tasks[j]? = c.tasks[j]? := by
  rcases c.step_cases i with h | ⟨q, k, -, h⟩
  · rw [h]
  · rw [h]
    exact List.getElem?_set_ne hne

@[simp] theorem step_length (c : Config σ A α) (i : Nat) :
    (c.step i).tasks.length = c.tasks.length := by
  rcases c.step_cases i with h | ⟨q, k, -, h⟩
  · rw [h]
  · rw [h]
    exact List.length_set

@[simp] theorem run_length (c : Config σ A α) (schedule : List Nat) :
    (c.run schedule).tasks.length = c.tasks.length := by
  induction schedule generalizing c with
  | nil => rfl
  | cons i schedule ih => rw [run_cons, ih, step_length]

/-- What is left of each program is what may be left of the one it began as. -/
theorem step_rest {c : Config σ A α} {i j : Nat} {p : Prog A α}
    (h : (c.step i).tasks[j]? = some p) : ∃ p₀, c.tasks[j]? = some p₀ ∧ p₀.Rest p := by
  rcases c.step_cases i with heq | ⟨q, k, htask, heq⟩
  · rw [heq] at h
    exact ⟨p, h, .refl p⟩
  · rw [heq, List.getElem?_set] at h
    split at h
    · rename_i hij
      split at h
      · cases h
        exact ⟨_, hij ▸ htask, .next (.refl _)⟩
      · cases h
    · exact ⟨p, h, .refl p⟩

/-- A program that has ended stays as it is. -/
theorem answered_step {c : Config σ A α} {j : Nat} {a : α} (h : c.Answered j a) (i : Nat) :
    (c.step i).Answered j a := by
  rcases c.step_cases i with heq | ⟨q, k, htask, heq⟩
  · rw [heq]
    exact h
  · have hne : i ≠ j := by
      rintro rfl
      rw [h] at htask
      cases htask
    rw [heq, Answered, List.getElem?_set_ne hne]
    exact h

theorem answered_run {c : Config σ A α} {j : Nat} {a : α} (h : c.Answered j a)
    (schedule : List Nat) : (c.run schedule).Answered j a := by
  induction schedule generalizing c with
  | nil => exact h
  | cons i schedule ih => exact ih (answered_step h i)

/-- **The termination rule.** A program that is picked as often as it has statements has
ended, whoever else is picked. -/
theorem answered_of_count {c : Config σ A α} {i n : Nat} {p : Prog A α}
    (hp : c.tasks[i]? = some p) (hends : p.EndsWithin n) {schedule : List Nat}
    (hcount : n ≤ schedule.count i) : ∃ a, (c.run schedule).Answered i a := by
  induction schedule generalizing c n p with
  | nil =>
      cases hends with
      | done => exact ⟨_, hp⟩
      | call hk => simp at hcount
  | cons j schedule ih =>
      by_cases hij : j = i
      · subst hij
        rw [List.count_cons_self] at hcount
        cases hends with
        | done => exact ⟨_, answered_run hp (j :: schedule)⟩
        | @call n q k hk =>
            rw [run_cons]
            refine ih (n := n) (p := k (Database.exec (A := A) q c.world.db).1) ?_ (hk _) (by omega)
            rw [step_call hp]
            exact List.getElem?_set_self (List.getElem?_eq_some_iff.mp hp).1
      · rw [List.count_cons_of_ne hij] at hcount
        exact ih ((step_task_of_ne c hij).trans hp) hends hcount

/-- Every step of the run meets a condition on the configuration it is taken in. -/
def Meets (ok : Config σ A α → Nat → Prop) (c : Config σ A α) : List Nat → Prop
  | [] => True
  | i :: schedule => ok c i ∧ (c.step i).Meets ok schedule

theorem meets_append {ok : Config σ A α → Nat → Prop} {c : Config σ A α} {s₁ s₂ : List Nat} :
    c.Meets ok (s₁ ++ s₂) ↔ c.Meets ok s₁ ∧ (c.run s₁).Meets ok s₂ := by
  induction s₁ generalizing c with
  | nil => simp [Meets]
  | cons i s₁ ih => simp [Meets, ih, and_assoc]

/-- **The run lemma.** What holds at the start and is kept by every step that meets the
condition holds after every run whose steps all meet it. -/
theorem run_induction {ok : Config σ A α → Nat → Prop} {P : Config σ A α → Prop}
    (hstep : ∀ c i, P c → ok c i → P (c.step i)) {c : Config σ A α} (h : P c)
    {schedule : List Nat} (hmeets : c.Meets ok schedule) : P (c.run schedule) := by
  induction schedule generalizing c with
  | nil => exact h
  | cons i schedule ih => exact ih (hstep c i h hmeets.1) hmeets.2

/-- A run that meets no condition in particular. -/
theorem meets_true (c : Config σ A α) (schedule : List Nat) :
    c.Meets (fun _ _ => True) schedule := by
  induction schedule generalizing c with
  | nil => trivial
  | cons i schedule ih => exact ⟨trivial, ih (c.step i)⟩

end Config

/-- **The invariant rule.** What every program of a pool preserves holds in every run. -/
theorem Config.run_preserves [Database σ A] {inv : σ → Prop} {c : Config σ A α}
    (hdb : inv c.world.db) (htasks : ∀ p ∈ c.tasks, p.Preserves inv) (schedule : List Nat) :
    inv (c.run schedule).world.db := by
  induction schedule generalizing c with
  | nil => exact hdb
  | cons i schedule ih =>
      rcases c.step_cases i with heq | ⟨q, k, htask, heq⟩
      · rw [run_cons, heq]
        exact ih hdb htasks
      · have hcall := htasks _ (List.mem_of_getElem? htask)
        cases hcall with
        | call hinv hrest =>
            rw [run_cons, heq]
            refine ih (hinv _ hdb) fun p hp => ?_
            rcases List.mem_or_eq_of_mem_set hp with hp | rfl
            · exact htasks p hp
            · exact hrest _ hdb

/-- What every statement keeps of a world holds in every run. -/
theorem Config.run_world [Database σ A] {P : World σ A → Prop}
    (hstep : ∀ w i q, P w → P (w.exec i q)) {c : Config σ A α} (h : P c.world)
    (schedule : List Nat) : P (c.run schedule).world := by
  induction schedule generalizing c with
  | nil => exact h
  | cons i schedule ih =>
      rw [run_cons]
      refine ih ?_
      rcases c.step_cases i with heq | ⟨q, k, -, heq⟩
      · rw [heq]
        exact h
      · rw [heq]
        exact hstep c.world i q h

/-! ## What a program does by itself -/

/-- The statements of one program, the latest first. -/
def World.own (w : World σ A) (i : Nat) : List (Event A) := w.log.filter fun e => e.task = i

theorem World.mem_own {w : World σ A} {i : Nat} {e : Event A} :
    e ∈ w.own i ↔ e ∈ w.log ∧ e.task = i := by
  simp [own]

/-- However the statements of program `i` are answered, what it has done and what is left of
it satisfy `Φ` at all times. `past` is what it has done so far. -/
inductive Prog.Always (Φ : List (Event A) → Prog A α → Prop) (i : Nat) :
    Prog A α → List (Event A) → Prop
  | done {a : α} {past : List (Event A)} (h : Φ past (.done a)) : Always Φ i (.done a) past
  | call {q : Q} {k : A q → Prog A α} {past : List (Event A)} (h : Φ past (.call q k))
      (hrest : ∀ a, Always Φ i (k a) (⟨i, q, a⟩ :: past)) : Always Φ i (.call q k) past

theorem Prog.Always.now {Φ : List (Event A) → Prog A α → Prop} {i : Nat} {p : Prog A α}
    {past : List (Event A)} (h : p.Always Φ i past) : Φ past p := by
  cases h with
  | done h => exact h
  | call h _ => exact h

theorem Prog.Always.imp {Φ Ψ : List (Event A) → Prog A α → Prop} {i : Nat} {p : Prog A α}
    {past : List (Event A)} (himp : ∀ past p, Φ past p → Ψ past p) (h : p.Always Φ i past) :
    p.Always Ψ i past := by
  induction h with
  | done h => exact .done (himp _ _ h)
  | call h _ ih => exact .call (himp _ _ h) ih

section Always

variable [Database σ A]

theorem World.own_exec_self (w : World σ A) (i : Nat) (q : Q) :
    (w.exec i q).own i = ⟨i, q, (Database.exec (A := A) q w.db).1⟩ :: w.own i := by
  simp [own]

theorem World.own_exec_of_ne (w : World σ A) {i j : Nat} (hne : i ≠ j) (q : Q) :
    (w.exec i q).own j = w.own j := by
  simp [own, hne]

/-- **The trace rule.** What a program does by itself, it does in every run. -/
theorem Config.run_always {Φ : List (Event A) → Prog A α → Prop} {c : Config σ A α} {i : Nat}
    {p : Prog A α} (hp : c.tasks[i]? = some p) (h : p.Always Φ i (c.world.own i))
    (schedule : List Nat) : ∃ p', (c.run schedule).tasks[i]? = some p' ∧
      p'.Always Φ i ((c.run schedule).world.own i) := by
  induction schedule generalizing c p with
  | nil => exact ⟨p, hp, h⟩
  | cons j schedule ih =>
      rcases c.step_cases j with heq | ⟨q, k, htask, heq⟩
      · rw [run_cons, heq]
        exact ih hp h
      · rw [run_cons, heq]
        by_cases hij : j = i
        · subst hij
          cases hp.symm.trans htask
          cases h with
          | call _ hrest =>
              refine ih (List.getElem?_set_self (List.getElem?_eq_some_iff.mp htask).1) ?_
              rw [World.own_exec_self]
              exact hrest _
        · refine ih (p := p) ((List.getElem?_set_ne hij).trans hp) ?_
          rw [World.own_exec_of_ne _ hij]
          exact h

theorem World.own_exec_ne_nil {w : World σ A} {i : Nat} (h : w.own i ≠ []) (j : Nat) (q : Q) :
    (w.exec j q).own i ≠ [] := by
  by_cases hij : j = i
  · subst hij
    rw [World.own_exec_self]
    exact List.cons_ne_nil _ _
  · rw [World.own_exec_of_ne _ hij]
    exact h

/-- What each program does by itself, it does after a step. -/
theorem Config.step_always {T : Nat → List (Event A) → Prog A α → Prop} {c : Config σ A α}
    (htasks : ∀ (i : Nat) (p : Prog A α), c.tasks[i]? = some p → p.Always (T i) i (c.world.own i))
    (i : Nat) {j : Nat} {p : Prog A α} (hp : (c.step i).tasks[j]? = some p) :
    p.Always (T j) j ((c.step i).world.own j) := by
  obtain ⟨p₀, hp₀, -⟩ := step_rest hp
  obtain ⟨p', hp', halways⟩ := Config.run_always hp₀ (htasks j p₀ hp₀) [i]
  rw [run_cons, run_nil] at hp' halways
  cases hp.symm.trans hp'
  exact halways

/-- **The invariant rule, with traces.** An invariant may rely on what each program does by
itself: at a step it is known of the program that takes it what it has done and what it is
about to do. -/
theorem Config.run_guarded {P : World σ A → Prop} {T : Nat → List (Event A) → Prog A α → Prop}
    {ok : Config σ A α → Nat → Prop}
    (hstep : ∀ (c : Config σ A α) (i : Nat) (q : Q) (k : A q → Prog A α), P c.world →
      c.tasks[i]? = some (.call q k) → T i (c.world.own i) (.call q k) → ok c i →
        P (c.world.exec i q))
    {c : Config σ A α} (h : P c.world)
    (htasks : ∀ (i : Nat) (p : Prog A α), c.tasks[i]? = some p →
      p.Always (T i) i (c.world.own i))
    {schedule : List Nat} (hmeets : c.Meets ok schedule) : P (c.run schedule).world := by
  induction schedule generalizing c with
  | nil => exact h
  | cons i schedule ih =>
      obtain ⟨hok, hmeets⟩ := hmeets
      refine ih ?_ (fun j p hp => ?_) hmeets
      · rcases c.step_cases i with heq | ⟨q, k, htask, heq⟩
        · rw [heq]
          exact h
        · rw [heq]
          exact hstep c i q k h htask (htasks i _ htask).now hok
      · exact Config.step_always htasks i hp

/-- A condition that can be evaluated can be evaluated along a run. -/
def Config.decidableMeets {ok : Config σ A α → Nat → Prop} [∀ c i, Decidable (ok c i)] :
    (c : Config σ A α) → (schedule : List Nat) → Decidable (c.Meets ok schedule)
  | _, [] => inferInstanceAs (Decidable True)
  | c, i :: schedule =>
      have : Decidable ((c.step i).Meets ok schedule) := (c.step i).decidableMeets schedule
      inferInstanceAs (Decidable (_ ∧ _))

instance {ok : Config σ A α → Nat → Prop} [∀ c i, Decidable (ok c i)] (c : Config σ A α)
    (schedule : List Nat) : Decidable (c.Meets ok schedule) := c.decidableMeets schedule

/-- A condition on a statement, the program that is about to issue it, and the database. -/
def Config.Next (ok : Nat → Q → σ → Prop) (c : Config σ A α) (i : Nat) : Prop :=
  match c.tasks[i]? with
  | some (.call q _) => ok i q c.world.db
  | _ => True

instance {ok : Nat → Q → σ → Prop} [∀ i q s, Decidable (ok i q s)] (c : Config σ A α) (i : Nat) :
    Decidable (c.Next ok i) := by
  unfold Config.Next
  exact match c.tasks[i]? with
  | some (.call q _) => inferInstanceAs (Decidable (ok i q c.world.db))
  | some (.done _) | none => inferInstanceAs (Decidable True)

omit [Database σ A] in
theorem Config.Next.ok {ok : Nat → Q → σ → Prop} {c : Config σ A α} {i : Nat} {q : Q}
    {k : A q → Prog A α} (h : c.Next ok i) (htask : c.tasks[i]? = some (.call q k)) :
    ok i q c.world.db := by
  unfold Next at h
  rw [htask] at h
  exact h

/-- A condition that follows from another at each step, by what the programs do by themselves,
follows along a run. -/
theorem Config.meets_guarded {T : Nat → List (Event A) → Prog A α → Prop}
    {ok : Config σ A α → Nat → Prop} {ok' : Nat → Q → σ → Prop}
    (hstep : ∀ (c : Config σ A α) (i : Nat) (q : Q) (k : A q → Prog A α),
      c.tasks[i]? = some (.call q k) → T i (c.world.own i) (.call q k) → ok c i →
        ok' i q c.world.db)
    {c : Config σ A α}
    (htasks : ∀ (i : Nat) (p : Prog A α), c.tasks[i]? = some p → p.Always (T i) i (c.world.own i))
    {schedule : List Nat} (hmeets : c.Meets ok schedule) :
    c.Meets (Config.Next ok') schedule := by
  induction schedule generalizing c with
  | nil => trivial
  | cons i schedule ih =>
      refine ⟨?_, ih (fun j p hp => Config.step_always htasks i hp) hmeets.2⟩
      unfold Next
      split
      · rename_i q k htask
        exact hstep c i q k htask (htasks i _ htask).now hmeets.1
      · trivial

/-- **The rule of exact conditions.** Where a statement keeps a property exactly if it meets a
condition, the property holds all along a run exactly if every statement meets it. -/
theorem Config.meets_iff_take {ok : Nat → Q → σ → Prop} {P : σ → Prop}
    (hexec : ∀ i q s, P s → (P (Database.exec (A := A) q s).2 ↔ ok i q s)) {c : Config σ A α}
    (h : P c.world.db) {schedule : List Nat} :
    (∀ n, P (c.run (schedule.take n)).world.db) ↔ c.Meets (Config.Next ok) schedule := by
  induction schedule generalizing c with
  | nil =>
      simp only [List.take_nil, run_nil, Meets, iff_true]
      exact fun _ => h
  | cons i schedule ih =>
      have hstep : P (c.step i).world.db ↔ c.Next ok i := by
        unfold step Next
        split
        · rename_i q k htask
          exact hexec i q _ h
        · exact iff_of_true h trivial
      constructor
      · intro hall
        have hnext : P (c.step i).world.db := hall 1
        exact ⟨hstep.mp hnext, (ih hnext).mp fun n => hall (n + 1)⟩
      · rintro ⟨hok, hmeets⟩ n
        cases n with
        | zero => exact h
        | succ n => exact (ih (hstep.mpr hok)).mpr hmeets n

/-- A run to a configuration, each of whose statements meets a condition. -/
def Config.Leads (ok : Nat → Q → σ → Prop) (c : Config σ A α) (schedule : List Nat)
    (c' : Config σ A α) : Prop :=
  c.Meets (Config.Next ok) schedule ∧ c.run schedule = c'

theorem Config.Leads.nil {ok : Nat → Q → σ → Prop} (c : Config σ A α) : c.Leads ok [] c :=
  ⟨trivial, rfl⟩

theorem Config.Leads.trans {ok : Nat → Q → σ → Prop} {c c' c'' : Config σ A α}
    {s₁ s₂ : List Nat} (h : c.Leads ok s₁ c') (h' : c'.Leads ok s₂ c'') :
    c.Leads ok (s₁ ++ s₂) c'' := by
  obtain ⟨hmeets, rfl⟩ := h
  obtain ⟨hmeets', rfl⟩ := h'
  exact ⟨meets_append.mpr ⟨hmeets, hmeets'⟩, run_append c s₁ s₂⟩

/-- One statement, and then the rest. -/
theorem Config.Leads.call {ok : Nat → Q → σ → Prop} {c' : Config σ A α} {s s' : σ}
    {log : List (Event A)} {tasks : List (Prog A α)} {schedule : List Nat} {i : Nat} {q : Q}
    {k : A q → Prog A α} {a : A q} {p : Prog A α} (htask : tasks[i]? = some p)
    (hp : p = .call q k) (hok : ok i q s) (hexec : Database.exec (A := A) q s = (a, s'))
    (hrest : Config.Leads ok ⟨⟨s', ⟨i, q, a⟩ :: log⟩, tasks.set i (k a)⟩ schedule c') :
    Config.Leads ok ⟨⟨s, log⟩, tasks⟩ (i :: schedule) c' := by
  subst hp
  have hstep : Config.step ⟨⟨s, log⟩, tasks⟩ i = ⟨⟨s', ⟨i, q, a⟩ :: log⟩, tasks.set i (k a)⟩ := by
    rw [Config.step_call htask]
    simp only [World.exec, hexec]
  have hnext : Config.Next ok (⟨⟨s, log⟩, tasks⟩ : Config σ A α) i := by
    unfold Next
    simp only [htask]
    exact hok
  rw [Leads, Config.run_cons, Meets, hstep]
  exact ⟨⟨hnext, hrest.1⟩, hrest.2⟩

omit [Database σ A] in
theorem Config.Next.imp {ok ok' : Nat → Q → σ → Prop} {c : Config σ A α} {i : Nat}
    (himp : ∀ q, ok i q c.world.db → ok' i q c.world.db) (h : c.Next ok i) : c.Next ok' i := by
  unfold Next at h ⊢
  split at h
  · exact himp _ h
  · trivial

/-- A stronger condition. -/
theorem Config.Meets.imp {ok ok' : Config σ A α → Nat → Prop} {c : Config σ A α}
    {schedule : List Nat} (himp : ∀ c i, ok c i → ok' c i) (h : c.Meets ok schedule) :
    c.Meets ok' schedule := by
  induction schedule generalizing c with
  | nil => trivial
  | cons i schedule ih => exact ⟨himp c i h.1, ih h.2⟩

/-- Until it has issued a statement, a program is what it was. -/
theorem Config.task_of_own_nil {c : Config σ A α} {i : Nat} {p : Prog A α}
    (hp : c.tasks[i]? = some p) {schedule : List Nat}
    (hnil : (c.run schedule).world.own i = []) : (c.run schedule).tasks[i]? = some p := by
  induction schedule generalizing c with
  | nil => exact hp
  | cons j schedule ih =>
      rcases c.step_cases j with heq | ⟨q, k, htask, heq⟩
      · rw [run_cons, heq] at hnil ⊢
        exact ih hp hnil
      · by_cases hij : j = i
        · -- what it has issued stays in the log
          subst hij
          have hstays : ((c.step j).run schedule).world.own j ≠ [] := by
            refine @run_world _ _ _ _ _ (fun w => w.own j ≠ [])
              (fun w l r hw => World.own_exec_ne_nil hw l r) _ ?_ schedule
            rw [heq, World.own_exec_self]
            exact List.cons_ne_nil _ _
          exact absurd hnil hstays
        · exact ih ((step_task_of_ne c hij).trans hp) hnil

/-- What has been executed was a program's. -/
theorem Config.task_lt_of_mem_log {c : Config σ A α}
    (h : ∀ e ∈ c.world.log, e.task < c.tasks.length) (schedule : List Nat) :
    ∀ e ∈ (c.run schedule).world.log, e.task < c.tasks.length := by
  induction schedule generalizing c with
  | nil => exact h
  | cons i schedule ih =>
      rw [run_cons, ← step_length c i]
      refine ih fun e he => ?_
      rw [step_length]
      rcases c.step_cases i with heq | ⟨q, k, htask, heq⟩
      · rw [heq] at he
        exact h e he
      · rw [heq] at he
        rcases List.mem_cons.mp he with rfl | he
        · exact (List.getElem?_eq_some_iff.mp htask).1
        · exact h e he

end Always

/-! ## Relying on the others -/

/-- What the programs of a pool promise each other: an invariant of the world, and a
relation between a world and what may become of it. The promise is only about steps whose
statement is `ok`. -/
structure Contract (σ : Type) {Q : Type} (A : Q → Type) where
  inv : World σ A → Prop
  rel : World σ A → World σ A → Prop
  /-- What is asked of the statement that a program is about to execute. -/
  ok : Nat → Q → World σ A → Prop
  refl : ∀ w, rel w w
  trans : ∀ {w₁ w₂ w₃}, rel w₁ w₂ → rel w₂ w₃ → rel w₁ w₃

variable [Database σ A]

/-- Program `i`, last seen in world `w`, keeps the contract, and ends only in worlds
where `post` holds of its answer. Before each of its statements the others may have
taken the world anywhere the contract allows. -/
def Prog.Keeps (C : Contract σ A) (post : α → World σ A → Prop) (i : Nat) :
    Prog A α → World σ A → Prop
  | .done a, w => post a w
  | .call q k, w => ∀ w', C.inv w' → C.rel w w' → C.ok i q w' →
      (C.inv (w'.exec i q) ∧ C.rel w' (w'.exec i q)) ∧
        (k (Database.exec (A := A) q w'.db).1).Keeps C post i (w'.exec i q)

/-- What one part keeps is where the next begins. -/
theorem Prog.Keeps.bind {C : Contract σ A} {mid : α → World σ A → Prop}
    {post : β → World σ A → Prop} {i : Nat} {p : Prog A α} {f : α → Prog A β} {w : World σ A}
    (h : p.Keeps C mid i w) (hf : ∀ a w', mid a w' → (f a).Keeps C post i w') :
    (p.bind f).Keeps C post i w := by
  induction p generalizing w with
  | done a => exact hf a w h
  | call q k ih =>
      intro w' hinv hrel hok
      obtain ⟨hstep, hrest⟩ := h w' hinv hrel hok
      exact ⟨hstep, ih _ hrest⟩

/-- The step that a scheduler is about to take is `ok`. -/
def Contract.Allows (C : Contract σ A) (c : Config σ A α) (i : Nat) : Prop :=
  ∀ q k, c.tasks[i]? = some (.call q k) → C.ok i q c.world

/-- The contract holds of a configuration: its world satisfies the invariant, and each
program keeps the contract from a world that this one has come from. -/
structure Contract.Holds (C : Contract σ A) (post : Nat → α → World σ A → Prop)
    (c : Config σ A α) : Prop where
  inv : C.inv c.world
  keeps : ∀ i (p : Prog A α), c.tasks[i]? = some p →
    ∃ w, C.rel w c.world ∧ p.Keeps C (post i) i w

namespace Contract

variable {C : Contract σ A} {post : Nat → α → World σ A → Prop}

/-- One allowed step keeps the contract, and leads where the contract says. -/
theorem step {c : Config σ A α} (h : C.Holds post c) {i : Nat} (hok : C.Allows c i) :
    C.Holds post (c.step i) ∧ C.rel c.world (c.step i).world := by
  rcases c.step_cases i with heq | ⟨q, k, htask, heq⟩
  · rw [heq]
    exact ⟨h, C.refl c.world⟩
  · obtain ⟨w, hrel, hkeeps⟩ := h.keeps i _ htask
    obtain ⟨⟨hinv, hstep⟩, hrest⟩ := hkeeps c.world h.inv hrel (hok q k htask)
    rw [heq]
    refine ⟨⟨hinv, fun j p hp => ?_⟩, hstep⟩
    rw [List.getElem?_set] at hp
    split at hp
    · -- the program that took the step
      rename_i hij
      split at hp
      · cases hp
        subst hij
        exact ⟨_, C.refl _, hrest⟩
      · cases hp
    · obtain ⟨v, hv, hp'⟩ := h.keeps j p hp
      exact ⟨v, C.trans hv hstep, hp'⟩

/-- **The interleaving rule.** A pool that keeps a contract keeps it in every run whose
steps the contract allows. -/
theorem run {c : Config σ A α} (h : C.Holds post c) {schedule : List Nat}
    (hmeets : c.Meets C.Allows schedule) :
    C.Holds post (c.run schedule) ∧ C.rel c.world (c.run schedule).world := by
  induction schedule generalizing c with
  | nil => exact ⟨h, C.refl c.world⟩
  | cons i schedule ih =>
      obtain ⟨hnext, hrel⟩ := step h hmeets.1
      obtain ⟨hend, hrest⟩ := ih hnext hmeets.2
      exact ⟨hend, C.trans hrel hrest⟩

/-- A program that has ended did so in a world where its postcondition held. -/
theorem Holds.answered {c : Config σ A α} (h : C.Holds post c) {i : Nat} {a : α}
    (ha : c.Answered i a) : ∃ w, C.rel w c.world ∧ post i a w :=
  h.keeps i _ ha

/-- A pool of programs at the start, each of which keeps the contract from there. -/
theorem Holds.start {s : σ} {tasks : List (Prog A α)} (hinv : C.inv ⟨s, []⟩)
    (hkeeps : ∀ i (p : Prog A α), tasks[i]? = some p → p.Keeps C (post i) i ⟨s, []⟩) :
    C.Holds post (Config.start s tasks) where
  inv := hinv
  keeps := fun i p hp => ⟨_, C.refl _, hkeeps i p hp⟩

end Contract

/-! ## Relying on what one has seen

Here what a program relies on may be its own affair: `rel i` is what the others may make of a
world that program `i` has last seen, its own statements among it. -/

/-- A condition on a statement, the program that is about to issue it, and the world. -/
def Config.NextIn (ok : Nat → Q → World σ A → Prop) (c : Config σ A α) (i : Nat) : Prop :=
  match c.tasks[i]? with
  | some (.call q _) => ok i q c.world
  | _ => True

omit [Database σ A] in
theorem Config.NextIn.ok {ok : Nat → Q → World σ A → Prop} {c : Config σ A α} {i : Nat} {q : Q}
    {k : A q → Prog A α} (h : c.NextIn ok i) (htask : c.tasks[i]? = some (.call q k)) :
    ok i q c.world := by
  unfold NextIn at h
  rw [htask] at h
  exact h

instance {ok : Nat → Q → World σ A → Prop} [∀ i q w, Decidable (ok i q w)] (c : Config σ A α)
    (i : Nat) : Decidable (c.NextIn ok i) := by
  unfold Config.NextIn
  exact match c.tasks[i]? with
  | some (.call q _) => inferInstanceAs (Decidable (ok i q c.world))
  | some (.done _) | none => inferInstanceAs (Decidable True)

/-- Program `i`, last seen in world `w`, ends only in worlds where `post` holds of its answer. -/
def Prog.Upholds (inv : World σ A → Prop) (rel : World σ A → World σ A → Prop)
    (ok : Q → World σ A → Prop) (post : α → World σ A → Prop) (i : Nat) :
    Prog A α → World σ A → Prop
  | .done a, w => post a w
  | .call q k, w => ∀ w', inv w' → rel w w' → ok q w' →
      (k (Database.exec (A := A) q w'.db).1).Upholds inv rel ok post i (w'.exec i q)

/-- What one part upholds is where the next begins. -/
theorem Prog.Upholds.bind {inv : World σ A → Prop} {rel : World σ A → World σ A → Prop}
    {ok : Q → World σ A → Prop} {mid : α → World σ A → Prop} {post : β → World σ A → Prop}
    {i : Nat} {p : Prog A α} {f : α → Prog A β} {w : World σ A}
    (h : p.Upholds inv rel ok mid i w)
    (hf : ∀ a w', mid a w' → (f a).Upholds inv rel ok post i w') :
    (p.bind f).Upholds inv rel ok post i w := by
  induction p generalizing w with
  | done a => exact hf a w h
  | call q k ih =>
      intro w' hinv hrel hok
      exact ih _ (h w' hinv hrel hok)

theorem Prog.Upholds.imp {inv : World σ A → Prop} {rel : World σ A → World σ A → Prop}
    {ok : Q → World σ A → Prop} {post post' : α → World σ A → Prop} {i : Nat} {p : Prog A α}
    {w : World σ A} (himp : ∀ a w, post a w → post' a w) (h : p.Upholds inv rel ok post i w) :
    p.Upholds inv rel ok post' i w := by
  induction p generalizing w with
  | done a => exact himp a w h
  | call q k ih =>
      intro w' hinv hrel hok
      exact ih _ (h w' hinv hrel hok)

/-- **The rely rule.** Where every statement that is `ok` keeps the invariant, and is one that
the other programs may rely on, each program ends as it upholds. -/
theorem Config.run_upholds {inv : World σ A → Prop} {rel : Nat → World σ A → World σ A → Prop}
    {ok : Nat → Q → World σ A → Prop} {post : Nat → α → World σ A → Prop}
    (hrefl : ∀ i w, rel i w w)
    (htrans : ∀ i w₁ w₂ w₃, rel i w₁ w₂ → rel i w₂ w₃ → rel i w₁ w₃)
    (hinv : ∀ i q w, inv w → ok i q w → inv (w.exec i q))
    (hrel : ∀ i j q w, i ≠ j → rel j w (w.exec i q)) {c : Config σ A α} (hstart : inv c.world)
    (htasks : ∀ (i : Nat) (p : Prog A α), c.tasks[i]? = some p →
      ∃ w, rel i w c.world ∧ p.Upholds inv (rel i) (ok i) (post i) i w)
    {schedule : List Nat} (hmeets : c.Meets (Config.NextIn ok) schedule) :
    inv (c.run schedule).world ∧ ∀ (i : Nat) (a : α), (c.run schedule).Answered i a →
      ∃ w, rel i w (c.run schedule).world ∧ post i a w := by
  induction schedule generalizing c with
  | nil => exact ⟨hstart, fun i a ha => htasks i _ ha⟩
  | cons i schedule ih =>
      obtain ⟨hok, hmeets⟩ := hmeets
      refine ih ?_ (fun j p hp => ?_) hmeets
      · rcases c.step_cases i with heq | ⟨q, k, htask, heq⟩
        · rw [heq]
          exact hstart
        · rw [heq]
          exact hinv i q c.world hstart (hok.ok htask)
      · rcases c.step_cases i with heq | ⟨q, k, htask, heq⟩
        · rw [heq] at hp ⊢
          exact htasks j p hp
        · rw [heq] at hp ⊢
          by_cases hij : i = j
          · -- the program that has taken the step
            subst hij
            obtain ⟨w, hw, hupholds⟩ := htasks i _ htask
            rw [List.getElem?_set_self (List.getElem?_eq_some_iff.mp htask).1] at hp
            cases hp
            exact ⟨_, hrefl i _, hupholds c.world hstart hw (hok.ok htask)⟩
          · rw [List.getElem?_set_ne hij] at hp
            obtain ⟨w, hw, hupholds⟩ := htasks j p hp
            exact ⟨w, htrans j _ _ _ hw (hrel i j q c.world hij), hupholds⟩

end Lib
