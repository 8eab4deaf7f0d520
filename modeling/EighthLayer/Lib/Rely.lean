import EighthLayer.Lib.Interleave

/-!
# EighthLayer.Lib.Rely

Programs side by side, each of which relies on something of its own.

A program may count on what the others leave alone: what only it writes is as it has left it.
`Reliance` has such a relation for each program; a program owes every other one the relation that
this one counts on, and all of them an invariant of the world.

`Prog.Traces` is about what a program does by itself, with what holds at its end, so that it can
be followed through the parts of a program.
-/

namespace Lib

variable {Q : Type} {A : Q → Type} {σ α β : Type}

/-! ## Reliance -/

/-- An invariant of the world, and for each program a relation between a world and what the others
may make of it. -/
structure Reliance (σ : Type) {Q : Type} (A : Q → Type) where
  inv : World σ A → Prop
  rel : Nat → World σ A → World σ A → Prop
  refl : ∀ i w, rel i w w
  trans : ∀ {i w₁ w₂ w₃}, rel i w₁ w₂ → rel i w₂ w₃ → rel i w₁ w₃

variable [Database σ A]

/-- Program `i`, last seen in world `w`, keeps the invariant and what the others rely on, and ends
only in worlds where `post` holds of its answer. -/
def Prog.Serves (R : Reliance σ A) (post : α → World σ A → Prop) (i : Nat) :
    Prog A α → World σ A → Prop
  | .done a, w => post a w
  | .call q k, w => ∀ w', R.inv w' → R.rel i w w' →
      (R.inv (w'.exec i q) ∧ ∀ j, j ≠ i → R.rel j w' (w'.exec i q)) ∧
        (k (Database.exec (A := A) q w'.db).1).Serves R post i (w'.exec i q)

/-- What one part serves is where the next begins. -/
theorem Prog.Serves.bind {R : Reliance σ A} {mid : α → World σ A → Prop}
    {post : β → World σ A → Prop} {i : Nat} {p : Prog A α} {f : α → Prog A β} {w : World σ A}
    (h : p.Serves R mid i w) (hf : ∀ a w', mid a w' → (f a).Serves R post i w') :
    (p.bind f).Serves R post i w := by
  induction p generalizing w with
  | done a => exact hf a w h
  | call q k ih =>
      intro w' hinv hrel
      obtain ⟨hstep, hrest⟩ := h w' hinv hrel
      exact ⟨hstep, ih _ hrest⟩

/-- A world that satisfies the invariant, and programs that serve from a world which they have
relied on since. -/
structure Reliance.Holds (R : Reliance σ A) (post : Nat → α → World σ A → Prop)
    (c : Config σ A α) : Prop where
  inv : R.inv c.world
  serves : ∀ i (p : Prog A α), c.tasks[i]? = some p →
    ∃ w, R.rel i w c.world ∧ p.Serves R (post i) i w

namespace Reliance

variable {R : Reliance σ A} {post : Nat → α → World σ A → Prop}

theorem step {c : Config σ A α} (h : R.Holds post c) (i : Nat) : R.Holds post (c.step i) := by
  rcases c.step_cases i with heq | ⟨q, k, htask, heq⟩
  · rw [heq]
    exact h
  · obtain ⟨w, hrel, hserves⟩ := h.serves i _ htask
    obtain ⟨⟨hinv, hothers⟩, hrest⟩ := hserves c.world h.inv hrel
    rw [heq]
    refine ⟨hinv, fun j p hp => ?_⟩
    by_cases hij : i = j
    · subst hij
      rw [List.getElem?_set_self (List.getElem?_eq_some_iff.mp htask).1] at hp
      cases hp
      exact ⟨_, R.refl i _, hrest⟩
    · rw [List.getElem?_set_ne hij] at hp
      obtain ⟨v, hv, hp'⟩ := h.serves j p hp
      exact ⟨v, R.trans hv (hothers j (Ne.symm hij)), hp'⟩

/-- **The rule of reliance.** Programs that serve each other do so in every run. -/
theorem run {c : Config σ A α} (h : R.Holds post c) (schedule : List Nat) :
    R.Holds post (c.run schedule) := by
  induction schedule generalizing c with
  | nil => exact h
  | cons i schedule ih => exact ih (step h i)

end Reliance

/-! ## Traces -/

omit [Database σ A]

/-- However the statements of program `i` are answered, what it has done satisfies `Φ` at all
times, and `Ψ` at the end. -/
def Prog.Traces (Φ : List (Event A) → Prop) (Ψ : α → List (Event A) → Prop) (i : Nat) :
    Prog A α → List (Event A) → Prop
  | .done a, past => Φ past ∧ Ψ a past
  | .call q k, past => Φ past ∧ ∀ a, (k a).Traces Φ Ψ i (⟨i, q, a⟩ :: past)

namespace Prog.Traces

variable {Φ : List (Event A) → Prop} {i : Nat} {past : List (Event A)}

theorem bind {Ψ : α → List (Event A) → Prop} {Ψ' : β → List (Event A) → Prop} {p : Prog A α}
    {f : α → Prog A β} (h : p.Traces Φ Ψ i past)
    (hf : ∀ a past', Ψ a past' → (f a).Traces Φ Ψ' i past') :
    (p.bind f).Traces Φ Ψ' i past := by
  induction p generalizing past with
  | done a => exact hf a past h.2
  | call q k ih => exact ⟨h.1, fun a => ih a (h.2 a)⟩

theorem always {Ψ : α → List (Event A) → Prop} {p : Prog A α} (h : p.Traces Φ Ψ i past) :
    p.Always (fun past _ => Φ past) i past := by
  induction p generalizing past with
  | done a => exact .done h.1
  | call q k ih => exact .call h.1 fun a => ih a (h.2 a)

end Prog.Traces

/-- What a program has done in a run satisfies what it satisfies by itself. -/
theorem Config.run_traces [Database σ A] {Φ : List (Event A) → Prop}
    {Ψ : α → List (Event A) → Prop} {c : Config σ A α} {i : Nat} {p : Prog A α}
    (hp : c.tasks[i]? = some p) (h : p.Traces Φ Ψ i (c.world.own i)) (schedule : List Nat) :
    Φ ((c.run schedule).world.own i) := by
  obtain ⟨p', -, halways⟩ := run_always hp h.always schedule
  exact halways.now

end Lib
