import Mathlib.Data.List.Basic

/-!
# EighthLayer.Lib.Savepoint

One connection to a transactional store with nested savepoints, as SQLite has
them: what is committed, what the connection sees, and the stack of open
savepoints with the contents each would restore. A savepoint opened outside a
transaction starts one, and releasing it commits.

`D` is the contents of the store. The two facts a program that brackets its
writes in a savepoint relies on are `abandon` (`rollback to` and `release` leave
the connection as it was before the bracket) and `keep` (`release` alone leaves
everything but the writes as it was). `Holds` lifts a predicate on contents to
everything the connection could still restore or publish.
-/

namespace Lib

/-- How the current transaction was started, if there is one. -/
inductive Tx where
  | none
  | begun
  /-- Started by the outermost savepoint; releasing that one commits. -/
  | savepoint
deriving DecidableEq

/-- A connection. Outside a transaction it sees the committed contents and has
no open savepoint; a transaction that a savepoint started ends with it. -/
structure Conn (D : Type) where
  committed : D
  current : D
  tx : Tx
  /-- Open savepoints, innermost first, with the contents at their opening. -/
  savepoints : List (String × D)
  idle : tx = .none → current = committed ∧ savepoints = []
  opened : tx = .savepoint → savepoints ≠ []

namespace Conn

variable {D : Type}

theorem ext {c c' : Conn D} (hcommitted : c.committed = c'.committed)
    (hcurrent : c.current = c'.current) (htx : c.tx = c'.tx)
    (hsp : c.savepoints = c'.savepoints) : c = c' := by
  cases c
  cases c'
  simp_all

/-- A fresh connection to contents `d`. -/
def fresh (d : D) : Conn D := ⟨d, d, .none, [], fun _ => ⟨rfl, rfl⟩, fun h => by cases h⟩

/-- `BEGIN`; a no-op inside a transaction. -/
def begin (c : Conn D) : Conn D :=
  if h : c.tx = .none then { c with tx := .begun, idle := by simp, opened := by simp } else c

/-- A statement that changes the contents. It starts a transaction when there is
none, as Python's driver does. -/
def write (c : Conn D) (f : D → D) : Conn D where
  committed := c.committed
  current := f c.current
  tx := if c.tx = .none then .begun else c.tx
  savepoints := c.savepoints
  idle := by split <;> simp_all
  opened := by
    intro h
    split at h
    · cases h
    · exact c.opened h

/-- `SAVEPOINT name`. -/
def savepoint (c : Conn D) (name : String) : Conn D where
  committed := c.committed
  current := c.current
  tx := if c.tx = .none then .savepoint else c.tx
  savepoints := (name, c.current) :: c.savepoints
  idle := by split <;> simp_all
  opened := fun _ => List.cons_ne_nil _ _

/-- The innermost savepoint of a name, with the ones around it. -/
def find (name : String) : List (String × D) → Option (D × List (String × D))
  | [] => none
  | (n, d) :: rest => if n = name then some (d, rest) else find name rest

/-- `ROLLBACK TO name`: the contents at its opening; the savepoint stays open.
`none` is the error of a name that is not open. -/
def rollbackTo (c : Conn D) (name : String) : Option (Conn D) :=
  match h : find name c.savepoints with
  | none => none
  | some (d, rest) => some
      { committed := c.committed, current := d, tx := c.tx, savepoints := (name, d) :: rest
        idle := fun htx => by rw [(c.idle htx).2] at h; cases h
        opened := fun _ => List.cons_ne_nil _ _ }

/-- `COMMIT`. -/
def commit (c : Conn D) : Conn D := fresh c.current

/-- `ROLLBACK`. -/
def rollback (c : Conn D) : Conn D := fresh c.committed

/-- `RELEASE name`: forget the savepoint and the ones inside it. Releasing the
one that started the transaction commits. -/
def release (c : Conn D) (name : String) : Option (Conn D) :=
  match h : find name c.savepoints with
  | none => none
  | some (_, rest) =>
    if hout : c.tx = .savepoint ∧ rest = [] then some c.commit
    else some
      { committed := c.committed, current := c.current, tx := c.tx, savepoints := rest
        idle := fun htx => by rw [(c.idle htx).2] at h; cases h
        opened := fun htx hnil => hout ⟨htx, hnil⟩ }

/-! ### Bracketed writes -/

theorem find_head (name : String) (d : D) (rest : List (String × D)) :
    find name ((name, d) :: rest) = some (d, rest) := if_pos rfl

theorem rollbackTo_of_find {c : Conn D} {name : String} {d : D} {rest : List (String × D)}
    (h : find name c.savepoints = some (d, rest)) : ∃ c', c.rollbackTo name = some c' ∧
      c'.committed = c.committed ∧ c'.current = d ∧ c'.tx = c.tx ∧
      c'.savepoints = (name, d) :: rest := by
  unfold rollbackTo
  split
  · next hnone => rw [h] at hnone; cases hnone
  · next d' rest' hsome =>
      rw [h] at hsome
      cases hsome
      exact ⟨_, rfl, rfl, rfl, rfl, rfl⟩

theorem release_of_find {c : Conn D} {name : String} {d : D} {rest : List (String × D)}
    (h : find name c.savepoints = some (d, rest)) : ∃ c', c.release name = some c' ∧
      c'.current = c.current ∧
      ((c.tx = .savepoint ∧ rest = [] ∧ c' = c.commit) ∨
        (¬ (c.tx = .savepoint ∧ rest = []) ∧ c'.committed = c.committed ∧ c'.tx = c.tx ∧
          c'.savepoints = rest)) := by
  unfold release
  split
  · next hnone => rw [h] at hnone; cases hnone
  · next d' rest' hsome =>
      rw [h] at hsome
      cases hsome
      split
      · next hout => exact ⟨_, rfl, rfl, .inl ⟨hout.1, hout.2, rfl⟩⟩
      · next hin => exact ⟨_, rfl, rfl, .inr ⟨hin, rfl, rfl, rfl⟩⟩

/-- Inside a bracket: opened from `c`, with contents `d` written since. -/
structure Bracket (c : Conn D) (name : String) (d : D) (c' : Conn D) : Prop where
  committed : c'.committed = c.committed
  current : c'.current = d
  tx : c'.tx = if c.tx = .none then .savepoint else c.tx
  savepoints : c'.savepoints = (name, c.current) :: c.savepoints

theorem bracket_savepoint (c : Conn D) (name : String) :
    Bracket c name c.current (c.savepoint name) := ⟨rfl, rfl, rfl, rfl⟩

theorem Bracket.write {c c' : Conn D} {name : String} {d : D} (h : Bracket c name d c')
    (f : D → D) : Bracket c name (f d) (c'.write f) where
  committed := h.committed
  current := by rw [← h.current]; rfl
  tx := by
    have htx : c'.tx ≠ .none := by rw [h.tx]; split <;> simp_all
    rw [← h.tx]
    exact if_neg htx
  savepoints := h.savepoints

/-- **Abandoning a bracket** leaves the connection as it was. -/
theorem Bracket.abandon {c c' : Conn D} {name : String} {d : D} (h : Bracket c name d c') :
    (c'.rollbackTo name).bind (·.release name) = some c := by
  have hfind : find name c'.savepoints = some (c.current, c.savepoints) := by
    rw [h.savepoints, find_head]
  obtain ⟨c₁, h₁, hcommitted, hcurrent, htx, hsp⟩ := rollbackTo_of_find hfind
  have hfind₁ : find name c₁.savepoints = some (c.current, c.savepoints) := by
    rw [hsp, find_head]
  obtain ⟨c₂, h₂, hcurrent₂, hout | hin⟩ := release_of_find hfind₁
  · obtain ⟨htxsp, hnil, rfl⟩ := hout
    rw [h₁, Option.bind_some, h₂]
    congr 1
    rw [htx, h.tx] at htxsp
    split at htxsp
    · next hnone =>
        obtain ⟨hidle, -⟩ := c.idle hnone
        exact Conn.ext (by rw [← hidle]; exact hcurrent) hcurrent hnone.symm hnil.symm
    · exact absurd hnil (c.opened htxsp)
  · obtain ⟨hin, hcommitted₂, htx₂, hsp₂⟩ := hin
    rw [h₁, Option.bind_some, h₂]
    congr 1
    have htxc : c₁.tx = c.tx := by
      rw [htx, h.tx]
      split
      · next hnone => exact absurd ⟨by rw [htx, h.tx, if_pos hnone], (c.idle hnone).2⟩ hin
      · rfl
    exact Conn.ext (by rw [hcommitted₂, hcommitted, h.committed]) (by rw [hcurrent₂, hcurrent])
      (by rw [htx₂, htxc]) hsp₂

/-- **Keeping a bracket** leaves the connection as if its writes had been made
outside it: published at once when there was no transaction, pending otherwise. -/
theorem Bracket.keep {c c' : Conn D} {name : String} {d : D} (h : Bracket c name d c') :
    ∃ c'', c'.release name = some c'' ∧ c''.current = d ∧ c''.tx = c.tx ∧
      c''.savepoints = c.savepoints ∧
      c''.committed = if c.tx = .none then d else c.committed := by
  have hfind : find name c'.savepoints = some (c.current, c.savepoints) := by
    rw [h.savepoints, find_head]
  obtain ⟨c₂, h₂, hcurrent₂, hout | hin⟩ := release_of_find hfind
  · obtain ⟨htxsp, hnil, rfl⟩ := hout
    rw [h.tx] at htxsp
    split at htxsp
    · next hnone =>
        exact ⟨_, h₂, h.current, hnone.symm, hnil.symm, by rw [if_pos hnone]; exact h.current⟩
    · exact absurd hnil (c.opened htxsp)
  · obtain ⟨hin, hcommitted₂, htx₂, hsp₂⟩ := hin
    have hne : c.tx ≠ .none := fun hnone => hin ⟨by rw [h.tx, if_pos hnone], (c.idle hnone).2⟩
    refine ⟨c₂, h₂, by rw [hcurrent₂, h.current], by rw [htx₂, h.tx, if_neg hne], hsp₂, ?_⟩
    rw [hcommitted₂, h.committed, if_neg hne]

/-! ### Predicates on everything a connection may publish or restore -/

/-- `P` of the committed contents, the current ones and those of every open savepoint. -/
structure Holds (P : D → Prop) (c : Conn D) : Prop where
  committed : P c.committed
  current : P c.current
  savepoints : ∀ s ∈ c.savepoints, P s.2

variable {P : D → Prop} {c : Conn D}

theorem holds_fresh {d : D} (h : P d) : Holds P (fresh d) := ⟨h, h, by simp [fresh]⟩

theorem Holds.begin (h : Holds P c) : Holds P c.begin := by
  unfold Conn.begin
  split
  · exact ⟨h.committed, h.current, h.savepoints⟩
  · exact h

theorem Holds.write (h : Holds P c) {f : D → D} (hf : P (f c.current)) : Holds P (c.write f) :=
  ⟨h.committed, hf, h.savepoints⟩

theorem Holds.savepoint (h : Holds P c) (name : String) : Holds P (c.savepoint name) :=
  ⟨h.committed, h.current, fun s hs => by
    rcases List.mem_cons.mp hs with rfl | hs
    · exact h.current
    · exact h.savepoints s hs⟩

theorem Holds.commit (h : Holds P c) : Holds P c.commit := holds_fresh h.current

theorem Holds.rollback (h : Holds P c) : Holds P c.rollback := holds_fresh h.committed

/-- What `find` returns was on the stack. -/
theorem mem_of_find {name : String} {d : D} {rest : List (String × D)} :
    ∀ {l : List (String × D)}, find name l = some (d, rest) →
      (∃ n, (n, d) ∈ l) ∧ ∀ s ∈ rest, s ∈ l
  | (n, d') :: l, h => by
      rw [find] at h
      split at h
      · cases h
        exact ⟨⟨n, List.mem_cons_self ..⟩, fun s hs => List.mem_cons_of_mem _ hs⟩
      · obtain ⟨⟨m, hm⟩, hrest⟩ := mem_of_find h
        exact ⟨⟨m, List.mem_cons_of_mem _ hm⟩, fun s hs => List.mem_cons_of_mem _ (hrest s hs)⟩

theorem Holds.rollbackTo (h : Holds P c) {name : String} {c' : Conn D}
    (hc : c.rollbackTo name = some c') : Holds P c' := by
  unfold Conn.rollbackTo at hc
  split at hc
  · cases hc
  · next d rest hfind =>
      cases hc
      obtain ⟨⟨n, hn⟩, hrest⟩ := mem_of_find hfind
      have hd : P d := h.savepoints _ hn
      refine ⟨h.committed, hd, fun s hs => ?_⟩
      rcases List.mem_cons.mp hs with rfl | hs
      · exact hd
      · exact h.savepoints s (hrest s hs)

theorem Holds.release (h : Holds P c) {name : String} {c' : Conn D}
    (hc : c.release name = some c') : Holds P c' := by
  unfold Conn.release at hc
  split at hc
  · cases hc
  · next d rest hfind =>
      split at hc
      · cases hc
        exact h.commit
      · cases hc
        exact ⟨h.committed, h.current, fun s hs => h.savepoints s ((mem_of_find hfind).2 s hs)⟩

end Conn

end Lib
