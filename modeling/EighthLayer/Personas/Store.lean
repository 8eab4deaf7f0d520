import EighthLayer.Lib.Interleave
import EighthLayer.Lib.Table

/-!
# EighthLayer.Personas.Store

The table `persona_assignments` with its audit trail, and the statements of the persona routes.

An update and its row of the audit trail are one transaction, and so one statement here.
Times are instants.
-/

namespace EighthLayer.Personas

open Lib

/-! ## Rows -/

/-- `PersonaEnum`. -/
inductive Persona where
  | admin
  | viewer
  | agent
  | externalCollaborator
deriving DecidableEq

/-- A row of `persona_assignments`. -/
structure Assignment where
  username : String
  persona : Persona
  assignedAt : Int
  assignedBy : String
  disabledAt : Option Int
deriving DecidableEq

/-- What `count_active_admins` counts. -/
def Assignment.activeAdmin (a : Assignment) : Bool := a.persona = .admin && a.disabledAt = none

theorem Assignment.activeAdmin_iff {a : Assignment} :
    a.activeAdmin = true ↔ a.persona = .admin ∧ a.disabledAt = none := by
  simp [activeAdmin]

/-- The column `action` of the audit trail. -/
inductive AuditAction where
  | created
  | changed
  | disabled
  | enabled
deriving DecidableEq

/-- A row of `persona_assignment_audit`. -/
structure AuditRow where
  username : String
  oldPersona : Option Persona
  newPersona : Option Persona
  changedBy : String
  changedAt : Int
  action : AuditAction
deriving DecidableEq

/-- A row of `users`. -/
structure User where
  username : String
  passwordHash : String
  role : String
  email : Option String
deriving DecidableEq

/-! ## The store -/

/-- The tables and the clock; whoever has an assignment is a user. -/
structure PersonaStore where
  clock : Int
  users : Table User.username
  assignments : Table Assignment.username
  audit : List AuditRow
  assigned_user : ∀ a ∈ assignments, users.find a.username ≠ none

namespace PersonaStore

/-- `count_active_admins`. -/
def countActiveAdmins (s : PersonaStore) : Nat := s.assignments.rows.countP Assignment.activeAdmin

/-- `count_invites_by_admin`. -/
def countInvitesByAdmin (s : PersonaStore) (admin : String) (since : Int) : Nat :=
  s.assignments.rows.countP fun a => a.assignedBy = admin && since ≤ a.assignedAt

/-- Time passes. -/
def tick (s : PersonaStore) (d : Nat) : PersonaStore := { s with clock := s.clock + d }

/-- `create_user`; `none` when the username is taken (`IntegrityError`). -/
def createUser (s : PersonaStore) (username passwordHash : String) : Option PersonaStore :=
  match h : s.users.insert ⟨username, passwordHash, "user", none⟩ with
  | none => none
  | some users => some
      { s with
        users
        assigned_user := by
          intro a ha
          obtain ⟨u, hu⟩ := Option.ne_none_iff_exists'.mp (s.assigned_user a ha)
          rw [Table.find_insert_of_some h hu]
          exact Option.some_ne_none u }

/-- `set_user_email`. -/
def setUserEmail (s : PersonaStore) (username email : String) : PersonaStore :=
  { s with
    users := s.users.update (fun u => u.username = username)
      (fun u => { u with email := some email }) fun _ => rfl
    assigned_user := by
      intro a ha
      obtain ⟨u, hu⟩ := Option.ne_none_iff_exists'.mp (s.assigned_user a ha)
      rw [Table.find_update, hu]
      exact Option.some_ne_none _ }

/-- `upsert_persona_assignment`; `none` when the username is no user's (`IntegrityError`). -/
def upsert (s : PersonaStore) (username : String) (persona : Persona) (assignedAt : Int)
    (assignedBy : String) (action : AuditAction) (oldPersona : Option Persona) :
    Option PersonaStore :=
  if huser : s.users.find username = none then none
  else some
    { s with
      assignments := s.assignments.upsert ⟨username, persona, assignedAt, assignedBy, none⟩
      audit := s.audit ++ [⟨username, oldPersona, some persona, assignedBy, s.clock, action⟩]
      assigned_user := by
        intro a ha
        rcases Table.mem_upsert.mp ha with rfl | ⟨ha, -⟩
        · exact huser
        · exact s.assigned_user a ha }

/-- `disable_persona_assignment`. -/
def disable (s : PersonaStore) (username : String) (disabledAt : Int) (changedBy : String)
    (oldPersona : Option Persona) : PersonaStore :=
  { s with
    assignments := s.assignments.update (fun a => a.username = username)
      (fun a => { a with disabledAt := some disabledAt }) fun _ => rfl
    audit := s.audit ++ [⟨username, oldPersona, none, changedBy, s.clock, .disabled⟩]
    assigned_user := by
      intro a ha
      obtain ⟨r, hr, rfl⟩ := Table.mem_update.mp ha
      have hname : ∀ r : Assignment, (if r.username = username then
          { r with disabledAt := some disabledAt } else r).username = r.username := by
        intro r
        split
        · rfl
        · rfl
      simp only [decide_eq_true_eq]
      rw [hname]
      exact s.assigned_user r hr }

theorem mem_disable {s : PersonaStore} {username changedBy : String} {disabledAt : Int}
    {oldPersona : Option Persona} {a : Assignment} :
    a ∈ (s.disable username disabledAt changedBy oldPersona).assignments ↔
      ∃ r ∈ s.assignments, (if r.username = username then
        { r with disabledAt := some disabledAt } else r) = a := by
  unfold disable
  simp only [Table.mem_update, decide_eq_true_eq]

end PersonaStore

/-! ## The statements -/

/-- The statements of the persona routes. -/
inductive PersonaStmt where
  | tick (d : Nat)
  | readClock
  | getUser (username : String)
  | getAssignment (username : String)
  | countActiveAdmins
  | countInvitesByAdmin (admin : String) (since : Int)
  | createUser (username passwordHash : String)
  | setUserEmail (username email : String)
  | upsert (username : String) (persona : Persona) (assignedAt : Int) (assignedBy : String)
      (action : AuditAction) (oldPersona : Option Persona)
  | disable (username : String) (disabledAt : Int) (changedBy : String)
      (oldPersona : Option Persona)

@[reducible] def PersonaStmt.Answer : PersonaStmt → Type
  | tick _ | setUserEmail _ _ | disable _ _ _ _ => Unit
  | readClock => Int
  | getUser _ => Option User
  | getAssignment _ => Option Assignment
  | countActiveAdmins | countInvitesByAdmin _ _ => Nat
  | createUser _ _ | upsert _ _ _ _ _ _ => Bool

def PersonaStmt.exec : (q : PersonaStmt) → PersonaStore → q.Answer × PersonaStore
  | tick d, s => ((), s.tick d)
  | readClock, s => (s.clock, s)
  | getUser username, s => (s.users.find username, s)
  | getAssignment username, s => (s.assignments.find username, s)
  | countActiveAdmins, s => (s.countActiveAdmins, s)
  | countInvitesByAdmin admin since, s => (s.countInvitesByAdmin admin since, s)
  | createUser username passwordHash, s =>
      match s.createUser username passwordHash with
      | none => (false, s)
      | some s' => (true, s')
  | setUserEmail username email, s => ((), s.setUserEmail username email)
  | upsert username persona assignedAt assignedBy action oldPersona, s =>
      match s.upsert username persona assignedAt assignedBy action oldPersona with
      | none => (false, s)
      | some s' => (true, s')
  | disable username disabledAt changedBy oldPersona, s =>
      ((), s.disable username disabledAt changedBy oldPersona)

instance : Database PersonaStore PersonaStmt.Answer := ⟨PersonaStmt.exec⟩

/-- Programs of these statements. -/
abbrev PersonaProg (α : Type) : Type := Prog PersonaStmt.Answer α

/-- The worlds they run in. -/
abbrev PersonaWorld : Type := World PersonaStore PersonaStmt.Answer

/-- A statement that has been executed, with its answer. -/
abbrev did (i : Nat) (q : PersonaStmt) (a : q.Answer) : Event PersonaStmt.Answer := ⟨i, q, a⟩

end EighthLayer.Personas
