import EighthLayer.Invites.Store
import EighthLayer.Personas.Store
import EighthLayer.Lib.Bytes
import EighthLayer.Lib.Crash

/-!
# EighthLayer.Bootstrap.Store

What the bootstraps of a server write: users, the founder's invite and the link to it, persona
assignments with their audit trail, API keys.

Each operation of the store is one transaction, and so one statement here. Times are instants,
and a password hash is kept as what it is a hash of, with the salt it was hashed under.
-/

namespace EighthLayer.Bootstrap

open Lib
open Invites (Invite InviteRole)
open Personas (Persona Assignment AuditAction AuditRow)

/-! ## Rows -/

/-- What a password hash is a hash of. -/
inductive Secret where
  /-- a password of the configuration -/
  | configured (password : String)
  /-- a random text that nobody keeps -/
  | random (hex : String)
deriving DecidableEq

/-- The column `password_hash`. -/
inductive PasswordHash where
  /-- `_DISABLED_PASSWORD`: no hash, so that no password matches -/
  | disabled
  | bcrypt (secret : Secret) (salt : String)
deriving DecidableEq

/-- A row of `users`. -/
structure User where
  id : Nat
  username : String
  passwordHash : PasswordHash
  role : String
  createdAt : Int
  enterpriseId : String
  groupId : String
deriving DecidableEq

/-- A row of `api_keys`; `key_hash` is the digest whose hexadecimal digits the column holds. -/
structure ApiKey where
  id : String
  userId : Nat
  name : String
  labels : List String
  keyPrefix : String
  keyHash : Bytes
  ttl : String
  expiresAt : Int
  createdAt : Int
deriving DecidableEq

/-- A parameter of the parameter store. -/
structure Parameter where
  name : String
  value : String
deriving DecidableEq

/-- `_SYSTEM_USERNAME`. -/
def systemUsername : String := "_bootstrap_system"

/-- `_LIAISON_USERNAME`. -/
def liaisonUsername : String := "_liaison_service"

/-! ## The store -/

/-- The tables and the parameter of the link. The ids of users and of invites go up
(`AUTOINCREMENT`). -/
structure BootStore where
  users : Table User.username
  lastUser : Nat
  invites : Table Invite.jti
  lastInvite : Nat
  assignments : Table Assignment.username
  audit : List AuditRow
  apiKeys : Table ApiKey.id
  link : Option Parameter
  user_le : ∀ u ∈ users, u.id ≤ lastUser
  invite_le : ∀ inv ∈ invites, inv.id ≤ lastInvite

namespace BootStore

/-- The store of a server that has never been booted. -/
def fresh : BootStore where
  users := .empty
  lastUser := 0
  invites := .empty
  lastInvite := 0
  assignments := .empty
  audit := []
  apiKeys := .empty
  link := none
  user_le := fun u hu => absurd hu (Table.not_mem_empty u)
  invite_le := fun inv hinv => absurd hinv (Table.not_mem_empty inv)

/-- `_users_exist`: a user that is no marker row. -/
def usersExist (s : BootStore) : Bool :=
  s.users.rows.any fun u => u.username ≠ systemUsername && u.username ≠ liaisonUsername

/-- `_system_row_exists`. -/
def systemRowExists (s : BootStore) : Bool :=
  s.users.rows.any fun u => u.username = systemUsername

/-- A user has this id: the foreign key of an invite and of an API key. -/
def hasUserId (s : BootStore) (id : Nat) : Bool := s.users.rows.any fun u => u.id = id

/-- `create_user`; `none` when the username is taken (`IntegrityError`). Without a tenancy the
defaults of the columns apply. -/
def createUser (s : BootStore) (username : String) (passwordHash : PasswordHash) (role : String)
    (tenancy : Option (String × String)) (createdAt : Int) : Option BootStore :=
  let row : User :=
    { id := s.lastUser + 1, username, passwordHash, role, createdAt
      enterpriseId := (tenancy.map Prod.fst).getD "default-enterprise"
      groupId := (tenancy.map Prod.snd).getD "default-group" }
  match h : s.users.insert row with
  | none => none
  | some users => some
      { s with
        users
        lastUser := s.lastUser + 1
        user_le := by
          intro u hu
          rcases (Table.mem_insert h).mp hu with hu | rfl
          · exact Nat.le_succ_of_le (s.user_le u hu)
          · exact Nat.le_refl _ }

/-- The `INSERT` of `mint_invite`; `none` when the `jti` is taken or the issuer is no user
(`IntegrityError`). -/
def insertInvite (s : BootStore) (jti email : String) (role : InviteRole)
    (targetL2Id : Option String) (issuedBy : Nat) (issuedAt expiresAt : Int) : Option BootStore :=
  let row : Invite :=
    { id := s.lastInvite + 1, jti, email, role, targetL2Id, issuedBy, issuedAt, expiresAt
      claimedAt := none, claimedBy := none, revokedAt := none }
  if s.hasUserId issuedBy then
    match h : s.invites.insert row with
    | none => none
    | some invites => some
        { s with
          invites
          lastInvite := s.lastInvite + 1
          invite_le := by
            intro inv hinv
            rcases (Table.mem_insert h).mp hinv with hinv | rfl
            · exact Nat.le_succ_of_le (s.invite_le inv hinv)
            · exact Nat.le_refl _ }
  else none

/-- `upsert_persona_assignment`; `none` when the username is no user's (`IntegrityError`). -/
def upsertPersona (s : BootStore) (username : String) (persona : Persona) (assignedAt : Int)
    (assignedBy : String) (action : AuditAction) (oldPersona : Option Persona) (changedAt : Int) :
    Option BootStore :=
  if s.users.find username = none then none
  else some
    { s with
      assignments := s.assignments.upsert ⟨username, persona, assignedAt, assignedBy, none⟩
      audit := s.audit ++ [⟨username, oldPersona, some persona, assignedBy, changedAt, action⟩] }

/-- `create_api_key`; `none` when the id or the hash is taken or the owner is no user
(`IntegrityError`). -/
def createApiKey (s : BootStore) (key : ApiKey) : Option BootStore :=
  if s.apiKeys.rows.any (fun k => k.keyHash = key.keyHash) = false ∧ s.hasUserId key.userId then
    (s.apiKeys.insert key).map fun apiKeys => { s with apiKeys }
  else none

/-- `put_parameter`, overwriting. -/
def putLink (s : BootStore) (param : Parameter) : BootStore := { s with link := some param }

end BootStore

/-! ## The statements -/

/-- The operations of the store by which a server is bootstrapped. -/
inductive BootStmt where
  | usersExist
  | systemRowExists
  | getUser (username : String)
  | createUser (username : String) (passwordHash : PasswordHash) (role : String)
      (tenancy : Option (String × String)) (createdAt : Int)
  | insertInvite (jti email : String) (role : InviteRole) (targetL2Id : Option String)
      (issuedBy : Nat) (issuedAt expiresAt : Int)
  | putLink (param : Parameter)
  | upsertPersona (username : String) (persona : Persona) (assignedAt : Int) (assignedBy : String)
      (action : AuditAction) (oldPersona : Option Persona) (changedAt : Int)
  | createApiKey (key : ApiKey)

@[reducible] def BootStmt.Answer : BootStmt → Type
  | usersExist | systemRowExists => Bool
  | getUser _ => Option User
  | createUser _ _ _ _ _ | insertInvite _ _ _ _ _ _ _ | upsertPersona _ _ _ _ _ _ _
  | createApiKey _ => Bool
  | putLink _ => Unit

/-- A write that may fail: whether it has been made, and the store after it. -/
def wrote (s : BootStore) : Option BootStore → Bool × BootStore
  | none => (false, s)
  | some s' => (true, s')

def BootStmt.exec : (q : BootStmt) → BootStore → q.Answer × BootStore
  | usersExist, s => (s.usersExist, s)
  | systemRowExists, s => (s.systemRowExists, s)
  | getUser username, s => (s.users.find username, s)
  | createUser username passwordHash role tenancy createdAt, s =>
      wrote s (s.createUser username passwordHash role tenancy createdAt)
  | insertInvite jti email role targetL2Id issuedBy issuedAt expiresAt, s =>
      wrote s (s.insertInvite jti email role targetL2Id issuedBy issuedAt expiresAt)
  | putLink param, s => ((), s.putLink param)
  | upsertPersona username persona assignedAt assignedBy action oldPersona changedAt, s =>
      wrote s (s.upsertPersona username persona assignedAt assignedBy action oldPersona changedAt)
  | createApiKey key, s => wrote s (s.createApiKey key)

instance : Database BootStore BootStmt.Answer := ⟨BootStmt.exec⟩

/-- Programs of these statements. -/
abbrev BootProg (α : Type) : Type := Prog BootStmt.Answer α

end EighthLayer.Bootstrap
