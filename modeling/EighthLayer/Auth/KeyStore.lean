import EighthLayer.Auth.ApiKeys
import EighthLayer.Bootstrap.Boot
import EighthLayer.Personas.Store

/-!
# EighthLayer.Auth.KeyStore

The table `api_keys`, with the users whose keys they are and their personas, and the statements by
which keys are created, revoked and minted for agents. Times are instants.

An assignment and its row of the audit trail are written by one transaction, and so by one
statement here.
-/

namespace EighthLayer.Auth

open Lib
open Personas (Persona Assignment AuditAction AuditRow)

/-! ## Rows -/

/-- A row of `users`. -/
structure KeyUser where
  id : Nat
  username : String
  passwordHash : String
  role : String
  enterpriseId : String
  groupId : String
  createdAt : Int
deriving DecidableEq

/-- A row of `api_keys`. -/
structure ApiKey where
  id : String
  userId : Nat
  name : String
  labels : List String
  keyPrefix : String
  keyHash : Bytes
  ttl : String
  expiresAt : Int
  createdAt : Int
  lastUsedAt : Option Int
  revokedAt : Option Int
deriving DecidableEq

/-- What `COUNT_ACTIVE_KEYS_FOR_USER` counts. -/
def ApiKey.activeFor (userId : Nat) (now : Int) (k : ApiKey) : Bool :=
  k.userId = userId && k.revokedAt = none && now < k.expiresAt

/-! ## The store -/

/-- The tables and the clock. Ids of users are never used again; keys and assignments are of users
that there are, and no two keys have one hash. -/
structure KeyStore where
  clock : Int
  users : Table KeyUser.username
  lastUserId : Nat
  keys : Table ApiKey.id
  assignments : Table Assignment.username
  audit : List AuditRow
  id_le : ∀ u ∈ users, u.id ≤ lastUserId
  key_user : ∀ k ∈ keys, ∃ u ∈ users, u.id = k.userId
  keyHash_nodup : (keys.rows.map ApiKey.keyHash).Nodup
  assigned_user : ∀ a ∈ assignments, users.find a.username ≠ none

namespace KeyStore

/-- `_count_active_api_keys_for_user_sync`, with the time that it has read. -/
def countActive (s : KeyStore) (userId : Nat) (now : Int) : Nat :=
  s.keys.rows.countP (ApiKey.activeFor userId now)

/-- Time passes. -/
def tick (s : KeyStore) (d : Nat) : KeyStore := { s with clock := s.clock + d }

/-- `INSERT_USER_WITH_TENANCY`; `none` when the username is taken. -/
def createUser (s : KeyStore) (username passwordHash role enterpriseId groupId : String)
    (createdAt : Int) : Option KeyStore :=
  match h : s.users.insert
      ⟨s.lastUserId + 1, username, passwordHash, role, enterpriseId, groupId, createdAt⟩ with
  | none => none
  | some users => some
      { s with
        users
        lastUserId := s.lastUserId + 1
        id_le := by
          intro u hu
          rcases (Table.mem_insert h).mp hu with hu | rfl
          · exact Nat.le_succ_of_le (s.id_le u hu)
          · exact Nat.le_refl _
        key_user := by
          intro k hk
          obtain ⟨u, hu, hid⟩ := s.key_user k hk
          exact ⟨u, (Table.mem_insert h).mpr (.inl hu), hid⟩
        assigned_user := by
          intro a ha
          obtain ⟨u, hu⟩ := Option.ne_none_iff_exists'.mp (s.assigned_user a ha)
          rw [Table.find_insert_of_some h hu]
          exact Option.some_ne_none u }

/-- `INSERT_API_KEY`; `none` when the id or the hash is taken, or the user is none
(`IntegrityError`). -/
def createKey (s : KeyStore) (k : ApiKey) : Option KeyStore :=
  if huser : ∃ u ∈ s.users.rows, u.id = k.userId then
    if hhash : k.keyHash ∈ s.keys.rows.map ApiKey.keyHash then none
    else match h : s.keys.insert k with
      | none => none
      | some keys => some
          { s with
            keys
            key_user := by
              intro k' hk'
              rcases (Table.mem_insert h).mp hk' with hk' | rfl
              · exact s.key_user k' hk'
              · exact huser
            keyHash_nodup := by
              rw [(Table.insert_eq_some_iff.mp h).2, List.map_append, List.map_singleton]
              refine List.nodup_append.mpr ⟨s.keyHash_nodup, List.nodup_singleton _, ?_⟩
              intro x hx y hy heq
              exact hhash (List.mem_singleton.mp hy ▸ heq ▸ hx) }
  else none

/-- `_revoke_api_key_sync`, with the time that it has read. -/
def revokeKey (s : KeyStore) (userId : Nat) (keyId : String) (now : Int) : KeyStore :=
  { s with
    keys := s.keys.update (fun k => k.id = keyId && k.userId = userId && k.revokedAt = none)
      (fun k => { k with revokedAt := some now }) fun _ => rfl
    key_user := by
      intro k hk
      obtain ⟨k', hk', rfl⟩ := Table.mem_update.mp hk
      obtain ⟨u, hu, hid⟩ := s.key_user k' hk'
      refine ⟨u, hu, ?_⟩
      split
      · exact hid
      · exact hid
    keyHash_nodup := by
      have hsame : ∀ (p : ApiKey → Bool) (rows : List ApiKey),
          (rows.map fun k => if p k then { k with revokedAt := some now } else k).map
            ApiKey.keyHash = rows.map ApiKey.keyHash := by
        intro p rows
        rw [List.map_map]
        refine List.map_congr_left fun k _ => ?_
        simp only [Function.comp_apply]
        split
        · rfl
        · rfl
      exact (hsame _ _).symm ▸ s.keyHash_nodup }

/-- `_upsert_persona_assignment_sync`, up to its commit; `none` when the username is no user's
(`IntegrityError`). -/
def upsertAssignment (s : KeyStore) (username : String) (persona : Persona) (assignedAt : Int)
    (assignedBy : String) (action : AuditAction) (oldPersona : Option Persona) : Option KeyStore :=
  if huser : s.users.find username = none then none
  else some
    { s with
      assignments := s.assignments.upsert ⟨username, persona, assignedAt, assignedBy, none⟩
      audit := s.audit ++ [⟨username, oldPersona, some persona, assignedBy, s.clock, action⟩]
      assigned_user := by
        intro a ha
        rcases Table.mem_upsert.mp ha with rfl | ⟨ha, -⟩
        · exact huser
        · exact s.assigned_user a ha }

end KeyStore

/-! ## The statements -/

/-- The statements of the key routes. -/
inductive KeyStmt where
  | tick (d : Nat)
  /-- `datetime.now(UTC)`. -/
  | readClock
  | getUser (username : String)
  | countActive (userId : Nat) (now : Int)
  | createKey (k : ApiKey)
  /-- `get_api_key_for_user`. -/
  | getKey (userId : Nat) (keyId : String)
  | revokeKey (userId : Nat) (keyId : String) (now : Int)
  | createUser (username passwordHash role enterpriseId groupId : String) (createdAt : Int)
  | upsertAssignment (username : String) (persona : Persona) (assignedAt : Int)
      (assignedBy : String) (action : AuditAction) (oldPersona : Option Persona)
  | getAssignment (username : String)

@[reducible] def KeyStmt.Answer : KeyStmt → Type
  | tick _ | revokeKey _ _ _ => Unit
  | readClock => Int
  | getUser _ => Option KeyUser
  | countActive _ _ => Nat
  | createKey _ | createUser _ _ _ _ _ _ | upsertAssignment _ _ _ _ _ _ => Bool
  | getKey _ _ => Option ApiKey
  | getAssignment _ => Option Assignment

/-- A write that may be refused: whether it was done, and the store after it. -/
def orUnchanged (s : KeyStore) : Option KeyStore → Bool × KeyStore
  | none => (false, s)
  | some s' => (true, s')

def KeyStmt.exec : (q : KeyStmt) → KeyStore → q.Answer × KeyStore
  | tick d, s => ((), s.tick d)
  | readClock, s => (s.clock, s)
  | getUser username, s => (s.users.find username, s)
  | countActive userId now, s => (s.countActive userId now, s)
  | createKey k, s => orUnchanged s (s.createKey k)
  | getKey userId keyId, s => ((s.keys.find keyId).filter fun k => k.userId = userId, s)
  | revokeKey userId keyId now, s => ((), s.revokeKey userId keyId now)
  | createUser username passwordHash role enterpriseId groupId createdAt, s =>
      orUnchanged s (s.createUser username passwordHash role enterpriseId groupId createdAt)
  | upsertAssignment username persona assignedAt assignedBy action oldPersona, s =>
      orUnchanged s (s.upsertAssignment username persona assignedAt assignedBy action oldPersona)
  | getAssignment username, s => (s.assignments.find username, s)

instance : Database KeyStore KeyStmt.Answer := ⟨KeyStmt.exec⟩

/-- Programs of these statements. -/
abbrev KeyProg (α : Type) : Type := Prog KeyStmt.Answer α

/-- The worlds they run in. -/
abbrev KeyWorld : Type := World KeyStore KeyStmt.Answer

end EighthLayer.Auth
