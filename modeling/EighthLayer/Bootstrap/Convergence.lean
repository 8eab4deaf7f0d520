import EighthLayer.Bootstrap.Boot

/-!
# EighthLayer.Bootstrap.Convergence

What is left of a server's bootstrap when its boots crash: whether a complete boot after them
comes to what a single clean boot comes to.

Each bootstrap is a few steps that are taken one after the other, but only by a boot that finds
the first of them not taken. So a store is described by how many steps of each have been taken
(`Progress`), and `Setup.recordsAt` says what it then holds, up to what the boots drew.
-/

namespace EighthLayer.Bootstrap

open Lib
open Invites (Invite InviteRole)
open Personas (Persona Assignment AuditAction AuditRow)
open Knowledge (configuredTenancy)

/-! ## The records, up to what is drawn -/

def Secret.settled : Secret → Secret
  | configured password => configured password
  | random _ => random ""

def PasswordHash.settled : PasswordHash → PasswordHash
  | disabled => disabled
  | bcrypt secret _ => bcrypt secret.settled ""

/-- A row without what its boot drew. -/
def User.settled (u : User) : User :=
  { u with passwordHash := u.passwordHash.settled, createdAt := 0 }

def Parameter.settled (p : Parameter) : Parameter := { p with value := "" }

def ApiKey.settled (k : ApiKey) : ApiKey := { k with expiresAt := 0, createdAt := 0 }

/-- An invite without its `jti` and with its life instead of its times. -/
def settledInvite (inv : Invite) : Invite :=
  { inv with jti := "", issuedAt := 0, expiresAt := inv.expiresAt - inv.issuedAt }

def settledAssignment (a : Assignment) : Assignment := { a with assignedAt := 0 }

def settledAudit (r : AuditRow) : AuditRow := { r with changedAt := 0 }

/-- The records of a server, up to what its boots drew. -/
structure Records where
  users : List User
  lastUser : Nat
  invites : List Invite
  lastInvite : Nat
  assignments : List Assignment
  audit : List AuditRow
  apiKeys : List ApiKey
  link : Option Parameter
deriving DecidableEq

def BootStore.records (s : BootStore) : Records where
  users := s.users.rows.map User.settled
  lastUser := s.lastUser
  invites := s.invites.rows.map settledInvite
  lastInvite := s.lastInvite
  assignments := s.assignments.rows.map settledAssignment
  audit := s.audit.map settledAudit
  apiKeys := s.apiKeys.rows.map ApiKey.settled
  link := s.link.map Parameter.settled

namespace BootStore

variable {s : BootStore}

/-! ## What the statements make of the records -/

theorem exec_usersExist :
    Database.exec (A := BootStmt.Answer) .usersExist s =
      (s.records.users.any fun u => u.username ≠ systemUsername && u.username ≠ liaisonUsername,
        s) := by
  simp only [Database.exec, BootStmt.exec, usersExist, records, List.any_map]
  rfl

theorem systemRowExists_records :
    s.systemRowExists = s.records.users.any fun u => u.username = systemUsername := by
  simp only [systemRowExists, records, List.any_map]
  rfl

theorem exec_systemRowExists :
    Database.exec (A := BootStmt.Answer) .systemRowExists s =
      (s.records.users.any fun u => u.username = systemUsername, s) := by
  rw [← systemRowExists_records]
  rfl

/-- `get_user` finds the row that the records show. -/
theorem find_settled (username : String) :
    (s.users.find username).map User.settled =
      s.records.users.find? fun u => u.username = username := by
  simp only [records, Table.find, List.find?_map]
  rfl

theorem getUser_found (username : String) {r : User}
    (h : (s.records.users.find? fun u => u.username = username) = some r) :
    ∃ u, Database.exec (A := BootStmt.Answer) (.getUser username) s = (some u, s) ∧
      u.settled = r := by
  rw [← find_settled, Option.map_eq_some_iff] at h
  obtain ⟨u, hu, hr⟩ := h
  refine ⟨u, ?_, hr⟩
  rw [← hu]
  rfl

theorem getUser_absent {username : String}
    (h : (s.records.users.find? fun u => u.username = username) = none) :
    Database.exec (A := BootStmt.Answer) (.getUser username) s = (none, s) := by
  rw [← find_settled, Option.map_eq_none_iff] at h
  rw [← h]
  rfl

theorem hasUserId_records (id : Nat) :
    s.hasUserId id = s.records.users.any fun u => u.id = id := by
  simp only [hasUserId, records, List.any_map]
  rfl

/-- A user whose name is free is created. -/
theorem createUser_free (username : String) (passwordHash : PasswordHash) (role : String)
    (tenancy : Option (String × String)) (createdAt : Int)
    (hfree : (s.records.users.find? fun u => u.username = username) = none) :
    ∃ s', Database.exec (A := BootStmt.Answer)
        (.createUser username passwordHash role tenancy createdAt) s = (true, s') ∧
      s'.records = { s.records with
        users := s.records.users ++
          [⟨s.records.lastUser + 1, username, passwordHash.settled, role, 0,
            (tenancy.map Prod.fst).getD "default-enterprise",
            (tenancy.map Prod.snd).getD "default-group"⟩]
        lastUser := s.records.lastUser + 1 } := by
  rw [← find_settled, Option.map_eq_none_iff] at hfree
  simp only [Database.exec, BootStmt.exec, createUser]
  split
  · rename_i h
    obtain ⟨u, hu, hname⟩ := Table.insert_eq_none_iff.mp h
    exact absurd hname (Table.find_eq_none_iff.mp hfree u hu)
  · rename_i users h
    refine ⟨_, rfl, ?_⟩
    simp only [records, (Table.insert_eq_some_iff.mp h).2, List.map_append, List.map_singleton]
    rfl

/-- A user whose name is taken is not. -/
theorem createUser_taken {username : String} (passwordHash : PasswordHash) (role : String)
    (tenancy : Option (String × String)) (createdAt : Int)
    (htaken : (s.records.users.find? fun u => u.username = username) ≠ none) :
    Database.exec (A := BootStmt.Answer)
      (.createUser username passwordHash role tenancy createdAt) s = (false, s) := by
  rw [← find_settled, ne_eq, Option.map_eq_none_iff] at htaken
  simp only [Database.exec, BootStmt.exec, createUser]
  split
  · rfl
  · rename_i users h
    exact absurd (Table.find_none_of_insert h) htaken

/-- The first invite of a server is inserted. -/
theorem insertInvite_first (jti email : String) (role : InviteRole) (targetL2Id : Option String)
    (issuedBy : Nat) (issuedAt expiresAt : Int) (hnone : s.records.invites = [])
    (hissuer : (s.records.users.any fun u => u.id = issuedBy) = true) :
    ∃ s', Database.exec (A := BootStmt.Answer)
        (.insertInvite jti email role targetL2Id issuedBy issuedAt expiresAt) s = (true, s') ∧
      s'.records = { s.records with
        invites := [⟨s.records.lastInvite + 1, "", email, role, targetL2Id, issuedBy, 0,
          expiresAt - issuedAt, none, none, none⟩]
        lastInvite := s.records.lastInvite + 1 } := by
  have hrows : s.invites.rows = [] := List.map_eq_nil_iff.mp hnone
  simp only [Database.exec, BootStmt.exec, insertInvite, hasUserId_records, hissuer, if_true]
  split
  · rename_i h
    obtain ⟨inv, hinv, -⟩ := Table.insert_eq_none_iff.mp h
    rw [Table.mem_def, hrows] at hinv
    cases hinv
  · rename_i invites h
    refine ⟨_, rfl, ?_⟩
    simp only [records, (Table.insert_eq_some_iff.mp h).2, hrows]
    rfl

theorem putLink_records (param : Parameter) :
    ∃ s', Database.exec (A := BootStmt.Answer) (.putLink param) s = ((), s') ∧
      s'.records = { s.records with link := some param.settled } := ⟨_, rfl, rfl⟩

/-- The first assignment of a server is made. -/
theorem upsertPersona_first (username : String) (persona : Persona) (assignedAt : Int)
    (assignedBy : String) (action : AuditAction) (oldPersona : Option Persona) (changedAt : Int)
    (hnone : s.records.assignments = [])
    (huser : (s.records.users.find? fun u => u.username = username) ≠ none) :
    ∃ s', Database.exec (A := BootStmt.Answer)
        (.upsertPersona username persona assignedAt assignedBy action oldPersona changedAt) s =
          (true, s') ∧
      s'.records = { s.records with
        assignments := [⟨username, persona, 0, assignedBy, none⟩]
        audit := s.records.audit ++ [⟨username, oldPersona, some persona, assignedBy, 0, action⟩] } := by
  have hrows : s.assignments.rows = [] := List.map_eq_nil_iff.mp hnone
  have hfree : s.assignments.find username = none := by
    refine Table.find_eq_none_iff.mpr fun a ha => ?_
    rw [Table.mem_def, hrows] at ha
    cases ha
  rw [← find_settled, ne_eq, Option.map_eq_none_iff] at huser
  have hmade : (s.assignments.upsert ⟨username, persona, assignedAt, assignedBy, none⟩).rows =
      [⟨username, persona, assignedAt, assignedBy, none⟩] := by
    rw [Table.rows_upsert_of_none hfree, hrows]
    rfl
  simp only [Database.exec, BootStmt.exec, upsertPersona, if_neg huser]
  refine ⟨_, rfl, ?_⟩
  simp only [records, hmade, List.map_append]
  rfl

/-- The first key of a server is created. -/
theorem createApiKey_first (key : ApiKey) (hnone : s.records.apiKeys = [])
    (howner : (s.records.users.any fun u => u.id = key.userId) = true) :
    ∃ s', Database.exec (A := BootStmt.Answer) (.createApiKey key) s = (true, s') ∧
      s'.records = { s.records with apiKeys := [key.settled] } := by
  have hrows : s.apiKeys.rows = [] := List.map_eq_nil_iff.mp hnone
  have htable : s.apiKeys = Table.empty := Table.ext hrows
  simp only [Database.exec, BootStmt.exec, createApiKey, hasUserId_records, howner, htable]
  exact ⟨_, rfl, rfl⟩

end BootStore

/-! ## How far the bootstraps have come -/

/-- Nothing drawn. -/
def Draw.zero : Draw := ⟨fun _ => 0, "", "", "", ""⟩

/-- Who is to be the admin of a server. -/
inductive Claimant where
  /-- the founder, by an invite -/
  | founder
  /-- an operator, by a password -/
  | operator
  | nobody
deriving DecidableEq

/-- How many steps of the two bootstraps have been taken: of the admin's and of the liaison
key's. -/
structure Progress where
  admin : Nat
  liaison : Nat
deriving DecidableEq

namespace Setup

variable (c : Setup)

def claimant : Claimant :=
  if c.adminEmail ≠ "" then .founder
  else if c.adminPassword ≠ "" ∧ c.hashes c.adminPassword = true then .operator
  else .nobody

/-- The steps of the admin's bootstrap: the marker row, the invite and the link for a founder,
the account for an operator. -/
@[irreducible] def adminSteps : Nat :=
  match c.claimant with
  | .founder => if c.linkParameter = none then 2 else 3
  | .operator => 1
  | .nobody => 0

/-- The liaison key is to be seeded: it is configured, can be read and hashed, and the operator
has not been given the name of its owner. -/
def seedsLiaison : Option (String × String) :=
  if c.liaisonToken = "" ∨ c.pepper = "" then none
  else if c.claimant = .operator ∧ c.adminUsername = liaisonUsername then none
  else decodeToken c.uuidHex c.liaisonToken

/-- The steps of the liaison key: its owner, the owner's persona, the key. -/
@[irreducible] def liaisonSteps : Nat := if c.seedsLiaison = none then 0 else 3

/-- The user that the first step of the admin's bootstrap creates. -/
def firstUser : Option User :=
  match c.claimant with
  | .founder => some ⟨1, systemUsername, .disabled, "user", 0, "default-enterprise", "default-group"⟩
  | .operator => some ⟨1, c.adminUsername, .bcrypt (.configured c.adminPassword) "", "admin", 0,
      ((configuredTenancy c.env).map Prod.fst).getD "default-enterprise",
      ((configuredTenancy c.env).map Prod.snd).getD "default-group"⟩
  | .nobody => none

def adminUsers (steps : Nat) : List User := if steps = 0 then [] else c.firstUser.toList

/-- The owner of the liaison key. -/
def liaisonUser (id : Nat) : User :=
  ⟨id, liaisonUsername, .bcrypt (.random "") "", "user", 0,
    ((configuredTenancy c.env).map Prod.fst).getD "default-enterprise",
    ((configuredTenancy c.env).map Prod.snd).getD "default-group"⟩

/-- The founder's invite. -/
def foundersInvite : Invite :=
  ⟨1, "", c.adminEmail, .enterpriseAdmin, none, 1, 0, 24 * 7 * 3600000000, none, none, none⟩

/-- The key of the liaison server. -/
def seededKey (ownerId : Nat) : Option ApiKey :=
  c.seedsLiaison.map fun token => (liaisonKey c Draw.zero token.1 token.2 ownerId).settled

/-- **The records at a progress.** -/
def recordsAt (p : Progress) : Records :=
  let before := (c.adminUsers p.admin).length
  { users := c.adminUsers p.admin ++ if p.liaison = 0 then [] else [c.liaisonUser (before + 1)]
    lastUser := before + if p.liaison = 0 then 0 else 1
    invites := if p.admin < 2 then [] else [c.foundersInvite]
    lastInvite := if p.admin < 2 then 0 else 1
    assignments := if p.liaison < 2 then [] else [⟨liaisonUsername, .agent, 0, liaisonUsername, none⟩]
    audit := if p.liaison < 2 then []
      else [⟨liaisonUsername, none, some .agent, liaisonUsername, 0, .created⟩]
    apiKeys := if p.liaison < 3 then [] else (c.seededKey (before + 1)).toList
    link := if p.admin < 3 then none else c.linkParameter.map fun name => ⟨name, ""⟩ }

/-- The progresses that boots come to: no step of the liaison key is taken before the first of
the admin's. -/
structure Attains (p : Progress) : Prop where
  admin_le : p.admin ≤ c.adminSteps
  liaison_le : p.liaison ≤ c.liaisonSteps
  first : c.adminSteps = 0 ∨ p.liaison = 0 ∨ 0 < p.admin

/-- The store has come to a progress. -/
def At (p : Progress) (s : BootStore) : Prop := s.records = c.recordsAt p

/-- The store has come to some progress. -/
def Underway (s : BootStore) : Prop := ∃ p, c.Attains p ∧ c.At p s

variable {c} {d : Draw} {p : Progress} {s : BootStore}

theorem At.underway (hs : c.At p s) (h : c.Attains p) : c.Underway s := ⟨p, h, hs⟩

/-- A server that has never been booted. -/
theorem at_fresh : c.At ⟨0, 0⟩ .fresh := rfl

theorem attains_zero : c.Attains ⟨0, 0⟩ := ⟨Nat.zero_le _, Nat.zero_le _, .inr (.inl rfl)⟩

theorem adminSteps_founder (h : c.claimant = .founder) :
    c.adminSteps = if c.linkParameter = none then 2 else 3 := by
  unfold adminSteps
  simp only [h]

theorem claimant_founder_iff : c.claimant = .founder ↔ c.adminEmail ≠ "" := by
  unfold claimant
  by_cases h : c.adminEmail ≠ ""
  · simp [h]
  · rw [if_neg h]
    split
    · simp [h]
    · simp [h]

/-! ## The founder's invite -/

/-- With the founder's bootstrap begun, the only users are marker rows. -/
theorem users_founder (hclaim : c.claimant = .founder) (hadmin : p.admin ≠ 0) :
    ∃ rest, (c.recordsAt p).users =
        ⟨1, systemUsername, .disabled, "user", 0, "default-enterprise", "default-group"⟩ :: rest ∧
      ∀ u ∈ rest, u.username = liaisonUsername := by
  simp only [recordsAt, adminUsers, firstUser, hclaim, hadmin, if_false, Option.toList_some]
  refine ⟨_, rfl, fun u hu => ?_⟩
  split at hu
  · cases hu
  · rw [List.mem_singleton.mp hu]
    rfl

/-- The steps of the founder's bootstrap. -/
theorem founder_steps (hclaim : c.claimant = .founder) (hemail : c.adminEmail ≠ "")
    (hs : c.At ⟨0, 0⟩ s) :
    (bootstrapFirstAdmin c d).Through c.Underway (fun _ s' => c.At ⟨c.adminSteps, 0⟩ s') s := by
  have hsteps := adminSteps_founder hclaim
  have hattains : ∀ a, a ≤ c.adminSteps → c.Attains ⟨a, 0⟩ := fun a ha =>
    ⟨ha, Nat.zero_le _, .inr (.inl rfl)⟩
  have hle : 2 ≤ c.adminSteps := by
    rw [hsteps]
    split
    · exact Nat.le_refl _
    · exact Nat.le_succ _
  unfold bootstrapFirstAdmin
  rw [if_neg hemail]
  have hrecords : s.records = BootStore.fresh.records := hs
  refine .call (hs.underway attains_zero) BootStore.exec_usersExist ?_
  rw [hrecords]
  -- the marker row
  obtain ⟨s₁, hexec₁, hs₁⟩ := s.createUser_free systemUsername .disabled "user" none (d.clock 0)
    (by rw [hrecords]; rfl)
  have hat₁ : c.At ⟨1, 0⟩ s₁ := by
    rw [hrecords] at hs₁
    rw [At, hs₁]
    simp [recordsAt, adminUsers, firstUser, hclaim, BootStore.records, BootStore.fresh,
      Table.empty, PasswordHash.settled]
  have hunder₁ := hat₁.underway (hattains 1 (Nat.le_trans (Nat.le_succ 1) hle))
  refine .call (hs.underway attains_zero) hexec₁ ?_
  -- its id
  obtain ⟨u, hexec₂, hu⟩ := s₁.getUser_found systemUsername
    (r := ⟨1, systemUsername, .disabled, "user", 0, "default-enterprise", "default-group"⟩)
    (by rw [hat₁]; simp [recordsAt, adminUsers, firstUser, hclaim])
  have hid : u.id = 1 := congrArg User.id hu
  refine .call hunder₁ hexec₂ ?_
  -- the invite
  obtain ⟨s₂, hexec₂, hs₂⟩ := s₁.insertInvite_first d.jti c.adminEmail .enterpriseAdmin none
    u.id (d.clock 1) (d.clock 1 + 24 * 7 * 3600000000)
    (by rw [hat₁]; rfl) (by rw [hat₁, hid]; simp [recordsAt, adminUsers, firstUser, hclaim])
  have hat₂ : c.At ⟨2, 0⟩ s₂ := by
    rw [At, hs₂, hat₁, hid]
    simp [recordsAt, adminUsers, firstUser, hclaim, foundersInvite]
  have hunder₂ := hat₂.underway (hattains 2 hle)
  refine .call hunder₁ hexec₂ ?_
  -- the link
  simp only [Bool.not_true, Bool.false_eq_true, if_false]
  unfold writeBootstrapLink
  cases hlink : c.linkParameter with
  | none =>
      rw [hlink] at hsteps
      rw [hsteps]
      exact .done hunder₂ hat₂
  | some name =>
      rw [hlink] at hsteps
      rw [hsteps]
      obtain ⟨s₃, hexec₃, hs₃⟩ := s₂.putLink_records
        ⟨name, "/invite/" ++ c.encodeJwt c.adminEmail d.jti (d.clock 1)
          (d.clock 1 + 24 * 7 * 3600000000)⟩
      have hat₃ : c.At ⟨3, 0⟩ s₃ := by
        rw [At, hs₃, hat₂]
        simp [recordsAt, adminUsers, firstUser, hclaim, hlink, Parameter.settled]
      refine .call hunder₂ hexec₃ (.done (hat₃.underway (hattains 3 ?_)) hat₃)
      rw [hsteps]
      exact Nat.le_refl _

/-- **The founder's bootstrap** takes its steps where the first has not been taken. -/
theorem bootstrapFirstAdmin_through (h : c.Attains p) (hs : c.At p s) :
    (bootstrapFirstAdmin c d).Through c.Underway (fun _ s' =>
      c.At ⟨if c.claimant = .founder ∧ p.admin = 0 then c.adminSteps else p.admin, p.liaison⟩ s')
      s := by
  by_cases hemail : c.adminEmail = ""
  · unfold bootstrapFirstAdmin
    have hclaim : ¬ c.claimant = .founder := fun hclaim => claimant_founder_iff.mp hclaim hemail
    rw [if_pos hemail]
    refine .done (hs.underway h) ?_
    rw [if_neg fun hboth => hclaim hboth.1]
    exact hs
  · have hclaim := claimant_founder_iff.mpr hemail
    by_cases hadmin : p.admin = 0
    · rw [if_pos ⟨hclaim, hadmin⟩]
      obtain ⟨admin, liaison⟩ := p
      cases hadmin
      have hliaison : liaison = 0 := by
        rcases h.first with hnone | hliaison | hpos
        · rw [adminSteps_founder hclaim] at hnone
          split at hnone
          · cases hnone
          · cases hnone
        · exact hliaison
        · cases hpos
      subst hliaison
      exact founder_steps hclaim hemail hs
    · unfold bootstrapFirstAdmin
      rw [if_neg hemail, if_neg fun hboth => hadmin hboth.2]
      obtain ⟨rest, husers, hrest⟩ := users_founder hclaim hadmin
      rw [← hs] at husers
      have hexist : (s.records.users.any fun u =>
          u.username ≠ systemUsername && u.username ≠ liaisonUsername) = false := by
        rw [husers, List.any_cons, List.any_eq_false.mpr]
        · rfl
        · intro u hu
          simp [hrest u hu]
      have htaken : (s.records.users.find? fun u => u.username = systemUsername) ≠ none := by
        rw [husers]
        exact Option.some_ne_none _
      refine .call (hs.underway h) BootStore.exec_usersExist ?_
      rw [hexist]
      refine .call (hs.underway h) (BootStore.createUser_taken _ _ _ _ htaken) ?_
      exact .done (hs.underway h) hs

/-! ## The operator's account -/

theorem claimant_operator_iff :
    c.claimant = .operator ↔
      c.adminEmail = "" ∧ c.adminPassword ≠ "" ∧ c.hashes c.adminPassword = true := by
  unfold claimant
  by_cases hemail : c.adminEmail ≠ ""
  · simp [hemail]
  · rw [if_neg hemail]
    split
    · rename_i h
      simp only [true_iff]
      exact ⟨not_not.mp hemail, h⟩
    · rename_i h
      simp only [reduceCtorEq, false_iff]
      exact fun hboth => h hboth.2

/-- Where all users have the name of the liaison key's owner, nobody has claimed the server. -/
theorem no_users_exist {users : List User} (h : ∀ u ∈ users, u.username = liaisonUsername) :
    (users.any fun u => u.username ≠ systemUsername && u.username ≠ liaisonUsername) = false ∧
      (users.any fun u => u.username = systemUsername) = false := by
  constructor
  · rw [List.any_eq_false]
    intro u hu
    simp [h u hu]
  · rw [List.any_eq_false]
    intro u hu
    rw [h u hu]
    decide

/-- Until the first step of the admin's bootstrap the only user is the liaison key's. -/
theorem users_unclaimed (hnone : c.adminUsers p.admin = []) :
    ∀ u ∈ (c.recordsAt p).users, u.username = liaisonUsername := by
  simp only [recordsAt, hnone, List.nil_append]
  intro u hu
  split at hu
  · cases hu
  · rw [List.mem_singleton.mp hu]
    rfl

/-- The step of the operator's bootstrap. -/
theorem operator_step (hclaim : c.claimant = .operator) (hs : c.At ⟨0, 0⟩ s) :
    (bootstrapPasswordAdmin c d).Through c.Underway (fun _ s' => c.At ⟨1, 0⟩ s') s := by
  obtain ⟨-, hpassword, hhashes⟩ := claimant_operator_iff.mp hclaim
  have hsteps : c.adminSteps = 1 := by
    unfold adminSteps
    rw [hclaim]
  have hunder := hs.underway attains_zero
  have hrecords : s.records = BootStore.fresh.records := hs
  unfold bootstrapPasswordAdmin
  rw [if_neg hpassword]
  refine .call hunder BootStore.exec_usersExist ?_
  rw [hrecords]
  refine .call hunder BootStore.exec_systemRowExists ?_
  rw [hrecords]
  obtain ⟨s₁, hexec₁, hs₁⟩ := s.createUser_free c.adminUsername
    (.bcrypt (.configured c.adminPassword) d.adminSalt) "admin" (configuredTenancy c.env)
    (d.clock 2) (by rw [hrecords]; rfl)
  have hat₁ : c.At ⟨1, 0⟩ s₁ := by
    rw [hrecords] at hs₁
    rw [At, hs₁]
    simp [recordsAt, adminUsers, firstUser, hclaim, BootStore.records, BootStore.fresh,
      Table.empty, PasswordHash.settled, Secret.settled]
  have hattains : c.Attains ⟨1, 0⟩ := ⟨Nat.le_of_eq hsteps.symm, Nat.zero_le _, .inr (.inl rfl)⟩
  rw [hhashes]
  exact .call hunder hexec₁ (.done (hat₁.underway hattains) hat₁)

/-- With the operator's account made, the operator's bootstrap does nothing. -/
theorem operator_again (hclaim : c.claimant = .operator) (h : c.Attains p) (hs : c.At p s)
    (hadmin : p.admin ≠ 0) :
    (bootstrapPasswordAdmin c d).Through c.Underway (fun _ s' => c.At p s') s := by
  obtain ⟨-, hpassword, -⟩ := claimant_operator_iff.mp hclaim
  have hunder := hs.underway h
  have husers : ∃ r rest, s.records.users = r :: rest ∧ r.username = c.adminUsername := by
    rw [hs]
    simp only [recordsAt, adminUsers, firstUser, hclaim, hadmin, if_false, Option.toList_some]
    exact ⟨_, _, List.singleton_append, rfl⟩
  obtain ⟨r, rest, husers, hname⟩ := husers
  have htaken : (s.records.users.find? fun u => u.username = c.adminUsername) ≠ none := by
    rw [husers, List.find?_cons_of_pos (by simpa using hname)]
    exact Option.some_ne_none _
  unfold bootstrapPasswordAdmin
  rw [if_neg hpassword]
  refine .call hunder BootStore.exec_usersExist ?_
  split
  · exact .done hunder hs
  · refine .call hunder BootStore.exec_systemRowExists ?_
    split
    · exact .done hunder hs
    · -- the operator has been given the name of a marker row
      exact .call hunder (BootStore.createUser_taken _ _ _ _ htaken) (.done hunder hs)

/-- **The operator's bootstrap** takes its step where it has not been taken and the founder's has
not begun. -/
theorem bootstrapPasswordAdmin_through (h : c.Attains p)
    (hfounder : c.claimant = .founder → p.admin ≠ 0) (hs : c.At p s) :
    (bootstrapPasswordAdmin c d).Through c.Underway (fun _ s' =>
      c.At ⟨if p.admin = 0 then c.adminSteps else p.admin, p.liaison⟩ s') s := by
  have hunder := hs.underway h
  cases hclaim : c.claimant with
  | founder =>
      have hadmin := hfounder hclaim
      obtain ⟨rest, husers, hrest⟩ := users_founder hclaim hadmin
      rw [← hs] at husers
      rw [if_neg hadmin]
      unfold bootstrapPasswordAdmin
      split
      · exact .done hunder hs
      · have hexist : (s.records.users.any fun u =>
            u.username ≠ systemUsername && u.username ≠ liaisonUsername) = false := by
          rw [husers, List.any_cons, (no_users_exist hrest).1]
          rfl
        refine .call hunder BootStore.exec_usersExist ?_
        rw [hexist]
        refine .call hunder BootStore.exec_systemRowExists ?_
        rw [husers]
        exact .done hunder hs
  | operator =>
      by_cases hadmin : p.admin = 0
      · obtain ⟨admin, liaison⟩ := p
        cases hadmin
        have hsteps : c.adminSteps = 1 := by
          unfold adminSteps
          rw [hclaim]
        have hliaison : liaison = 0 := by
          rcases h.first with hnone | hliaison | hpos
          · rw [hsteps] at hnone
            cases hnone
          · exact hliaison
          · cases hpos
        subst hliaison
        rw [if_pos rfl, hsteps]
        exact operator_step hclaim hs
      · rw [if_neg hadmin]
        exact operator_again hclaim h hs hadmin
  | nobody =>
      have hsteps : c.adminSteps = 0 := by
        unfold adminSteps
        rw [hclaim]
      have hadmin : p.admin = 0 := Nat.le_zero.mp (hsteps ▸ h.admin_le)
      have hempty : c.adminUsers p.admin = [] := by
        rw [adminUsers, if_pos hadmin]
      have hkeep : c.At ⟨if p.admin = 0 then c.adminSteps else p.admin, p.liaison⟩ s := by
        rw [if_pos hadmin, hsteps, ← hadmin]
        exact hs
      unfold bootstrapPasswordAdmin
      by_cases hpassword : c.adminPassword = ""
      · rw [if_pos hpassword]
        exact .done hunder hkeep
      · have hhashes : c.hashes c.adminPassword = false := by
          by_contra hhashes
          have hemail : c.adminEmail = "" := by
            by_contra hemail
            cases hclaim.symm.trans (claimant_founder_iff.mpr hemail)
          cases hclaim.symm.trans (claimant_operator_iff.mpr
            ⟨hemail, hpassword, Bool.not_eq_false _ ▸ hhashes⟩)
        obtain ⟨hexist, hclaimed⟩ := no_users_exist (hs ▸ users_unclaimed hempty)
        rw [if_neg hpassword]
        refine .call hunder BootStore.exec_usersExist ?_
        rw [hexist]
        refine .call hunder BootStore.exec_systemRowExists ?_
        rw [hclaimed, hhashes]
        exact .done hunder hkeep

/-! ## The liaison key -/

/-- While no step of the liaison key has been taken its owner is there exactly if the operator has
been given that name. -/
theorem liaison_absent_iff (hs : c.At ⟨p.admin, 0⟩ s) (hadmin : p.admin ≠ 0 ∨ c.adminSteps = 0) :
    (s.records.users.find? fun u => u.username = liaisonUsername) = none ↔
      ¬ (c.claimant = .operator ∧ c.adminUsername = liaisonUsername) := by
  have husers : s.records.users = c.adminUsers p.admin := by
    rw [hs]
    simp [recordsAt]
  rw [husers]
  unfold adminUsers
  cases hclaim : c.claimant with
  | founder =>
      simp only [firstUser, hclaim]
      split
      · simp
      · simp [systemUsername, liaisonUsername]
  | operator =>
      have hne : p.admin ≠ 0 := by
        rcases hadmin with hne | hnone
        · exact hne
        · simp only [adminSteps, hclaim] at hnone
          cases hnone
      simp [firstUser, hclaim, hne]
  | nobody => simp [firstUser, hclaim]

/-- The steps of the liaison key. -/
theorem liaison_steps {keyId secret : String} (h : c.Attains ⟨p.admin, 0⟩)
    (hadmin : p.admin ≠ 0 ∨ c.adminSteps = 0) (hs : c.At ⟨p.admin, 0⟩ s)
    (hseeds : c.seedsLiaison = some (keyId, secret)) :
    (bootstrapLiaisonKey c d).Through c.Underway (fun _ s' => c.At ⟨p.admin, 3⟩ s') s := by
  have hsteps : c.liaisonSteps = 3 := by
    rw [liaisonSteps, hseeds]
    rfl
  have hattains : ∀ l, l ≤ 3 → c.Attains ⟨p.admin, l⟩ := fun l hl =>
    ⟨h.admin_le, hsteps ▸ hl, hadmin.elim (fun hne => .inr (.inr (Nat.pos_of_ne_zero hne))) .inl⟩
  obtain ⟨hset, hname, hdecode⟩ : ¬ (c.liaisonToken = "" ∨ c.pepper = "") ∧
      ¬ (c.claimant = .operator ∧ c.adminUsername = liaisonUsername) ∧
      decodeToken c.uuidHex c.liaisonToken = some (keyId, secret) := by
    unfold seedsLiaison at hseeds
    split at hseeds
    · cases hseeds
    · split at hseeds
      · cases hseeds
      · exact ⟨‹_›, ‹_›, hseeds⟩
  have hunder := hs.underway h
  have habsent := (liaison_absent_iff hs hadmin).mpr hname
  have husers : s.records.users = c.adminUsers p.admin := by
    rw [hs]
    simp [recordsAt]
  unfold bootstrapLiaisonKey
  rw [if_neg hset]
  refine .call hunder (BootStore.getUser_absent habsent) ?_
  simp only [ne_eq, not_true_eq_false, if_false, hdecode]
  -- the owner
  obtain ⟨s₁, hexec₁, hs₁⟩ := BootStore.createUser_free _ (.bcrypt (.random d.liaisonPassword)
    d.liaisonSalt) "user" (configuredTenancy c.env) (d.clock 4) habsent
  have hat₁ : c.At ⟨p.admin, 1⟩ s₁ := by
    rw [At, hs₁, hs]
    simp [recordsAt, liaisonUser, PasswordHash.settled, Secret.settled]
  have hunder₁ := hat₁.underway (hattains 1 (by decide))
  refine .call hunder hexec₁ ?_
  -- its id
  have hfind : (s₁.records.users.find? fun u => u.username = liaisonUsername) =
      some (c.liaisonUser ((c.adminUsers p.admin).length + 1)) := by
    rw [husers] at habsent
    rw [hat₁]
    simp only [recordsAt, Nat.one_ne_zero, if_false, List.find?_append, habsent, Option.none_or]
    rfl
  obtain ⟨u, hexec₂, hu⟩ := BootStore.getUser_found _ hfind
  have hid : u.id = (c.adminUsers p.admin).length + 1 := congrArg User.id hu
  refine .call hunder₁ hexec₂ ?_
  -- its persona
  obtain ⟨s₂, hexec₃, hs₂⟩ := s₁.upsertPersona_first liaisonUsername .agent (d.clock 5)
    liaisonUsername .created none (d.clock 6) (by rw [hat₁]; rfl)
    (by rw [hfind]; exact Option.some_ne_none _)
  have hat₂ : c.At ⟨p.admin, 2⟩ s₂ := by
    rw [At, hs₂, hat₁]
    simp [recordsAt]
  have hunder₂ := hat₂.underway (hattains 2 (by decide))
  refine .call hunder₁ hexec₃ ?_
  -- the key
  obtain ⟨s₃, hexec₄, hs₃⟩ := s₂.createApiKey_first (liaisonKey c d keyId secret u.id)
    (by rw [hat₂]; rfl) (by rw [hat₂]; simp [recordsAt, liaisonKey, liaisonUser, hid])
  have hat₃ : c.At ⟨p.admin, 3⟩ s₃ := by
    rw [At, hs₃, hat₂]
    simp [recordsAt, seededKey, hseeds, hid, liaisonKey, ApiKey.settled]
  exact .call hunder₂ hexec₄ (.done (hat₃.underway (hattains 3 (Nat.le_refl _))) hat₃)

/-- **The bootstrap of the liaison key** takes its steps where the first has not been taken. -/
theorem bootstrapLiaisonKey_through (h : c.Attains p) (hadmin : p.admin ≠ 0 ∨ c.adminSteps = 0)
    (hs : c.At p s) :
    (bootstrapLiaisonKey c d).Through c.Underway (fun _ s' =>
      c.At ⟨p.admin, if p.liaison = 0 then c.liaisonSteps else p.liaison⟩ s') s := by
  have hunder := hs.underway h
  by_cases hliaison : p.liaison = 0
  · rw [if_pos hliaison]
    obtain ⟨admin, liaison⟩ := p
    cases hliaison
    cases hseeds : c.seedsLiaison with
    | some token => 
        obtain ⟨keyId, secret⟩ := token
        have hsteps : c.liaisonSteps = 3 := by
          rw [liaisonSteps, hseeds]
          rfl
        rw [hsteps]
        exact liaison_steps h hadmin hs hseeds
    | none =>
        have hsteps : c.liaisonSteps = 0 := by
          rw [liaisonSteps, if_pos hseeds]
        rw [hsteps]
        unfold bootstrapLiaisonKey
        split
        · exact .done hunder hs
        · rename_i hset
          cases hfind : s.records.users.find? fun u => u.username = liaisonUsername with
          | some r =>
              obtain ⟨u, hexec, -⟩ := BootStore.getUser_found _ hfind
              exact .call hunder hexec (.done hunder hs)
          | none =>
              refine .call hunder (BootStore.getUser_absent hfind) ?_
              have hname := (liaison_absent_iff hs hadmin).mp hfind
              rw [seedsLiaison, if_neg hset, if_neg hname] at hseeds
              simp only [ne_eq, not_true_eq_false, if_false, hseeds]
              exact .done hunder hs
  · rw [if_neg hliaison]
    unfold bootstrapLiaisonKey
    split
    · exact .done hunder hs
    · have hfind : (s.records.users.find? fun u => u.username = liaisonUsername) ≠ none := by
        rw [hs]
        simp [recordsAt, hliaison, liaisonUser]
      obtain ⟨r, hr⟩ := Option.ne_none_iff_exists'.mp hfind
      obtain ⟨u, hexec, -⟩ := BootStore.getUser_found _ hr
      exact .call hunder hexec (.done hunder hs)

/-! ## Whole boots -/

/-- What a complete boot makes of a progress: a bootstrap that has not begun is completed. -/
def finish (c : Setup) (p : Progress) : Progress where
  admin := if p.admin = 0 then c.adminSteps else p.admin
  liaison := if p.liaison = 0 then c.liaisonSteps else p.liaison

theorem finish_zero : c.finish ⟨0, 0⟩ = ⟨c.adminSteps, c.liaisonSteps⟩ := by
  simp [finish]

/-- **A boot**, wherever it is cut off and at its end. -/
theorem boot_through (h : c.Attains p) (hs : c.At p s) :
    (boot c d).Through c.Underway (fun _ s' => c.At (c.finish p) s') s := by
  unfold boot
  refine (bootstrapFirstAdmin_through h hs).bind fun _ s₁ hs₁ => ?_
  -- the founder's bootstrap has begun
  have hfirst : ∀ admin, admin = (if c.claimant = .founder ∧ p.admin = 0 then c.adminSteps
      else p.admin) → admin ≤ c.adminSteps ∧ (c.claimant = .founder → admin ≠ 0) ∧
        (if admin = 0 then c.adminSteps else admin) =
          if p.admin = 0 then c.adminSteps else p.admin := by
    rintro admin rfl
    have hle := h.admin_le
    have hpos : c.claimant = .founder → c.adminSteps ≠ 0 := by
      intro hclaim
      rw [adminSteps_founder hclaim]
      split
      · exact Nat.succ_ne_zero _
      · exact Nat.succ_ne_zero _
    by_cases hadmin : p.admin = 0
    · by_cases hclaim : c.claimant = .founder
      · simp [hadmin, hclaim, hpos hclaim]
      · simp [hadmin, hclaim]
    · simp [hadmin, hle]
  generalize hadmin₁ : (if c.claimant = .founder ∧ p.admin = 0 then c.adminSteps else p.admin) =
    admin at hs₁
  obtain ⟨hle, hbegun, heq⟩ := hfirst admin hadmin₁.symm
  have hattains₁ : c.Attains ⟨admin, p.liaison⟩ := by
    refine ⟨hle, h.liaison_le, ?_⟩
    rcases h.first with hnone | hliaison | hpos
    · exact .inl hnone
    · exact .inr (.inl hliaison)
    · refine .inr (.inr ?_)
      rw [← hadmin₁, if_neg fun hboth => Nat.ne_of_gt hpos hboth.2]
      exact hpos
  have hpassword := bootstrapPasswordAdmin_through (d := d) hattains₁ hbegun hs₁
  simp only [heq] at hpassword
  refine hpassword.bind fun _ s₂ hs₂ => ?_
  have hadmin₂ : (c.finish p).admin ≠ 0 ∨ c.adminSteps = 0 := by
    unfold finish
    by_cases hadmin : p.admin = 0
    · rw [if_pos hadmin]
      exact (em _).symm
    · rw [if_neg hadmin]
      exact .inl hadmin
  have hattains₂ : c.Attains ⟨(c.finish p).admin, p.liaison⟩ := by
    refine ⟨?_, h.liaison_le, hadmin₂.elim (fun hne => .inr (.inr (Nat.pos_of_ne_zero hne))) .inl⟩
    unfold finish
    dsimp only
    split
    · exact Nat.le_refl _
    · exact h.admin_le
  exact bootstrapLiaisonKey_through hattains₂ hadmin₂ hs₂

theorem at_completeBoot (h : c.Attains p) (hs : c.At p s) :
    c.At (c.finish p) (completeBoot c d s) := (boot_through h hs).alone

/-- **Boots that crash** come to some progress. -/
theorem underway_crashedBoots (crashes : List (Draw × Nat)) (h : c.Underway s) :
    c.Underway (crashedBoots c crashes s) := by
  induction crashes generalizing s with
  | nil => exact h
  | cons crash crashes ih =>
      obtain ⟨p, hattains, hs⟩ := h
      exact ih ((boot_through hattains hs).cut crash.2)

/-! ## Bootstraps that are torn -/

/-- A bootstrap has begun and cannot go on: the founder's marker row is there without the invite
or, where the link can be handed over, without the link; or the owner of the liaison key is there
without the key. -/
def Torn (c : Setup) (s : BootStore) : Prop :=
  (c.adminEmail ≠ "" ∧ s.systemRowExists = true ∧
    (s.invites.rows = [] ∨ (c.linkParameter ≠ none ∧ s.link = none))) ∨
  ((∃ u ∈ s.users.rows, u.username = liaisonUsername ∧ u.role = "user") ∧ s.apiKeys.rows = [])

/-- The same of the records. -/
theorem torn_iff_records : c.Torn s ↔
    (c.claimant = .founder ∧ (s.records.users.any fun u => u.username = systemUsername) = true ∧
      (s.records.invites = [] ∨ (c.linkParameter ≠ none ∧ s.records.link = none))) ∨
    ((∃ u ∈ s.records.users, u.username = liaisonUsername ∧ u.role = "user") ∧
      s.records.apiKeys = []) := by
  unfold Torn
  rw [claimant_founder_iff, ← BootStore.systemRowExists_records]
  simp [BootStore.records, User.settled]

/-- The founder's bootstrap is torn between its first step and its last. -/
theorem founder_torn_iff (h : c.Attains p) :
    (c.claimant = .founder ∧
      ((c.recordsAt p).users.any fun u => u.username = systemUsername) = true ∧
      ((c.recordsAt p).invites = [] ∨
        (c.linkParameter ≠ none ∧ (c.recordsAt p).link = none))) ↔
      0 < p.admin ∧ p.admin < c.adminSteps := by
  cases hclaim : c.claimant with
  | founder =>
      have hsteps := adminSteps_founder hclaim
      by_cases hadmin : p.admin = 0
      · have hempty : c.adminUsers p.admin = [] := by
          rw [adminUsers, if_pos hadmin]
        have hnone := (no_users_exist (users_unclaimed hempty)).2
        simp [hadmin, hnone]
      · obtain ⟨rest, husers, -⟩ := users_founder hclaim hadmin
        have hle := h.admin_le
        rw [hsteps] at hle ⊢
        simp only [husers, List.any_cons, decide_true, Bool.true_or, true_and]
        unfold recordsAt
        cases hlink : c.linkParameter with
        | none =>
            simp only [hlink, if_true] at hle
            by_cases hone : p.admin < 2
            · simp [hone, Nat.pos_of_ne_zero hadmin]
            · simp [hone]
        | some name =>
            simp only [hlink, reduceCtorEq, if_false] at hle
            by_cases hone : p.admin < 2
            · simp [hone, Nat.pos_of_ne_zero hadmin]
              omega
            · by_cases htwo : p.admin < 3
              · simp [hone, htwo, Nat.pos_of_ne_zero hadmin]
              · simp [hone, htwo]
  | operator => 
      have hle := h.admin_le
      simp only [adminSteps, hclaim] at hle ⊢
      simp only [reduceCtorEq, false_and, false_iff]
      omega
  | nobody =>
      have hle := h.admin_le
      simp only [adminSteps, hclaim] at hle ⊢
      simp only [reduceCtorEq, false_and, false_iff]
      omega

/-- The bootstrap of the liaison key is torn between its first step and its last. -/
theorem liaison_torn_iff (h : c.Attains p) :
    ((∃ u ∈ (c.recordsAt p).users, u.username = liaisonUsername ∧ u.role = "user") ∧
      (c.recordsAt p).apiKeys = []) ↔ 0 < p.liaison ∧ p.liaison < c.liaisonSteps := by
  have hle := h.liaison_le
  by_cases hliaison : p.liaison = 0
  · -- no user of the admin's bootstrap looks like the owner of the key
    have hother : ∀ u ∈ c.adminUsers p.admin,
        ¬ (u.username = liaisonUsername ∧ u.role = "user") := by
      intro u hu
      unfold adminUsers firstUser at hu
      split at hu
      · cases hu
      · split at hu
        · rw [List.mem_singleton.mp hu]
          simp [systemUsername, liaisonUsername]
        · rw [List.mem_singleton.mp hu]
          simp
        · cases hu
    have hnone : ¬ ∃ u ∈ (c.recordsAt p).users, u.username = liaisonUsername ∧ u.role = "user" := by
      simp only [recordsAt, hliaison, if_true, List.append_nil]
      rintro ⟨u, hu, hboth⟩
      exact hother u hu hboth
    simp [hnone, hliaison]
  · have hseeds : c.seedsLiaison ≠ none := by
      intro hnone
      rw [liaisonSteps, if_pos hnone] at hle
      exact hliaison (Nat.le_zero.mp hle)
    obtain ⟨token, htoken⟩ := Option.ne_none_iff_exists'.mp hseeds
    have howner : ∃ u ∈ (c.recordsAt p).users, u.username = liaisonUsername ∧ u.role = "user" := by
      refine ⟨c.liaisonUser ((c.adminUsers p.admin).length + 1), ?_, rfl, rfl⟩
      simp [recordsAt, hliaison]
    rw [liaisonSteps, if_neg hseeds] at hle ⊢
    simp only [howner, true_and, Nat.pos_of_ne_zero hliaison]
    unfold recordsAt seededKey
    by_cases hlast : p.liaison < 3
    · simp [hlast]
    · simp [hlast, htoken]

/-- A store is torn where a bootstrap is between its first step and its last. -/
theorem torn_iff (h : c.Attains p) (hs : c.At p s) :
    c.Torn s ↔ (0 < p.admin ∧ p.admin < c.adminSteps) ∨
      (0 < p.liaison ∧ p.liaison < c.liaisonSteps) := by
  rw [torn_iff_records, hs]
  exact or_congr (founder_torn_iff h) (liaison_torn_iff h)

theorem Attains.finish (h : c.Attains p) : c.Attains (c.finish p) := by
  obtain ⟨hle, hle', hfirst⟩ := h
  unfold Setup.finish
  constructor
  · dsimp only
    split
    · exact Nat.le_refl _
    · exact hle
  · dsimp only
    split
    · exact Nat.le_refl _
    · exact hle'
  · dsimp only
    by_cases hadmin : p.admin = 0
    · rw [if_pos hadmin]
      rcases Nat.eq_zero_or_pos c.adminSteps with hnone | hpos
      · exact .inl hnone
      · exact .inr (.inr hpos)
    · rw [if_neg hadmin]
      exact .inr (.inr (Nat.pos_of_ne_zero hadmin))

/-- The records show whether a complete boot has found a bootstrap torn. -/
theorem recordsAt_finish_iff (h : c.Attains p) :
    c.recordsAt (c.finish p) = c.recordsAt ⟨c.adminSteps, c.liaisonSteps⟩ ↔
      ¬ ((0 < p.admin ∧ p.admin < c.adminSteps) ∨ (0 < p.liaison ∧ p.liaison < c.liaisonSteps)) := by
  have hle := h.admin_le
  have hle' := h.liaison_le
  have hfinish := h.finish
  constructor
  · intro heq htorn
    have hlast : c.Attains ⟨c.adminSteps, c.liaisonSteps⟩ := by
      refine ⟨Nat.le_refl _, Nat.le_refl _, ?_⟩
      dsimp only
      omega
    -- what is torn shows in the records
    have hfounder := founder_torn_iff hfinish
    have hliaison := liaison_torn_iff hfinish
    rw [heq, founder_torn_iff hlast] at hfounder
    rw [heq, liaison_torn_iff hlast] at hliaison
    unfold finish at hfounder hliaison
    dsimp only at hfounder hliaison
    rcases htorn with ⟨hpos, hlt⟩ | ⟨hpos, hlt⟩
    · rw [if_neg (Nat.ne_of_gt hpos)] at hfounder
      omega
    · rw [if_neg (Nat.ne_of_gt hpos)] at hliaison
      omega
  · intro hwhole
    have hadmin : (c.finish p).admin = c.adminSteps := by
      unfold finish
      dsimp only
      split
      · rfl
      · omega
    have hliaison : (c.finish p).liaison = c.liaisonSteps := by
      unfold finish
      dsimp only
      split
      · rfl
      · omega
    rw [← hadmin, ← hliaison]

end Setup

/-! ## Convergence -/

/-- The admin principals of a server: its admins, and the invites by which one becomes the admin
of the Enterprise. -/
def BootStore.adminPrincipals (s : BootStore) : Nat :=
  s.users.rows.countP (fun u => u.role = "admin") +
    s.invites.rows.countP fun inv => inv.role = .enterpriseAdmin

/-- The bootstraps make one admin principal at most. -/
theorem Setup.Underway.adminPrincipals_le {c : Setup} {s : BootStore} (h : c.Underway s) :
    s.adminPrincipals ≤ 1 := by
  obtain ⟨p, hattains, hs⟩ := h
  have hle := hattains.admin_le
  have hrecords : s.adminPrincipals = s.records.users.countP (fun u => u.role = "admin") +
      s.records.invites.countP fun inv => inv.role = .enterpriseAdmin := by
    simp only [BootStore.adminPrincipals, BootStore.records, List.countP_map]
    rfl
  have hliaison : (if p.liaison = 0 then []
      else [c.liaisonUser ((c.adminUsers p.admin).length + 1)]).countP
        (fun u => u.role = "admin") = 0 := by
    split
    · rfl
    · rfl
  rw [hrecords, hs]
  simp only [Setup.recordsAt, List.countP_append, hliaison, Nat.add_zero]
  unfold Setup.adminUsers
  cases hclaim : c.claimant with
  | founder =>
      -- the invite, and no admin among the users
      have hnone : (if p.admin = 0 then [] else c.firstUser.toList).countP
          (fun u => u.role = "admin") = 0 := by
        simp only [Setup.firstUser, hclaim]
        split
        · rfl
        · rfl
      rw [hnone, Nat.zero_add]
      split
      · exact Nat.zero_le _
      · exact Nat.le_refl _
  | operator =>
      -- the account, and no invite
      simp only [Setup.adminSteps, hclaim] at hle
      rw [if_pos (show p.admin < 2 by omega), List.countP_nil, Nat.add_zero]
      simp only [Setup.firstUser, hclaim]
      split
      · exact Nat.zero_le _
      · exact Nat.le_refl _
  | nobody =>
      simp only [Setup.adminSteps, hclaim] at hle
      rw [if_pos (show p.admin < 2 by omega), if_pos (Nat.le_zero.mp hle)]
      exact Nat.zero_le _

/-- **Crash convergence.** However many boots of a new server crash, wherever, there is at most one
admin principal; and a complete boot after them leaves the records of a single clean boot, up to
what the boots drew, exactly if they have not left a bootstrap torn. -/
theorem boots_converge_iff (c : Setup) (crashes : List (Draw × Nat)) (d d' : Draw) :
    let s := crashedBoots c crashes .fresh
    s.adminPrincipals ≤ 1 ∧ (completeBoot c d s).adminPrincipals ≤ 1 ∧
      ((completeBoot c d s).records = (completeBoot c d' .fresh).records ↔ ¬ c.Torn s) := by
  intro s
  have hunder : c.Underway s :=
    Setup.underway_crashedBoots crashes (Setup.at_fresh.underway Setup.attains_zero)
  obtain ⟨p, hattains, hs⟩ := hunder
  have hclean : (completeBoot c d' .fresh).records = c.recordsAt (c.finish ⟨0, 0⟩) :=
    Setup.at_completeBoot Setup.attains_zero Setup.at_fresh
  have hlast : (completeBoot c d s).records = c.recordsAt (c.finish p) :=
    Setup.at_completeBoot hattains hs
  have hunder : c.Underway s := ⟨p, hattains, hs⟩
  have hunder' : c.Underway (completeBoot c d s) := ⟨c.finish p, hattains.finish, hlast⟩
  refine ⟨hunder.adminPrincipals_le, hunder'.adminPrincipals_le, ?_⟩
  rw [hclean, hlast, Setup.finish_zero, Setup.recordsAt_finish_iff hattains,
    Setup.torn_iff hattains hs]

/-! ### A crash between two steps -/

/-- A setup that names a founder. -/
def sampleSetup : Setup where
  env := ⟨fun name => if name = "CQ_INITIAL_ADMIN_EMAIL" then some "founder@acme.example"
    else if name = "CQ_L2_SLUG" then some "acme" else none⟩
  encodeJwt email jti _ _ := email ++ "." ++ jti
  uuidHex _ := none
  decimal _ := none
  hashes _ := true
  ssm := true

/-- A server that crashes after it has created the founder's marker row never invites the
founder. -/
theorem crash_loses_invite :
    ¬ ∀ (c : Setup) (crashes : List (Draw × Nat)) (d d' : Draw),
      (completeBoot c d (crashedBoots c crashes .fresh)).records =
        (completeBoot c d' .fresh).records := by
  intro h
  exact absurd (h sampleSetup [(.zero, 2)] .zero .zero) (by decide +kernel)

end EighthLayer.Bootstrap
