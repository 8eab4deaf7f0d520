import EighthLayer.Lib.Interleave
import EighthLayer.Lib.Table

/-!
# EighthLayer.Invites.Store

The tables `invites` and `users`, and the statements by which invites are issued, claimed
and revoked and their claimers become users.

Each statement is atomic; the clock moves between statements (`tick`). Times are instants.
-/

namespace EighthLayer.Invites

open Lib

/-! ## Rows -/

/-- `InviteRole`. -/
inductive InviteRole where
  | enterpriseAdmin
  | l2Admin
  | user
deriving DecidableEq

/-- The role as the source writes it. -/
def InviteRole.text : InviteRole → String
  | enterpriseAdmin => "enterprise_admin"
  | l2Admin => "l2_admin"
  | user => "user"

/-- A row of `invites`. -/
structure Invite where
  id : Nat
  jti : String
  email : String
  role : InviteRole
  targetL2Id : Option String
  issuedBy : Nat
  issuedAt : Int
  expiresAt : Int
  claimedAt : Option Int
  claimedBy : Option Nat
  revokedAt : Option Int
deriving DecidableEq

/-- `InviteStatus`. -/
inductive InviteStatus where
  | pending
  | claimed
  | expired
  | revoked
deriving DecidableEq

/-- The property `status`, at a time. -/
def Invite.status (inv : Invite) (now : Int) : InviteStatus :=
  if inv.revokedAt ≠ none then .revoked
  else if inv.claimedAt ≠ none then .claimed
  else if inv.expiresAt ≤ now then .expired
  else .pending

theorem Invite.status_eq_pending_iff {inv : Invite} {now : Int} :
    inv.status now = .pending ↔
      inv.revokedAt = none ∧ inv.claimedAt = none ∧ now < inv.expiresAt := by
  unfold status
  by_cases hrevoked : inv.revokedAt = none
  · by_cases hclaimed : inv.claimedAt = none
    · by_cases hexpired : inv.expiresAt ≤ now
      · simp [hrevoked, hclaimed, hexpired]
      · simp [hrevoked, hclaimed, hexpired, Int.not_le.mp hexpired]
    · simp [hrevoked, hclaimed]
  · simp [hrevoked]

/-- A status other than `pending` does not change as time passes. -/
theorem Invite.status_mono {inv : Invite} {now later : Int} (hle : now ≤ later)
    (h : inv.status now ≠ .pending) : inv.status later = inv.status now := by
  unfold status at h ⊢
  by_cases hrevoked : inv.revokedAt = none
  · by_cases hclaimed : inv.claimedAt = none
    · simp only [hrevoked, hclaimed, ne_eq, not_true_eq_false, if_false] at h ⊢
      by_cases hexpired : inv.expiresAt ≤ now
      · rw [if_pos hexpired, if_pos (Int.le_trans hexpired hle)]
      · exact absurd (if_neg hexpired) h
    · simp [hrevoked, hclaimed]
  · simp [hrevoked]

/-- A row of `users`. -/
structure Account where
  id : Nat
  username : String
  passwordHash : String
  role : String
  createdAt : Int
  enterpriseId : String
  groupId : String
deriving DecidableEq

/-- A row of `persona_assignments`, as far as the claim of an invite reads it. -/
structure PersonaRow where
  username : String
  disabledAt : Option Int
deriving DecidableEq

/-! ## The store -/

/-- The tables and the clock. The ids of a table go up (`AUTOINCREMENT`) and are unique, as is
the `jti` of an invite; whoever has claimed an invite, or has a persona, is a user. -/
structure InviteStore where
  clock : Int
  invites : Table Invite.id
  lastInvite : Nat
  users : Table Account.username
  lastUser : Nat
  personas : Table PersonaRow.username
  invite_le : ∀ inv ∈ invites, inv.id ≤ lastInvite
  user_le : ∀ u ∈ users, u.id ≤ lastUser
  jti_unique : ∀ inv ∈ invites, ∀ inv' ∈ invites, inv.jti = inv'.jti → inv = inv'
  user_unique : ∀ u ∈ users, ∀ u' ∈ users, u.id = u'.id → u = u'
  claimer : ∀ inv ∈ invites, ∀ id, inv.claimedBy = some id → ∃ u ∈ users, u.id = id
  persona_user : ∀ p ∈ personas, users.find p.username ≠ none

namespace InviteStore

/-- `SELECT … WHERE jti = :jti`. -/
def byJti (s : InviteStore) (jti : String) : Option Invite :=
  s.invites.rows.find? fun inv => inv.jti = jti

theorem byJti_eq_some_iff {s : InviteStore} {jti : String} {inv : Invite} :
    s.byJti jti = some inv ↔ inv ∈ s.invites ∧ inv.jti = jti := by
  unfold byJti
  constructor
  · intro h
    exact ⟨List.mem_of_find?_eq_some h, by simpa using List.find?_some h⟩
  · rintro ⟨hmem, hjti⟩
    cases hfind : s.invites.rows.find? fun inv => inv.jti = jti with
    | none =>
        have hnot := List.find?_eq_none.mp hfind inv hmem
        exact absurd hjti (by simpa using hnot)
    | some inv' =>
        have hmem' := List.mem_of_find?_eq_some hfind
        have hjti' : inv'.jti = jti := by simpa using List.find?_some hfind
        rw [s.jti_unique inv' hmem' inv hmem (hjti'.trans hjti.symm)]

/-- A user has this id: the foreign key of `issued_by` and `claimed_by`. -/
def HasUser (s : InviteStore) (id : Nat) : Prop := ∃ u ∈ s.users.rows, u.id = id

instance (s : InviteStore) (id : Nat) : Decidable (s.HasUser id) :=
  inferInstanceAs (Decidable (∃ u ∈ s.users.rows, u.id = id))

/-- Time passes. -/
def tick (s : InviteStore) (d : Nat) : InviteStore := { s with clock := s.clock + d }

/-- The `INSERT` of `mint_invite`: the row, and the store with it; `none` when the `jti` is taken
or the issuer is no user (`IntegrityError`). -/
def insertInvite (s : InviteStore) (jti email : String) (role : InviteRole)
    (targetL2Id : Option String) (issuedBy : Nat) (issuedAt expiresAt : Int) :
    Option (Invite × InviteStore) :=
  let row : Invite :=
    { id := s.lastInvite + 1, jti, email, role, targetL2Id, issuedBy, issuedAt, expiresAt
      claimedAt := none, claimedBy := none, revokedAt := none }
  if hfree : s.byJti jti = none ∧ s.HasUser issuedBy then
    match h : s.invites.insert row with
    | none => none
    | some invites => some
        (row, { s with
          invites
          lastInvite := s.lastInvite + 1
          invite_le := by
            intro inv hinv
            rcases (Table.mem_insert h).mp hinv with hinv | rfl
            · exact Nat.le_trans (s.invite_le inv hinv) (Nat.le_succ _)
            · exact Nat.le_refl _
          jti_unique := by
            have hnew : ∀ inv ∈ s.invites, inv.jti ≠ jti := by
              intro inv hinv hjti
              have hfound := s.byJti_eq_some_iff.mpr ⟨hinv, hjti⟩
              rw [hfree.1] at hfound
              cases hfound
            intro inv hinv inv' hinv' heq
            rcases (Table.mem_insert h).mp hinv with hinv | rfl
            · rcases (Table.mem_insert h).mp hinv' with hinv' | rfl
              · exact s.jti_unique inv hinv inv' hinv' heq
              · exact absurd heq (hnew inv hinv)
            · rcases (Table.mem_insert h).mp hinv' with hinv' | rfl
              · exact absurd heq.symm (hnew inv' hinv')
              · rfl
          claimer := by
            intro inv hinv id hid
            rcases (Table.mem_insert h).mp hinv with hinv | rfl
            · exact s.claimer inv hinv id hid
            · cases hid })
  else none

/-- An update of columns of `invites` other than the id and the `jti`; a claimer is a user. -/
def updateInvites (s : InviteStore) (p : Invite → Bool) (f : Invite → Invite)
    (hid : ∀ r, (f r).id = r.id) (hjti : ∀ r, (f r).jti = r.jti)
    (hclaimer : ∀ r id, (f r).claimedBy = some id → r.claimedBy = some id ∨ s.HasUser id) :
    InviteStore :=
  { s with
    invites := s.invites.update p f hid
    invite_le := by
      intro inv hinv
      obtain ⟨r, hr, rfl⟩ := Table.mem_update.mp hinv
      split
      · rw [hid]
        exact s.invite_le r hr
      · exact s.invite_le r hr
    jti_unique := by
      have hkept : ∀ r : Invite, (if p r then f r else r).jti = r.jti := by
        intro r
        split
        · exact hjti r
        · rfl
      intro inv hinv inv' hinv' heq
      obtain ⟨r, hr, rfl⟩ := Table.mem_update.mp hinv
      obtain ⟨r', hr', rfl⟩ := Table.mem_update.mp hinv'
      rw [hkept, hkept] at heq
      rw [s.jti_unique r hr r' hr' heq]
    claimer := by
      intro inv hinv id hclaimed
      obtain ⟨r, hr, rfl⟩ := Table.mem_update.mp hinv
      split at hclaimed
      · rcases hclaimer r id hclaimed with hclaimed | huser
        · exact s.claimer r hr id hclaimed
        · exact huser
      · exact s.claimer r hr id hclaimed }

/-- `UPDATE invites SET claimed_at, claimed_by … WHERE id = :id AND claimed_at IS NULL AND
revoked_at IS NULL`: how many rows it has matched; `none` when there is one but the claimer is
no user (`IntegrityError`). -/
def claim (s : InviteStore) (id : Nat) (now : Int) (userId : Nat) : Option Nat × InviteStore :=
  match s.invites.find id with
  | none => (some 0, s)
  | some inv =>
    if inv.claimedAt = none ∧ inv.revokedAt = none then
      if huser : s.HasUser userId then
        (some 1, s.updateInvites
          (fun r => r.id = id && r.claimedAt = none && r.revokedAt = none)
          (fun r => { r with claimedAt := some now, claimedBy := some userId })
          (fun _ => rfl) (fun _ => rfl) fun _ _ h => .inr (Option.some.inj h ▸ huser))
      else (none, s)
    else (some 0, s)

/-- `UPDATE invites SET revoked_at = :now WHERE id = :id AND revoked_at IS NULL`. -/
def revoke (s : InviteStore) (id : Nat) (now : Int) : InviteStore :=
  s.updateInvites (fun r => r.id = id && r.revokedAt = none)
    (fun r => { r with revokedAt := some now }) (fun _ => rfl) (fun _ => rfl) fun _ _ h => .inl h

/-- `create_user`; `none` when the username is taken (`IntegrityError`). Without a tenancy the
defaults of the columns apply. -/
def createUser (s : InviteStore) (username passwordHash role : String)
    (tenancy : Option (String × String)) : Option InviteStore :=
  let row : Account :=
    { id := s.lastUser + 1, username, passwordHash, role, createdAt := s.clock
      enterpriseId := (tenancy.map Prod.fst).getD "default-enterprise"
      groupId := (tenancy.map Prod.snd).getD "default-group" }
  match h : s.users.insert row with
  | none => none
  | some users => some
      { s with
        users
        lastUser := s.lastUser + 1
        user_le := by
          intro u hu
          rcases (Table.mem_insert h).mp hu with hu | rfl
          · exact Nat.le_trans (s.user_le u hu) (Nat.le_succ _)
          · exact Nat.le_refl _
        user_unique := by
          have hnew : ∀ u ∈ s.users, u.id ≠ s.lastUser + 1 := by
            intro u hu heq
            have hle := s.user_le u hu
            omega
          intro u hu u' hu' heq
          rcases (Table.mem_insert h).mp hu with hu | rfl
          · rcases (Table.mem_insert h).mp hu' with hu' | rfl
            · exact s.user_unique u hu u' hu' heq
            · exact absurd heq (hnew u hu)
          · rcases (Table.mem_insert h).mp hu' with hu' | rfl
            · exact absurd heq.symm (hnew u' hu')
            · rfl
        claimer := by
          intro inv hinv id hid
          obtain ⟨u, hu, rfl⟩ := s.claimer inv hinv id hid
          exact ⟨u, (Table.mem_insert h).mpr (.inl hu), rfl⟩
        persona_user := by
          intro p hp
          obtain ⟨u, hu⟩ := Option.ne_none_iff_exists'.mp (s.persona_user p hp)
          rw [Table.find_insert_of_some h hu]
          exact Option.some_ne_none u }

end InviteStore

/-! ## The statements -/

/-- What `jwt.decode` makes of a bearer: it has expired, or is no invite, or carries a `jti`. -/
inductive Decoded where
  | expired
  | invalid
  | ok (jti : String)
deriving DecidableEq

/-- The bearers, and `jwt.decode` at a time: as `_decode_jwt` calls it, and as the routes call
it for the status of their answer. What a bearer carries is signed: later on it carries the
same, or has expired. -/
structure Jwt where
  Token : Type
  decode : Token → Int → Decoded
  decodeLoose : Token → Int → Decoded
  decode_later : ∀ token jti now later, now ≤ later → decode token now = .ok jti →
    decode token later = .ok jti ∨ decode token later = .expired

variable {J : Jwt}

/-- The statements of the routes; `crash` is where a request is cut off. -/
inductive InviteStmt (J : Jwt) where
  | tick (d : Nat)
  | crash
  | readClock
  | decodeJwt (token : J.Token)
  | decodeLoose (token : J.Token)
  | insertInvite (jti email : String) (role : InviteRole) (targetL2Id : Option String)
      (issuedBy : Nat) (issuedAt expiresAt : Int)
  | byJti (jti : String)
  | byId (id : Nat)
  /-- The property `status`, which reads the clock. -/
  | statusOf (inv : Invite)
  | claim (id : Nat) (now : Int) (userId : Nat)
  | revoke (id : Nat) (now : Int)
  | getUser (username : String)
  | createUser (username passwordHash role : String) (tenancy : Option (String × String))
  | getPersona (username : String)

@[reducible] def InviteStmt.Answer : InviteStmt J → Type
  | tick _ | crash | revoke _ _ => Unit
  | readClock => Int
  | decodeJwt _ | decodeLoose _ => Decoded
  | insertInvite _ _ _ _ _ _ _ | byJti _ | byId _ => Option Invite
  | statusOf _ => InviteStatus
  | claim _ _ _ => Option Nat
  | getUser _ => Option Account
  | createUser _ _ _ _ => Bool
  | getPersona _ => Option PersonaRow

def InviteStmt.exec : (q : InviteStmt J) → InviteStore → q.Answer × InviteStore
  | tick d, s => ((), s.tick d)
  | crash, s => ((), s)
  | readClock, s => (s.clock, s)
  | decodeJwt token, s => (J.decode token s.clock, s)
  | decodeLoose token, s => (J.decodeLoose token s.clock, s)
  | insertInvite jti email role targetL2Id issuedBy issuedAt expiresAt, s =>
      match s.insertInvite jti email role targetL2Id issuedBy issuedAt expiresAt with
      | none => (none, s)
      | some (inv, s') => (some inv, s')
  | byJti jti, s => (s.byJti jti, s)
  | byId id, s => (s.invites.find id, s)
  | statusOf inv, s => (inv.status s.clock, s)
  | claim id now userId, s => s.claim id now userId
  | revoke id now, s => ((), s.revoke id now)
  | getUser username, s => (s.users.find username, s)
  | createUser username passwordHash role tenancy, s =>
      match s.createUser username passwordHash role tenancy with
      | none => (false, s)
      | some s' => (true, s')
  | getPersona username, s => (s.personas.find username, s)

instance : Database InviteStore (InviteStmt.Answer (J := J)) := ⟨InviteStmt.exec⟩

/-- Programs of these statements. -/
abbrev InviteProg (J : Jwt) (α : Type) : Type := Prog (InviteStmt.Answer (J := J)) α

/-- The worlds they run in. -/
abbrev InviteWorld (J : Jwt) : Type := World InviteStore (InviteStmt.Answer (J := J))

/-- A statement that has been executed, with its answer. -/
abbrev did (i : Nat) (q : InviteStmt J) (a : q.Answer) : Event (InviteStmt.Answer (J := J)) :=
  ⟨i, q, a⟩

/-! ## What a statement does -/

namespace InviteStore

theorem updateInvites_find (s : InviteStore) {p : Invite → Bool} {f : Invite → Invite}
    {hid : ∀ r, (f r).id = r.id} {hjti : ∀ r, (f r).jti = r.jti}
    {hclaimer : ∀ r id, (f r).claimedBy = some id → r.claimedBy = some id ∨ s.HasUser id}
    (k : Nat) :
    (s.updateInvites p f hid hjti hclaimer).invites.find k =
      (s.invites.find k).map fun r => if p r then f r else r :=
  @Table.find_update _ _ _ s.invites p f hid _ k

theorem insertInvite_eq_some {s s' : InviteStore} {inv : Invite} {jti email : String}
    {role : InviteRole} {targetL2Id : Option String} {issuedBy : Nat} {issuedAt expiresAt : Int}
    (h : s.insertInvite jti email role targetL2Id issuedBy issuedAt expiresAt = some (inv, s')) :
    inv = ⟨s.lastInvite + 1, jti, email, role, targetL2Id, issuedBy, issuedAt, expiresAt, none,
      none, none⟩ ∧ s.invites.insert inv = some s'.invites ∧ s'.users = s.users ∧
        s'.clock = s.clock ∧ s'.personas = s.personas := by
  unfold insertInvite at h
  dsimp only at h
  split at h
  · split at h
    · cases h
    · rename_i invites hins
      cases h
      exact ⟨rfl, hins, rfl, rfl, rfl⟩
  · cases h

theorem createUser_eq_some {s s' : InviteStore} {username passwordHash role : String}
    {tenancy : Option (String × String)}
    (h : s.createUser username passwordHash role tenancy = some s') :
    ∃ row : Account, row.username = username ∧ row.id = s.lastUser + 1 ∧
      s.users.insert row = some s'.users ∧ s'.invites = s.invites ∧ s'.clock = s.clock ∧
        s'.personas = s.personas := by
  unfold createUser at h
  dsimp only at h
  split at h
  · cases h
  · rename_i users hins
    cases h
    exact ⟨_, rfl, rfl, hins, rfl, rfl, rfl⟩

theorem claim_cases (s : InviteStore) (id : Nat) (now : Int) (userId : Nat) :
    (s.claim id now userId).2 = s ∧
        ((s.claim id now userId).1 = some 0 ∨ (s.claim id now userId).1 = none) ∨
      ∃ inv, s.invites.find id = some inv ∧ inv.claimedAt = none ∧ inv.revokedAt = none ∧
        s.HasUser userId ∧ (s.claim id now userId).1 = some 1 ∧
        (s.claim id now userId).2.users = s.users ∧ (s.claim id now userId).2.clock = s.clock ∧
        ∀ k, (s.claim id now userId).2.invites.find k = (s.invites.find k).map fun r =>
          if r.id = id ∧ r.claimedAt = none ∧ r.revokedAt = none then
            { r with claimedAt := some now, claimedBy := some userId } else r := by
  unfold claim
  split
  · exact .inl ⟨rfl, .inl rfl⟩
  · rename_i inv hinv
    split
    · rename_i hopen
      split
      · rename_i huser
        refine .inr ⟨inv, hinv, hopen.1, hopen.2, huser, rfl, rfl, rfl, fun k => ?_⟩
        rw [updateInvites_find]
        simp [and_assoc]
      · exact .inl ⟨rfl, .inr rfl⟩
    · exact .inl ⟨rfl, .inl rfl⟩

theorem revoke_find (s : InviteStore) (id : Nat) (now : Int) (k : Nat) :
    (s.revoke id now).invites.find k = (s.invites.find k).map fun r =>
      if r.id = id ∧ r.revokedAt = none then { r with revokedAt := some now } else r := by
  unfold revoke
  rw [updateInvites_find]
  simp

end InviteStore

namespace InviteStmt

/-- What a statement makes of an invite that is there: nothing, or it claims it or revokes it. -/
inductive Changes (s : InviteStore) : InviteStmt J → Invite → Invite → Prop
  | same {q : InviteStmt J} {inv : Invite} : Changes s q inv inv
  | claimed {inv : Invite} {now : Int} {userId : Nat} (hclaimed : inv.claimedAt = none)
      (hrevoked : inv.revokedAt = none) (huser : s.HasUser userId) :
      Changes s (claim inv.id now userId) inv
        { inv with claimedAt := some now, claimedBy := some userId }
  | revoked {inv : Invite} {now : Int} (hrevoked : inv.revokedAt = none) :
      Changes s (revoke inv.id now) inv { inv with revokedAt := some now }

/-- **The step lemma.** An invite stays, changed in no other way. -/
theorem exec_find_invite (q : InviteStmt J) {s : InviteStore} {id : Nat} {inv : Invite}
    (h : s.invites.find id = some inv) :
    ∃ inv', (q.exec s).2.invites.find id = some inv' ∧ Changes s q inv inv' := by
  have hid : inv.id = id := (Table.find_eq_some_iff.mp h).2
  cases q with
  | claim k now userId =>
      rcases s.claim_cases k now userId with ⟨heq, -⟩ | ⟨inv₀, -, -, -, huser, -, -, -, hfind⟩
      · exact ⟨inv, (congrArg (fun s' : InviteStore => s'.invites.find id) heq).trans h, .same⟩
      · refine ⟨_, (hfind id).trans (congrArg (Option.map _) h), ?_⟩
        dsimp only
        split
        · rename_i hopen
          obtain ⟨rfl, hclaimed, hrevoked⟩ := hopen
          exact .claimed hclaimed hrevoked huser
        · exact .same
  | revoke k now =>
      refine ⟨_, (s.revoke_find k now id).trans (congrArg (Option.map _) h), ?_⟩
      dsimp only
      split
      · rename_i hopen
        obtain ⟨rfl, hrevoked⟩ := hopen
        exact .revoked hrevoked
      · exact .same
  | insertInvite jti email role targetL2Id issuedBy issuedAt expiresAt =>
      refine ⟨inv, ?_, .same⟩
      unfold exec
      dsimp only
      split
      · exact h
      · rename_i inv₀ s' hs
        exact Table.find_insert_of_some (InviteStore.insertInvite_eq_some hs).2.1 h
  | createUser username passwordHash role tenancy =>
      refine ⟨inv, ?_, .same⟩
      unfold exec
      dsimp only
      split
      · exact h
      · rename_i s' hs
        obtain ⟨row, -, -, -, hsame, -, -⟩ := InviteStore.createUser_eq_some hs
        rw [hsame]
        exact h
  | tick _ | crash | readClock | decodeJwt _ | decodeLoose _ | byJti _ | byId _ | statusOf _ | getUser _
  | getPersona _ => exact ⟨inv, h, .same⟩

/-- An invite that was not there is neither claimed nor revoked. -/
theorem exec_new_invite {q : InviteStmt J} {s : InviteStore} {id : Nat} {inv : Invite}
    (h : (q.exec s).2.invites.find id = some inv) (hnone : s.invites.find id = none) :
    inv.claimedAt = none ∧ inv.claimedBy = none ∧ inv.revokedAt = none := by
  cases q with
  | claim k now userId =>
      rcases s.claim_cases k now userId with ⟨heq, -⟩ | ⟨inv₀, -, -, -, huser, -, -, -, hfind⟩
      · have hsame : (s.claim k now userId).2.invites.find id = s.invites.find id :=
          congrArg (fun s' : InviteStore => s'.invites.find id) heq
        cases (hsame.trans hnone).symm.trans h
      · have hsame := (hfind id).trans (congrArg (Option.map _) hnone)
        cases hsame.symm.trans h
  | revoke k now =>
      have hsame := (s.revoke_find k now id).trans (congrArg (Option.map _) hnone)
      cases hsame.symm.trans h
  | insertInvite jti email role targetL2Id issuedBy issuedAt expiresAt =>
      unfold exec at h
      dsimp only at h
      split at h
      · cases hnone.symm.trans h
      · rename_i inv₀ s' hs
        obtain ⟨hrow, hins, -⟩ := InviteStore.insertInvite_eq_some hs
        obtain ⟨hmem, hid⟩ := Table.find_eq_some_iff.mp h
        rcases (Table.mem_insert hins).mp hmem with hmem | rfl
        · exact absurd hid (Table.find_eq_none_iff.mp hnone inv hmem)
        · rw [hrow]
          exact ⟨rfl, rfl, rfl⟩
  | createUser username passwordHash role tenancy =>
      unfold exec at h
      dsimp only at h
      split at h
      · cases hnone.symm.trans h
      · rename_i s' hs
        obtain ⟨row, -, -, -, hsame, -, -⟩ := InviteStore.createUser_eq_some hs
        rw [hsame] at h
        cases hnone.symm.trans h
  | tick _ | crash | readClock | decodeJwt _ | decodeLoose _ | byJti _ | byId _ | statusOf _ | getUser _
  | getPersona _ => cases hnone.symm.trans h

/-- The clock does not go back. -/
theorem exec_clock (q : InviteStmt J) (s : InviteStore) : s.clock ≤ (q.exec s).2.clock := by
  cases q with
  | tick d =>
      change s.clock ≤ s.clock + d
      omega
  | claim k now userId =>
      rcases s.claim_cases k now userId with ⟨heq, -⟩ | ⟨_, -, -, -, -, -, -, hclock, -⟩
      · exact Int.le_of_eq (congrArg InviteStore.clock heq).symm
      · exact Int.le_of_eq hclock.symm
  | insertInvite jti email role targetL2Id issuedBy issuedAt expiresAt =>
      unfold exec
      dsimp only
      split
      · exact Int.le_refl _
      · rename_i inv₀ s' hs
        exact Int.le_of_eq (InviteStore.insertInvite_eq_some hs).2.2.2.1.symm
  | createUser username passwordHash role tenancy =>
      unfold exec
      dsimp only
      split
      · exact Int.le_refl _
      · rename_i s' hs
        obtain ⟨row, -, -, -, -, hclock, -⟩ := InviteStore.createUser_eq_some hs
        exact Int.le_of_eq hclock.symm
  | revoke _ _ | crash | readClock | decodeJwt _ | decodeLoose _ | byJti _ | byId _ | statusOf _
  | getUser _ | getPersona _ => exact Int.le_refl _

end InviteStmt

end EighthLayer.Invites
