import EighthLayer.Consent.Grant
import EighthLayer.Lib.Interleave
import EighthLayer.Lib.Table

/-!
# EighthLayer.Consent.Store

The tables `xgroup_consent_pending` and `xgroup_consent`, and the statements of the routes
over them. A pending grant is proposed, cosigned and, in one transaction, made an active one;
an active grant is revoked, and none is removed.

Both `UPDATE`s are guarded by the status of the row; how many rows they have reached is not
looked at.
-/

namespace EighthLayer.Consent

open Lib

/-! ## The tables -/

/-- One of the two signatures of a grant, and who it is said to be from. -/
structure Signer where
  l2 : String
  pubkey : String
  signature : String
deriving DecidableEq

/-- A row of `xgroup_consent_pending`. The times are those that its texts denote; the columns
of the cosigner are written together. -/
structure Pending where
  pendingId : String
  enterpriseId : String
  sourceL2 : String
  targetL2 : String
  bodyCanonical : String
  bodySha256 : String
  proposer : Signer
  cosigner : Option (Signer × Int)
  proposedAt : Int
  expiresAt : Int
  status : PendingStatus
deriving DecidableEq

/-- A row after the `UPDATE` of `cosign_grant` has reached it. -/
def Pending.cosign (p : Pending) (signer : Signer) (cosignedAt : Int) : Pending :=
  { p with cosigner := some (signer, cosignedAt), status := .cosigned }

@[simp] theorem Pending.cosign_id (p : Pending) (signer : Signer) (cosignedAt : Int) :
    (p.cosign signer cosignedAt).pendingId = p.pendingId := rfl

/-- A row as it was proposed. -/
def Pending.proposal (p : Pending) : Pending := { p with cosigner := none, status := .proposed }

@[simp] theorem Pending.cosign_proposal (p : Pending) (signer : Signer) (cosignedAt : Int) :
    (p.cosign signer cosignedAt).proposal = p.proposal := rfl

/-- `WHERE pending_id = :pid AND status = 'proposed'`. -/
def Pending.isProposed (pendingId : String) (p : Pending) : Bool :=
  p.pendingId = pendingId && p.status = .proposed

/-- Who has revoked a grant, when and why. -/
structure Revocation where
  revokedAt : Int
  byL2 : Option String
  byPubkey : String
  byRecovery : Bool
  reason : Option String
deriving DecidableEq

/-- A row of `xgroup_consent`. The columns of the revocation are written together. -/
structure Grant where
  grantId : String
  enterpriseId : String
  sourceL2 : String
  targetL2 : String
  bodyCanonical : String
  bodySha256 : String
  scope : GrantScope
  signerA : Signer
  signerB : Signer
  recoveryOperatorPubkey : String
  issuedAt : String
  expiresAt : String
  ratifiedAt : Int
  nonce : String
  version : String
  status : GrantStatus
  revocation : Option Revocation
deriving DecidableEq

/-- A row after the `UPDATE` of `revoke_grant` has reached it. -/
def Grant.revoke (g : Grant) (r : Revocation) : Grant :=
  { g with status := .revoked, revocation := some r }

@[simp] theorem Grant.revoke_id (g : Grant) (r : Revocation) :
    (g.revoke r).grantId = g.grantId := rfl

/-- A row as it was ratified. -/
def Grant.ratified (g : Grant) : Grant := { g with status := .active, revocation := none }

@[simp] theorem Grant.revoke_ratified (g : Grant) (r : Revocation) :
    (g.revoke r).ratified = g.ratified := rfl

/-- `WHERE grant_id = :gid AND status = 'active'`. -/
def Grant.isActive (grantId : String) (g : Grant) : Bool :=
  g.grantId = grantId && g.status = .active

/-- The two tables. -/
structure ConsentStore where
  pending : Table Pending.pendingId
  grants : Table Grant.grantId

namespace ConsentStore

/-- No grants. -/
def empty : ConsentStore := ⟨.empty, .empty⟩

/-- The transaction of `propose_grant`; `none` is an `IntegrityError`. -/
def insertPending (s : ConsentStore) (p : Pending) : Option ConsentStore :=
  (s.pending.insert p).map fun pending => { s with pending }

/-- The transaction of `cosign_grant`. -/
def recordCosign (s : ConsentStore) (pendingId : String) (signer : Signer) (cosignedAt : Int) :
    ConsentStore :=
  { s with
    pending := s.pending.update (Pending.isProposed pendingId)
      (fun p => p.cosign signer cosignedAt) fun p => p.cosign_id signer cosignedAt }

/-- The transaction of `ratify_grant`; `none` is an `IntegrityError`. -/
def promote (s : ConsentStore) (g : Grant) (pendingId : String) : Option ConsentStore :=
  (s.grants.insert g).map fun grants =>
    { pending := s.pending.delete fun p => p.pendingId = pendingId
      grants }

/-- The transaction of `revoke_grant`. -/
def recordRevoke (s : ConsentStore) (grantId : String) (r : Revocation) : ConsentStore :=
  { s with
    grants := s.grants.update (Grant.isActive grantId) (fun g => g.revoke r)
      fun g => g.revoke_id r }

end ConsentStore

/-! ## The statements -/

/-- The statements of the routes, each a transaction of its own. -/
inductive ConsentStmt where
  | loadPending (pendingId : String)
  | insertPending (p : Pending)
  | recordCosign (pendingId : String) (signer : Signer) (cosignedAt : Int)
  | promote (g : Grant) (pendingId : String)
  | loadActive (grantId : String)
  | recordRevoke (grantId : String) (r : Revocation)

/-- What a statement answers: a row, or whether a row was inserted. -/
@[reducible] def ConsentStmt.Answer : ConsentStmt → Type
  | loadPending _ => Option Pending
  | loadActive _ => Option Grant
  | insertPending _ | promote _ _ => Bool
  | recordCosign _ _ _ | recordRevoke _ _ => Unit

def ConsentStmt.exec : (q : ConsentStmt) → ConsentStore → q.Answer × ConsentStore
  | loadPending pendingId, s => (s.pending.find pendingId, s)
  | insertPending p, s =>
      match s.insertPending p with
      | none => (false, s)
      | some s' => (true, s')
  | recordCosign pendingId signer cosignedAt, s => ((), s.recordCosign pendingId signer cosignedAt)
  | promote g pendingId, s =>
      match s.promote g pendingId with
      | none => (false, s)
      | some s' => (true, s')
  | loadActive grantId, s => (s.grants.find grantId, s)
  | recordRevoke grantId r, s => ((), s.recordRevoke grantId r)

instance : Database ConsentStore ConsentStmt.Answer := ⟨ConsentStmt.exec⟩

/-- The worlds of the routes. -/
abbrev ConsentWorld : Type := World ConsentStore ConsentStmt.Answer

/-- A statement that has been executed, with its answer. -/
abbrev did (i : Nat) (q : ConsentStmt) (a : q.Answer) : Event ConsentStmt.Answer := ⟨i, q, a⟩

theorem Pending.isProposed_iff {pendingId : String} {p : Pending} :
    p.isProposed pendingId = true ↔ p.pendingId = pendingId ∧ p.status = .proposed := by
  simp [isProposed]

theorem Grant.isActive_iff {grantId : String} {g : Grant} :
    g.isActive grantId = true ↔ g.grantId = grantId ∧ g.status = .active := by
  simp [isActive]

/-! ## What a statement does -/

namespace ConsentStore

theorem recordCosign_find (s : ConsentStore) (pendingId : String) (signer : Signer)
    (cosignedAt : Int) (k : String) :
    (s.recordCosign pendingId signer cosignedAt).pending.find k =
      (s.pending.find k).map fun p =>
        if p.isProposed pendingId then p.cosign signer cosignedAt else p :=
  @Table.find_update _ _ _ s.pending _ _ (fun p => p.cosign_id signer cosignedAt) _ k

theorem recordRevoke_find (s : ConsentStore) (grantId : String) (r : Revocation) (k : String) :
    (s.recordRevoke grantId r).grants.find k =
      (s.grants.find k).map fun g => if g.isActive grantId then g.revoke r else g :=
  @Table.find_update _ _ _ s.grants _ _ (fun g => g.revoke_id r) _ k

theorem insertPending_eq_some {s s' : ConsentStore} {p : Pending}
    (h : s.insertPending p = some s') :
    s.pending.insert p = some s'.pending ∧ s'.grants = s.grants := by
  obtain ⟨pending, hins, rfl⟩ := Option.map_eq_some_iff.mp h
  exact ⟨hins, rfl⟩

theorem promote_eq_some {s s' : ConsentStore} {g : Grant} {pendingId : String}
    (h : s.promote g pendingId = some s') :
    s.grants.insert g = some s'.grants ∧
      s'.pending = s.pending.delete fun p => p.pendingId = pendingId := by
  obtain ⟨grants, hins, rfl⟩ := Option.map_eq_some_iff.mp h
  exact ⟨hins, rfl⟩

end ConsentStore

namespace ConsentStmt

/-- The step lemma for pending grants: one that was there, perhaps cosigned now, or one that
is proposed now. -/
theorem find_exec_pending {q : ConsentStmt} {s : ConsentStore} {k : String} {p' : Pending}
    (h : (q.exec s).2.pending.find k = some p') :
    (∃ p, s.pending.find k = some p ∧ (p' = p ∨ ∃ signer cosignedAt,
        q = .recordCosign k signer cosignedAt ∧ p.status = .proposed ∧
          p' = p.cosign signer cosignedAt)) ∨
      (q = .insertPending p' ∧ p'.pendingId = k ∧ s.pending.find k = none) := by
  cases q with
  | loadPending pendingId => exact .inl ⟨p', h, .inl rfl⟩
  | loadActive grantId => exact .inl ⟨p', h, .inl rfl⟩
  | recordRevoke grantId r => exact .inl ⟨p', h, .inl rfl⟩
  | insertPending p =>
      unfold exec at h
      dsimp only at h
      split at h
      · exact .inl ⟨p', h, .inl rfl⟩
      · rename_i s' hs
        have hins := (ConsentStore.insertPending_eq_some hs).1
        obtain ⟨hmem, hid⟩ := Table.find_eq_some_iff.mp h
        rcases (Table.mem_insert hins).mp hmem with hmem | rfl
        · exact .inl ⟨p', Table.find_eq_some_iff.mpr ⟨hmem, hid⟩, .inl rfl⟩
        · exact .inr ⟨rfl, hid, hid ▸ Table.find_none_of_insert hins⟩
  | recordCosign pendingId signer cosignedAt =>
      unfold exec at h
      rw [ConsentStore.recordCosign_find] at h
      obtain ⟨p, hp, heq⟩ := Option.map_eq_some_iff.mp h
      refine .inl ⟨p, hp, ?_⟩
      split at heq
      · rename_i hproposed
        obtain ⟨hid, hstatus⟩ := Pending.isProposed_iff.mp hproposed
        obtain rfl : pendingId = k := hid.symm.trans (Table.find_eq_some_iff.mp hp).2
        exact .inr ⟨signer, cosignedAt, rfl, hstatus, heq.symm⟩
      · exact .inl heq.symm
  | promote g pendingId =>
      unfold exec at h
      dsimp only at h
      split at h
      · exact .inl ⟨p', h, .inl rfl⟩
      · rename_i s' hs
        rw [(ConsentStore.promote_eq_some hs).2] at h
        obtain ⟨hmem, hid⟩ := Table.find_eq_some_iff.mp h
        exact .inl ⟨p', Table.find_eq_some_iff.mpr ⟨(Table.mem_delete.mp hmem).1, hid⟩, .inl rfl⟩

/-- A pending grant stays, perhaps cosigned now, until it is made active. -/
theorem exec_find_pending (q : ConsentStmt) {s : ConsentStore} {k : String} {p : Pending}
    (h : s.pending.find k = some p) :
    (∃ p', (q.exec s).2.pending.find k = some p' ∧ (p' = p ∨ p.status = .proposed)) ∨
      ∃ g, q = .promote g k ∧ s.promote g k ≠ none := by
  cases q with
  | loadPending pendingId => exact .inl ⟨p, h, .inl rfl⟩
  | loadActive grantId => exact .inl ⟨p, h, .inl rfl⟩
  | recordRevoke grantId r => exact .inl ⟨p, h, .inl rfl⟩
  | insertPending p₀ =>
      unfold exec
      dsimp only
      split
      · exact .inl ⟨p, h, .inl rfl⟩
      · rename_i s' hs
        have hins := (ConsentStore.insertPending_eq_some hs).1
        exact .inl ⟨p, Table.find_insert_of_some hins h, .inl rfl⟩
  | recordCosign pendingId signer cosignedAt =>
      refine .inl ⟨if p.isProposed pendingId then p.cosign signer cosignedAt else p, ?_, ?_⟩
      · unfold exec
        rw [ConsentStore.recordCosign_find, h]
        rfl
      · split
        · rename_i hproposed
          exact .inr (Pending.isProposed_iff.mp hproposed).2
        · exact .inl rfl
  | promote g pendingId =>
      unfold exec
      dsimp only
      split
      · exact .inl ⟨p, h, .inl rfl⟩
      · rename_i s' hs
        by_cases hid : pendingId = k
        · subst hid
          exact .inr ⟨g, rfl, by simp [hs]⟩
        · refine .inl ⟨p, ?_, .inl rfl⟩
          obtain ⟨hmem, hk⟩ := Table.find_eq_some_iff.mp h
          rw [(ConsentStore.promote_eq_some hs).2]
          refine Table.find_eq_some_iff.mpr ⟨Table.mem_delete.mpr ⟨hmem, ?_⟩, hk⟩
          simpa [hk] using Ne.symm hid

/-- The step lemma for grants: one that was there, perhaps revoked now, or one that is made
active now. -/
theorem find_exec_grants {q : ConsentStmt} {s : ConsentStore} {k : String} {g' : Grant}
    (h : (q.exec s).2.grants.find k = some g') :
    (∃ g, s.grants.find k = some g ∧ (g' = g ∨ ∃ r, q = .recordRevoke k r ∧
        g.status = .active ∧ g' = g.revoke r)) ∨
      (∃ pendingId, q = .promote g' pendingId ∧ g'.grantId = k ∧ s.grants.find k = none) := by
  cases q with
  | loadPending pendingId => exact .inl ⟨g', h, .inl rfl⟩
  | loadActive grantId => exact .inl ⟨g', h, .inl rfl⟩
  | recordCosign pendingId signer cosignedAt => exact .inl ⟨g', h, .inl rfl⟩
  | insertPending p =>
      unfold exec at h
      dsimp only at h
      split at h
      · exact .inl ⟨g', h, .inl rfl⟩
      · rename_i s' hs
        rw [(ConsentStore.insertPending_eq_some hs).2] at h
        exact .inl ⟨g', h, .inl rfl⟩
  | recordRevoke grantId r =>
      unfold exec at h
      rw [ConsentStore.recordRevoke_find] at h
      obtain ⟨g, hg, heq⟩ := Option.map_eq_some_iff.mp h
      refine .inl ⟨g, hg, ?_⟩
      split at heq
      · rename_i hactive
        obtain ⟨hid, hstatus⟩ := Grant.isActive_iff.mp hactive
        obtain rfl : grantId = k := hid.symm.trans (Table.find_eq_some_iff.mp hg).2
        exact .inr ⟨r, rfl, hstatus, heq.symm⟩
      · exact .inl heq.symm
  | promote g pendingId =>
      unfold exec at h
      dsimp only at h
      split at h
      · exact .inl ⟨g', h, .inl rfl⟩
      · rename_i s' hs
        have hins := (ConsentStore.promote_eq_some hs).1
        obtain ⟨hmem, hid⟩ := Table.find_eq_some_iff.mp h
        rcases (Table.mem_insert hins).mp hmem with hmem | rfl
        · exact .inl ⟨g', Table.find_eq_some_iff.mpr ⟨hmem, hid⟩, .inl rfl⟩
        · exact .inr ⟨pendingId, rfl, hid, hid ▸ Table.find_none_of_insert hins⟩

/-- A grant stays; once revoked, as it is. -/
theorem exec_find_grants (q : ConsentStmt) {s : ConsentStore} {k : String} {g : Grant}
    (h : s.grants.find k = some g) :
    ∃ g', (q.exec s).2.grants.find k = some g' ∧ g'.ratified = g.ratified ∧
      (g.status = .revoked → g' = g) := by
  cases q with
  | loadPending pendingId => exact ⟨g, h, rfl, fun _ => rfl⟩
  | loadActive grantId => exact ⟨g, h, rfl, fun _ => rfl⟩
  | recordCosign pendingId signer cosignedAt => exact ⟨g, h, rfl, fun _ => rfl⟩
  | insertPending p =>
      unfold exec
      dsimp only
      split
      · exact ⟨g, h, rfl, fun _ => rfl⟩
      · rename_i s' hs
        rw [(ConsentStore.insertPending_eq_some hs).2]
        exact ⟨g, h, rfl, fun _ => rfl⟩
  | recordRevoke grantId r =>
      unfold exec
      rw [ConsentStore.recordRevoke_find, h]
      refine ⟨_, rfl, ?_, fun hrevoked => ?_⟩
      · dsimp only
        split
        · exact g.revoke_ratified r
        · rfl
      · have hnot : g.isActive grantId = false := by simp [Grant.isActive, hrevoked]
        simp [hnot]
  | promote g₀ pendingId =>
      unfold exec
      dsimp only
      split
      · exact ⟨g, h, rfl, fun _ => rfl⟩
      · rename_i s' hs
        have hins := (ConsentStore.promote_eq_some hs).1
        exact ⟨g, Table.find_insert_of_some hins h, rfl, fun _ => rfl⟩

end ConsentStmt

end EighthLayer.Consent
