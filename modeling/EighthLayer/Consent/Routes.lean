import EighthLayer.Consent.Store

/-!
# EighthLayer.Consent.Routes

The routes of `admin_routes.py` over cross-group grants, with the functions of
`xgroup_consent.py` that they call, as programs over the two tables.

Ratifying may cosign on the way. That path asks for the caller's Enterprise only, and no path
asks whether the two keys are different ones.
-/

namespace EighthLayer.Consent

open Lib

/-! ## What a request finds -/

/-- A row of `users`, as far as it is read. -/
structure AdminRow where
  role : Option String
  enterpriseId : Option String
  groupId : Option String
deriving DecidableEq

/-- What a request finds besides the two tables: the users, and the readings of the clock, in
turn. -/
structure Site where
  users : String → Option AdminRow
  now : Nat → Int

/-- Why a request is refused. -/
inductive ConsentRefusal where
  | userNotFound
  | adminRequired
  | userRowMissing
  | noEnterprise
  | wrongEnterprise (userEnt expected : String)
  | wrongGroup (userGrp expected : String)
  | noEnterpriseScope
  | consent (e : ConsentError)
  /-- An exception that is not an `HTTPException`. -/
  | internalError
deriving DecidableEq

/-- The HTTP status of a refusal. -/
def ConsentRefusal.status : ConsentRefusal → Nat
  | userNotFound | userRowMissing => 401
  | adminRequired | noEnterprise | wrongEnterprise .. | wrongGroup .. | noEnterpriseScope => 403
  | consent e => e.code.status
  | internalError => 500

/-- How a route answers. -/
inductive ConsentResponse where
  | proposed (pendingId grantId : String) (expiresForCosignAt : Int)
  | cosigned (pendingId : String) (cosignedAt : Int)
  | active (grantId : String) (ratifiedAt : Int)
  | revoked (grantId : String) (byRecovery : Bool) (revokedAt : Int)
  | refused (r : ConsentRefusal)
deriving DecidableEq

/-- A route at work. -/
abbrev ConsentProg := Prog ConsentStmt.Answer ConsentResponse

/-- `is_admin_role`. -/
def isAdminRole (role : Option String) : Bool :=
  role.any fun r => r ∈ ["admin", "enterprise_admin", "l2_admin"]

/-- `require_admin`. -/
def requireAdmin (site : Site) (username : String) : Except ConsentRefusal Unit :=
  match site.users username with
  | none => .error .userNotFound
  | some user => if isAdminRole user.role then .ok () else .error .adminRequired

/-- The group of an L2 id, as `_enforce_caller_tenancy` takes it: what follows the first
slash, or the whole id. -/
def groupPart (l2Id : String) : String :=
  match l2Id.toList.dropWhile (· ≠ '/') with
  | [] => l2Id
  | _ :: group => String.ofList group

/-- `_enforce_caller_tenancy`. -/
def enforceCallerTenancy (site : Site) (username expectedEnterpriseId : String)
    (expectedL2 : Option String) : Except ConsentRefusal Unit :=
  match site.users username with
  | none => .error .userRowMissing
  | some user =>
    match user.enterpriseId with
    | none => .error .noEnterprise
    | some userEnt =>
      if userEnt ≠ expectedEnterpriseId then
        .error (.wrongEnterprise userEnt expectedEnterpriseId)
      else match expectedL2, user.groupId with
        | some l2, some userGrp =>
            if userGrp ≠ groupPart l2 then .error (.wrongGroup userGrp (groupPart l2)) else .ok ()
        | _, _ => .ok ()

section Routes

variable (sch : SignatureScheme) (codec : GrantCodec) (parseIso : ParseIso)

/-- `_verify_sig_over_body`, for a grant body. -/
def verifySigOverBody (signer : Signer) (body : GrantBody) : Bool :=
  verifyRaw sch signer.pubkey (utf8 (codec.canonical body)) signer.signature

/-! ## Proposing -/

/-- `ProposeRequest`, and the id that `uuid4` gives to the row. -/
structure ProposeRequest where
  body : GrantBody
  proposer : Signer
  pendingId : String

/-- The row that a proposal inserts. -/
def ProposeRequest.row (req : ProposeRequest) (now : Int) : Pending where
  pendingId := req.pendingId
  enterpriseId := req.body.enterpriseId
  sourceL2 := req.body.sourceL2
  targetL2 := req.body.targetL2
  bodyCanonical := codec.canonical req.body
  bodySha256 := String.ofList (hex (sha256 (utf8 (codec.canonical req.body))))
  proposer := req.proposer
  cosigner := none
  proposedAt := now
  expiresAt := now + cosignWindowDays * day
  status := .proposed

/-- `propose_grant`. -/
def proposeGrant (site : Site) (req : ProposeRequest) : ConsentProg :=
  if req.proposer.l2 ≠ req.body.sourceL2 ∧ req.proposer.l2 ≠ req.body.targetL2 then
    .done (.refused (.consent (.proposerNotNamed req.proposer.l2)))
  else if req.proposer.l2 ≠ req.body.sourceL2 then
    .done (.refused (.consent .proposerNotSource))
  else if ¬ verifySigOverBody sch codec req.proposer req.body then
    .done (.refused (.consent .proposerSignature))
  else
    let row := req.row codec (site.now 0)
    .call (.insertPending row) fun (inserted : Bool) =>
      if inserted then .done (.proposed row.pendingId req.body.grantId row.expiresAt)
      else .done (.refused .internalError)

/-- The route `propose`. -/
def propose (site : Site) (admin : String) (req : ProposeRequest) : ConsentProg :=
  match requireAdmin site admin with
  | .error r => .done (.refused r)
  | .ok () =>
    match enforceCallerTenancy site admin req.body.enterpriseId (some req.proposer.l2) with
    | .error r => .done (.refused r)
    | .ok () => proposeGrant sch codec site req

/-! ## Cosigning -/

/-- What `cosign_grant` checks of the row that it has loaded; `none` when the body cannot be
read back. -/
def checkCosign (now : Int) (row : Pending) (cosigner : Signer) :
    Except (Option ConsentError) Unit :=
  if row.status ≠ .proposed then .error (some (.cannotCosign row.status))
  else if row.expiresAt ≤ now then .error (some .windowElapsed)
  else if cosigner.l2 = row.proposer.l2 then .error (some .cosignerIsProposer)
  else if cosigner.l2 ≠ row.targetL2 then .error (some .cosignerNotTarget)
  else match codec.loads row.bodyCanonical with
    | none => .error none
    | some body =>
      if verifySigOverBody sch codec cosigner body then .ok ()
      else .error (some .cosignerSignature)

/-- `cosign_grant`, and what follows it. -/
def cosignGrant (site : Site) (pendingId : String) (cosigner : Signer)
    (next : Except (Option ConsentError) Int → ConsentProg) : ConsentProg :=
  .call (.loadPending pendingId) fun (row : Option Pending) =>
    match row with
    | none => next (.error (some (.pendingNotFound pendingId)))
    | some row =>
      let now := site.now 0
      match checkCosign sch codec now row cosigner with
      | .error e => next (.error e)
      | .ok () =>
        .call (.recordCosign pendingId cosigner now) fun (_ : Unit) => next (.ok now)

/-- A refusal for an error; `none` is an exception of another kind. -/
def refusalOf (e : Option ConsentError) : ConsentResponse :=
  .refused ((e.map .consent).getD .internalError)

/-- The route `cosign`. -/
def cosign (site : Site) (admin pendingId : String) (cosigner : Signer) : ConsentProg :=
  match requireAdmin site admin with
  | .error r => .done (.refused r)
  | .ok () =>
    match (site.users admin).bind AdminRow.enterpriseId with
    | none => .done (.refused .noEnterpriseScope)
    | some ent =>
      match enforceCallerTenancy site admin ent (some cosigner.l2) with
      | .error r => .done (.refused r)
      | .ok () =>
        cosignGrant sch codec site pendingId cosigner fun result =>
          match result with
          | .error e => .done (refusalOf e)
          | .ok cosignedAt => .done (.cosigned pendingId cosignedAt)

/-! ## Ratifying -/

/-- The row that a ratification inserts. -/
def grantOf (row : Pending) (cosigner : Signer) (body : GrantBody) (now : Int) : Grant where
  grantId := body.grantId
  enterpriseId := body.enterpriseId
  sourceL2 := body.sourceL2
  targetL2 := body.targetL2
  bodyCanonical := row.bodyCanonical
  bodySha256 := row.bodySha256
  scope := body.scope
  signerA := row.proposer
  signerB := cosigner
  recoveryOperatorPubkey := body.recoveryOperatorPubkey
  issuedAt := body.issuedAt
  expiresAt := body.expiresAt
  ratifiedAt := now
  nonce := body.nonce
  version := body.version
  status := .active
  revocation := none

/-- What `ratify_grant` checks of the row that it has loaded, and the row that it makes of it;
`none` when the body cannot be read back. -/
def checkRatify (now : Int) (row : Pending) : Except (Option ConsentError) Grant :=
  if row.status ≠ .cosigned then .error (some (.cannotRatify row.status))
  else if row.expiresAt ≤ now then .error (some .windowElapsed)
  else match codec.loads row.bodyCanonical with
    | none => .error none
    | some body =>
      if ¬ verifySigOverBody sch codec row.proposer body then .error (some .proposerReverify)
      else match row.cosigner with
        | none => .error (some .cosignerMissing)
        | some (cosigner, _) =>
          if ¬ verifySigOverBody sch codec cosigner body then .error (some .cosignerReverify)
          else match parseTime parseIso body.expiresAt "body.expires_at" with
            | .error e => .error (some e)
            | .ok bodyExpires =>
              if bodyExpires ≤ now then .error (some .bodyExpired)
              else .ok (grantOf row cosigner body now)

/-- `ratify_grant`. -/
def ratifyGrant (site : Site) (pendingId : String) : ConsentProg :=
  .call (.loadPending pendingId) fun (row : Option Pending) =>
    match row with
    | none => .done (.refused (.consent (.pendingNotFound pendingId)))
    | some row =>
      match checkRatify sch codec parseIso (site.now 1) row with
      | .error e => .done (refusalOf e)
      | .ok g =>
        .call (.promote g pendingId) fun (promoted : Bool) =>
          if promoted then .done (.active g.grantId g.ratifiedAt)
          else .done (.refused .internalError)

/-- `RatifyRequest`. -/
structure RatifyRequest where
  cosignerL2 : Option String
  cosignerPubkey : Option String
  cosignerSignature : Option String

/-- The cosigner of a ratification, when all its fields are there and not empty. -/
def RatifyRequest.cosigner (req : RatifyRequest) : Option Signer :=
  match req.cosignerL2, req.cosignerPubkey, req.cosignerSignature with
  | some l2, some pubkey, some signature =>
      if l2 ≠ "" ∧ pubkey ≠ "" ∧ signature ≠ "" then some ⟨l2, pubkey, signature⟩ else none
  | _, _, _ => none

/-- The route `ratify`, once the caller's tenancy is checked. -/
def cosignAndRatify (site : Site) (pendingId : String) (req : RatifyRequest) : ConsentProg :=
  match req.cosigner with
  | none => ratifyGrant sch codec parseIso site pendingId
  | some cosigner =>
      cosignGrant sch codec site pendingId cosigner fun result =>
        match result with
        | .ok _ => ratifyGrant sch codec parseIso site pendingId
        | .error none => .done (.refused .internalError)
        | .error (some e) =>
          -- a row that is cosigned already is no obstacle
          if e.code = .conflict then ratifyGrant sch codec parseIso site pendingId
          else .done (.refused (.consent e))

/-- The route `ratify`. Its own look at the row is not guarded: a missing one is a 500. -/
def ratify (site : Site) (admin pendingId : String) (req : RatifyRequest) : ConsentProg :=
  match requireAdmin site admin with
  | .error r => .done (.refused r)
  | .ok () =>
    .call (.loadPending pendingId) fun (pending : Option Pending) =>
      match pending with
      | none => .done (.refused .internalError)
      | some pending =>
        match enforceCallerTenancy site admin pending.enterpriseId none with
        | .error r => .done (.refused r)
        | .ok () => cosignAndRatify sch codec parseIso site pendingId req

/-! ## Revoking -/

/-- `RevokeRequest`. -/
structure RevokeRequest where
  revokerL2 : Option String
  revokerPubkey : String
  revokerSignature : String
  revokeTs : String
  reason : Option String

/-- What is signed to revoke a grant. -/
def RevokeRequest.envelope (req : RevokeRequest) (grantId : String) : RevokeEnvelope where
  grantId
  revokeTs := req.revokeTs
  reason := req.reason.getD ""
  revokerL2 := req.revokerL2.getD ""

/-- Who may revoke: whether by recovery. The routes pass no walker of key lineages. -/
def revokeAuthority (g : Grant) (req : RevokeRequest) (isRecovery : Bool) :
    Except ConsentError Bool :=
  if isRecovery then
    if req.revokerPubkey ≠ g.recoveryOperatorPubkey then .error .notRecoveryKey else .ok true
  else if req.revokerPubkey = g.signerA.pubkey ∨ req.revokerPubkey = g.signerB.pubkey then
    .ok false
  else if req.revokerPubkey = g.recoveryOperatorPubkey then .error .recoveryFlagMissing
  else .error .notPinned

/-- What `revoke_grant` checks of the row that it has loaded, and what it records. -/
def checkRevoke (now : Int) (grantId : String) (g : Grant) (req : RevokeRequest)
    (isRecovery : Bool) : Except ConsentError Revocation :=
  if g.status ≠ .active then .error (.cannotRevoke g.status)
  else match parseTime parseIso g.expiresAt "expires_at" with
    | .error e => .error e
    | .ok expires =>
      if expires ≤ now then .error .grantExpired
      else if ¬ verifyRaw sch req.revokerPubkey (utf8 (codec.revocation (req.envelope grantId)))
          req.revokerSignature then .error .revokeSignature
      else match revokeAuthority g req isRecovery with
        | .error e => .error e
        | .ok byRecovery => .ok
            { revokedAt := now
              byL2 := req.revokerL2
              byPubkey := req.revokerPubkey
              byRecovery
              reason := req.reason }

/-- `revoke_grant`. -/
def revokeGrant (site : Site) (grantId : String) (req : RevokeRequest) (isRecovery : Bool) :
    ConsentProg :=
  .call (.loadActive grantId) fun (row : Option Grant) =>
    match row with
    | none => .done (.refused (.consent (.grantNotFound grantId)))
    | some g =>
      match checkRevoke sch codec parseIso (site.now 0) grantId g req isRecovery with
      | .error e => .done (.refused (.consent e))
      | .ok r =>
        .call (.recordRevoke grantId r) fun (_ : Unit) =>
          .done (.revoked grantId r.byRecovery r.revokedAt)

/-- The routes `revoke` and `recovery-revoke`. Their own look at the row is not guarded. -/
def revoke (site : Site) (admin grantId : String) (req : RevokeRequest) (isRecovery : Bool) :
    ConsentProg :=
  match requireAdmin site admin with
  | .error r => .done (.refused r)
  | .ok () =>
    .call (.loadActive grantId) fun (active : Option Grant) =>
      match active with
      | none => .done (.refused .internalError)
      | some active =>
        match enforceCallerTenancy site admin active.enterpriseId none with
        | .error r => .done (.refused r)
        | .ok () => revokeGrant sch codec parseIso site grantId req isRecovery

/-! ## The routes together -/

/-- A request to one of the routes. -/
inductive ConsentCall where
  | propose (admin : String) (req : ProposeRequest)
  | cosign (admin pendingId : String) (cosigner : Signer)
  | ratify (admin pendingId : String) (req : RatifyRequest)
  | revoke (admin grantId : String) (req : RevokeRequest) (isRecovery : Bool)

/-- Who makes it. -/
def ConsentCall.admin : ConsentCall → String
  | propose admin _ | cosign admin _ _ | ratify admin _ _ | revoke admin _ _ _ => admin

/-- The signature that it presents for a grant. -/
def ConsentCall.signer : ConsentCall → Option Signer
  | propose _ req => some req.proposer
  | cosign _ _ cosigner => some cosigner
  | ratify _ _ req => req.cosigner
  | revoke .. => none

/-- Its route. -/
def ConsentCall.prog (site : Site) : ConsentCall → ConsentProg
  | propose admin req => Consent.propose sch codec site admin req
  | cosign admin pendingId cosigner => Consent.cosign sch codec site admin pendingId cosigner
  | ratify admin pendingId req => Consent.ratify sch codec parseIso site admin pendingId req
  | revoke admin grantId req isRecovery =>
      Consent.revoke sch codec parseIso site admin grantId req isRecovery

/-! ## Requests that pass their checks -/

section Passing

variable {sch codec parseIso} {site : Site} {row : Pending}

theorem cosignGrant_found (pendingId : String) {cosigner : Signer}
    (next : Except (Option ConsentError) Int → ConsentProg)
    (h : checkCosign sch codec (site.now 0) row cosigner = .ok ()) :
    ∃ k, cosignGrant sch codec site pendingId cosigner next = .call (.loadPending pendingId) k ∧
      k (some row) = .call (.recordCosign pendingId cosigner (site.now 0)) fun (_ : Unit) =>
        next (.ok (site.now 0)) :=
  ⟨_, rfl, by simp only [h]⟩

theorem ratifyGrant_found (pendingId : String) {g : Grant}
    (h : checkRatify sch codec parseIso (site.now 1) row = .ok g) :
    ∃ k, ratifyGrant sch codec parseIso site pendingId = .call (.loadPending pendingId) k ∧
      k (some row) = .call (.promote g pendingId) fun (promoted : Bool) =>
        if promoted then .done (.active g.grantId g.ratifiedAt)
        else .done (.refused .internalError) :=
  ⟨_, rfl, by simp only [h]⟩

theorem ratify_found {admin pendingId : String} {req : RatifyRequest}
    (hadmin : requireAdmin site admin = .ok ())
    (htenancy : enforceCallerTenancy site admin row.enterpriseId none = .ok ()) :
    ∃ k, ratify sch codec parseIso site admin pendingId req = .call (.loadPending pendingId) k ∧
      k (some row) = cosignAndRatify sch codec parseIso site pendingId req := by
  unfold ratify
  rw [hadmin]
  exact ⟨_, rfl, by simp only [htenancy]⟩

theorem revokeGrant_found {grantId : String} {g : Grant} {req : RevokeRequest} {isRecovery : Bool}
    {r : Revocation}
    (h : checkRevoke sch codec parseIso (site.now 0) grantId g req isRecovery = .ok r) :
    ∃ k, revokeGrant sch codec parseIso site grantId req isRecovery = .call (.loadActive grantId) k ∧
      k (some g) = .call (.recordRevoke grantId r) fun (_ : Unit) =>
        .done (.revoked grantId r.byRecovery r.revokedAt) :=
  ⟨_, rfl, by simp only [h]⟩

theorem revoke_found {admin grantId : String} {g : Grant} {req : RevokeRequest}
    {isRecovery : Bool} (hadmin : requireAdmin site admin = .ok ())
    (htenancy : enforceCallerTenancy site admin g.enterpriseId none = .ok ()) :
    ∃ k, revoke sch codec parseIso site admin grantId req isRecovery =
        .call (.loadActive grantId) k ∧
      k (some g) = revokeGrant sch codec parseIso site grantId req isRecovery := by
  unfold revoke
  rw [hadmin]
  exact ⟨_, rfl, by simp only [htenancy]⟩

end Passing

/-- Some requests at the start, each at the L2 as it finds it, and no grants. -/
def consentStart (calls : List (Site × ConsentCall)) :
    Config ConsentStore ConsentStmt.Answer ConsentResponse :=
  .start .empty (calls.map fun p => p.2.prog sch codec parseIso p.1)

end Routes

end EighthLayer.Consent
