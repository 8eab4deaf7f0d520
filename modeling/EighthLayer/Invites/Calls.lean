import EighthLayer.Invites.Store
import EighthLayer.Knowledge.Propose

/-!
# EighthLayer.Invites.Calls

Issuing, claiming and revoking an invite, and the routes that do so.

Claiming is three steps of one route: the bearer is validated, the account of the claimer is
made sure of, and the invite is claimed for it. Each has statements of its own.
-/

namespace EighthLayer.Invites

open Lib
open Knowledge (configuredTenancy)

variable {J : Jwt}

/-! ## Issuing, claiming, revoking -/

/-- `mint_invite`, with a new `jti`; `none` is an exception. The bearer is sent by email. -/
def mintInvite (jti email : String) (role : InviteRole) (targetL2Id : Option String)
    (issuedBy : Nat) (ttlHours : Int) : InviteProg J (Option Invite) :=
  let target := if role = .enterpriseAdmin then none else targetL2Id
  if role ≠ .enterpriseAdmin ∧ target = none then .done none
  else .call .readClock fun (now : Int) =>
    .call (.insertInvite jti email role target issuedBy now (now + ttlHours * 3600000000))
      fun (inv : Option Invite) => .done inv

theorem mintInvite_cases (jti email : String) (role : InviteRole) (targetL2Id : Option String)
    (issuedBy : Nat) (ttlHours : Int) :
    (mintInvite jti email role targetL2Id issuedBy ttlHours : InviteProg J (Option Invite)) =
        .done none ∨
      ∃ target, (mintInvite jti email role targetL2Id issuedBy ttlHours : InviteProg J _) =
        .call .readClock fun (now : Int) =>
          .call (.insertInvite jti email role target issuedBy now (now + ttlHours * 3600000000))
            fun (inv : Option Invite) => .done inv := by
  unfold mintInvite
  dsimp only
  by_cases h : role ≠ .enterpriseAdmin ∧
      (if role = .enterpriseAdmin then none else targetL2Id) = none
  · rw [if_pos h]
    exact .inl rfl
  · rw [if_neg h]
    exact .inr ⟨_, rfl⟩

/-- `validate_invite_jwt`. -/
def validateInviteJwt (token : J.Token) : InviteProg J (Option Invite) :=
  .call (.decodeJwt token) fun (decoded : Decoded) =>
    match decoded with
    | .expired | .invalid => .done none
    | .ok jti =>
      if jti = "" then .done none
      else .call (.byJti jti) fun (row : Option Invite) =>
        match row with
        | none => .done none
        | some inv => .call (.statusOf inv) fun (status : InviteStatus) =>
          if status = .pending then .done (some inv) else .done none

/-- The kinds of a `ClaimOutcome`. -/
inductive OutcomeKind where
  | ok
  | notFound
  | expired
  | revoked
  | alreadyClaimed
deriving DecidableEq

/-- `ClaimOutcome`. -/
structure ClaimOutcome where
  kind : OutcomeKind
  invite : Option Invite
deriving DecidableEq

/-- What `claim_invite` says of an invite that its update has not matched. -/
def lostRace : Option Invite → ClaimOutcome
  | none => ⟨.notFound, none⟩
  | some current =>
    if current.revokedAt ≠ none then ⟨.revoked, some current⟩
    else if current.claimedAt ≠ none then ⟨.alreadyClaimed, some current⟩
    else ⟨.notFound, some current⟩

/-- `claim_invite`, from the row of the invite on. -/
def claimRow (inv : Invite) (claimingUserId : Nat) : InviteProg J (Option ClaimOutcome) :=
  .call (.statusOf inv) fun (status : InviteStatus) =>
    match status with
    | .claimed => .done (some ⟨.alreadyClaimed, some inv⟩)
    | .revoked => .done (some ⟨.revoked, some inv⟩)
    | .expired => .done (some ⟨.expired, some inv⟩)
    | .pending =>
      .call .readClock fun (now : Int) =>
        .call (.claim inv.id now claimingUserId) fun (rowcount : Option Nat) =>
          match rowcount with
          | none => .done none
          | some 0 => .call (.byId inv.id) fun (current : Option Invite) =>
            .done (some (lostRace current))
          | some (_ + 1) => .call (.byId inv.id) fun (refreshed : Option Invite) =>
            .done (some ⟨.ok, some (refreshed.getD inv)⟩)

/-- `claim_invite`; `none` is an exception. -/
def claimInvite (token : J.Token) (claimingUserId : Nat) : InviteProg J (Option ClaimOutcome) :=
  .call (.decodeJwt token) fun (decoded : Decoded) =>
    match decoded with
    | .expired => .done (some ⟨.expired, none⟩)
    | .invalid => .done (some ⟨.notFound, none⟩)
    | .ok jti =>
      if jti = "" then .done (some ⟨.notFound, none⟩)
      else .call (.byJti jti) fun (row : Option Invite) =>
        match row with
        | none => .done (some ⟨.notFound, none⟩)
        | some inv => claimRow inv claimingUserId

/-- `revoke_invite`. -/
def revokeInvite (inviteId : Nat) : InviteProg J (Option Invite) :=
  .call (.byId inviteId) fun (row : Option Invite) =>
    match row with
    | none => .done none
    | some inv =>
      if inv.revokedAt ≠ none then .done (some inv)
      else .call .readClock fun (now : Int) =>
        .call (.revoke inviteId now) fun (_ : Unit) =>
          .call (.byId inviteId) fun (current : Option Invite) => .done current

/-- The calls on invites, and time that passes. -/
inductive InviteCall (J : Jwt) where
  | mint (jti email : String) (role : InviteRole) (targetL2Id : Option String) (issuedBy : Nat)
      (ttlHours : Int)
  | claim (token : J.Token) (claimingUserId : Nat)
  | revoke (inviteId : Nat)
  | tick (d : Nat)

/-- How they answer. -/
inductive InviteAnswer where
  | minted (inv : Option Invite)
  | claimed (outcome : Option ClaimOutcome)
  | revoked (inv : Option Invite)
  | ticked
deriving DecidableEq

def InviteCall.prog : InviteCall J → InviteProg J InviteAnswer
  | mint jti email role targetL2Id issuedBy ttlHours =>
      (mintInvite jti email role targetL2Id issuedBy ttlHours).bind fun inv => .done (.minted inv)
  | claim token claimingUserId =>
      (claimInvite token claimingUserId).bind fun outcome => .done (.claimed outcome)
  | revoke inviteId => (revokeInvite inviteId).bind fun inv => .done (.revoked inv)
  | tick d => .call (.tick d) fun (_ : Unit) => .done .ticked

/-- Some calls at the start. -/
def invitesStart (s : InviteStore) (calls : List (InviteCall J)) :
    Config InviteStore (InviteStmt.Answer (J := J)) InviteAnswer :=
  .start s (calls.map InviteCall.prog)

/-! ## The claim route -/

/-- What the routes take from the L2: `hash_password`, and the environment. -/
structure Host where
  hashPassword : String → String
  env : Environ

/-- `ensure_user`: the id of the account; `none` is an exception. -/
def ensureUser (host : Host) (username password : String) (role : InviteRole) :
    InviteProg J (Option Nat) :=
  .call (.getUser username) fun (existing : Option Account) =>
    match existing with
    | some u => .done (some u.id)
    | none =>
      .call (.createUser username (host.hashPassword password) role.text
        (configuredTenancy host.env)) fun (created : Bool) =>
        if created then .call (.getUser username) fun (fresh : Option Account) =>
          match fresh with
          | none => .done none
          | some u => .done (some u.id)
        else .done none

/-- Why a claim is refused: the status of the answer and its detail. -/
inductive ClaimRefusal where
  /-- 410, "invite expired". -/
  | expired
  /-- 404, "invite not found". -/
  | notFound
  /-- 410, "invite revoked". -/
  | revoked
  /-- 409, "invite already claimed". -/
  | alreadyClaimed
  /-- 403, "user is disabled". -/
  | disabled
  /-- An exception that is not an `HTTPException`. -/
  | internalError
deriving DecidableEq

/-- How the routes answer; a request that is cut off is answered `crashed`. -/
inductive RouteAnswer where
  | minted (inv : Option Invite)
  | session (username : String)
  | refused (r : ClaimRefusal)
  | revoked (inv : Option Invite)
  | notFound
  | ticked
  | crashed
deriving DecidableEq

/-- The refusal of a bearer that has not been validated. -/
def refuseClaim (token : J.Token) : InviteProg J RouteAnswer :=
  .call (.decodeLoose token) fun (decoded : Decoded) =>
    match decoded with
    | .expired => .done (.refused .expired)
    | .invalid => .done (.refused .notFound)
    | .ok jti => .call (.byJti jti) fun (row : Option Invite) =>
      match row with
      | none => .done (.refused .notFound)
      | some inv =>
        if inv.revokedAt ≠ none then .done (.refused .revoked)
        else if inv.claimedAt ≠ none then .done (.refused .alreadyClaimed)
        else .done (.refused .expired)

/-- The answer of the route to an outcome. -/
def answerClaim (username : String) : Option ClaimOutcome → InviteProg J RouteAnswer
  | none => .done (.refused .internalError)
  | some outcome =>
    match outcome.kind with
    | .ok => .call (.getPersona username) fun (assignment : Option PersonaRow) =>
      match assignment with
      | some p =>
        if p.disabledAt ≠ none then .done (.refused .disabled) else .done (.session username)
      | none => .done (.session username)
    | .alreadyClaimed => .done (.refused .alreadyClaimed)
    | .revoked => .done (.refused .revoked)
    | .expired => .done (.refused .expired)
    | .notFound => .done (.refused .notFound)

/-- `claim_invite_route`. The username is the email of the invite; the one in the request is not
read. -/
def claimInviteRoute (host : Host) (token : J.Token) (password : String) :
    InviteProg J RouteAnswer :=
  (validateInviteJwt token).bind fun validated =>
    match validated with
    | none => refuseClaim token
    | some invite =>
      (ensureUser host invite.email password invite.role).bind fun userId =>
        match userId with
        | none => .done (.refused .internalError)
        | some userId => (claimInvite token userId).bind fun outcome =>
          answerClaim invite.email outcome

/-- The requests to the routes, and time that passes. The admin of a request has been
authorised. -/
inductive RouteCall (J : Jwt) where
  | mint (admin jti email : String) (role : InviteRole) (targetL2Id : Option String)
      (ttlHours : Int)
  | claim (token : J.Token) (password : String)
  | revoke (admin : String) (inviteId : Nat)
  | tick (d : Nat)

def RouteCall.prog (host : Host) : RouteCall J → InviteProg J RouteAnswer
  | mint admin jti email role targetL2Id ttlHours =>
      .call (.getUser admin) fun (user : Option Account) =>
        match user with
        | none => .done .notFound
        | some u => (mintInvite jti email role targetL2Id u.id ttlHours).bind fun inv =>
            .done (.minted inv)
  | claim token password => claimInviteRoute host token password
  | revoke admin inviteId =>
      .call (.getUser admin) fun (user : Option Account) =>
        match user with
        | none => .done .notFound
        | some _ => (revokeInvite inviteId).bind fun inv => .done (.revoked inv)
  | tick d => .call (.tick d) fun (_ : Unit) => .done .ticked

/-- A request that is cut off after some of its statements. -/
def cutOff : Nat → InviteProg J RouteAnswer → InviteProg J RouteAnswer
  | 0, _ => .call .crash fun (_ : Unit) => .done .crashed
  | _ + 1, .done a => .done a
  | n + 1, .call q k => .call q fun a => cutOff n (k a)

/-- A request, and after how many statements it is cut off, if it is. -/
structure Request (J : Jwt) where
  call : RouteCall J
  crash : Option Nat

def Request.prog (host : Host) (r : Request J) : InviteProg J RouteAnswer :=
  match r.crash with
  | none => r.call.prog host
  | some n => cutOff n (r.call.prog host)

/-- Some requests at the start. -/
def routesStart (host : Host) (s : InviteStore) (requests : List (Request J)) :
    Config InviteStore (InviteStmt.Answer (J := J)) RouteAnswer :=
  .start s (requests.map (Request.prog host))

end EighthLayer.Invites
