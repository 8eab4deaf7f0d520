import EighthLayer.Aigrp.PairSecret
import EighthLayer.Invites.Calls

/-!
# EighthLayer.Auth.Tokens

The bearer tokens of an L2: who mints them, with which claims, and who verifies them.

All are signed with the one secret of the L2. A session token has the audience `session`, an
invite the audience `invite`, and a token of the older shape the id of its L2. The JWT library
is a parameter; what the verifiers rely on are the laws it carries.
-/

namespace EighthLayer.Auth

open Lib Aigrp Invites

/-! ## Claims -/

/-- A value of a claim. -/
inductive ClaimValue where
  | null
  | text (s : String)
  /-- A time, in seconds. -/
  | seconds (t : Int)
deriving DecidableEq

/-- The claims of a token. -/
abbrev Claims := List (String × ClaimValue)

/-- `payload.get(name)`; `none` is `None`. -/
def Claims.get (claims : Claims) (name : String) : Option ClaimValue :=
  match claims.lookup name with
  | none | some .null => none
  | some v => some v

/-- A time in microseconds, as `jwt.encode` writes it. -/
def secondsOf (t : Int) : ClaimValue := .seconds (t / 1000000)

/-- At that time the token has been issued, and has not expired. -/
def Claims.Timely (claims : Claims) (now : Int) : Prop :=
  (∀ exp, claims.get "exp" = some (.seconds exp) → now < exp * 1000000) ∧
    ∀ iat, claims.get "iat" = some (.seconds iat) → iat * 1000000 ≤ now

/-- The registered claims have values of their kinds, and there is no `nbf`. -/
structure Claims.Standard (claims : Claims) : Prop where
  sub : ∃ s, claims.get "sub" = some (.text s)
  iat : ∃ t, claims.get "iat" = some (.seconds t)
  exp : ∃ t, claims.get "exp" = some (.seconds t)
  jti : ∀ v, claims.get "jti" = some v → ∃ s, v = .text s
  nbf : claims.lookup "nbf" = none

/-! ## The library -/

/-- What a token is decoded with; `none` where the audience or the issuer is not looked at. -/
structure DecodeOptions where
  require : List String
  audience : Option String
  issuer : Option String

/-- The claims are there, and are the ones asked for. -/
structure DecodeOptions.Admits (opts : DecodeOptions) (claims : Claims) : Prop where
  required : ∀ name ∈ opts.require, claims.get name ≠ none
  audience : ∀ aud, opts.audience = some aud → claims.get "aud" = some (.text aud)
  issuer : ∀ iss, opts.issuer = some iss → claims.get "iss" = some (.text iss)

/-- A `PyJWTError`. -/
inductive JwtError where
  | expired
  | invalidAudience
  | missingClaim (name : String)
  | invalid
deriving DecidableEq

/-- PyJWT. `jwt.decode` checks the signature, the times and what it is given to check; what it
has accepted it accepts again, until the token has expired. -/
structure JwtLibrary where
  Token : Type
  encode : Claims → (secret : String) → Token
  decode : Token → (secret : String) → DecodeOptions → (now : Int) → Except JwtError Claims
  /-- The signature of a token is one under a secret. -/
  signedBy : Token → (secret : String) → Bool
  signedBy_encode : ∀ claims secret, signedBy (encode claims secret) secret = true
  decode_encode : ∀ claims secret secret' opts now claims', claims.Standard →
    (decode (encode claims secret) secret' opts now = .ok claims' ↔
      claims' = claims ∧ signedBy (encode claims secret) secret' = true ∧ claims.Timely now ∧
        opts.Admits claims)
  decode_later : ∀ token secret opts now later claims, now ≤ later →
    decode token secret opts now = .ok claims →
      decode token secret opts later = .ok claims ∨
        decode token secret opts later = .error .expired

variable (J : JwtLibrary)

/-! ## Minting -/

/-- `_get_jwt_secret`; `none` is its `RuntimeError`. -/
def getJwtSecret (env : Environ) : Option String :=
  (env.lookup "CQ_JWT_SECRET").filter (· ≠ "")

/-- `SESSION_AUDIENCE`. -/
def sessionAudience : String := "session"

/-- `SESSION_ISSUER`. -/
def sessionIssuer : String := "8th-layer.ai"

/-- `INVITE_AUDIENCE`. -/
def inviteAudience : String := "invite"

/-- `INVITE_ISSUER`. -/
def inviteIssuer : String := "8th-layer.ai"

/-- The claims that `create_token` signs. -/
def tokenClaims (env : Environ) (username : String) (ttlHours : Int) (aud : Option String)
    (now : Int) : Claims :=
  [("sub", .text username), ("iat", secondsOf now),
    ("exp", secondsOf (now + ttlHours * 3600000000))] ++
  match aud with
  | none => [("iss", .text (selfL2Id env)), ("aud", .text (selfL2Id env))]
  | some aud => [("iss", .text sessionIssuer), ("aud", .text aud)]

/-- `create_token`. -/
def createToken (env : Environ) (username secret : String) (ttlHours : Int) (aud : Option String)
    (now : Int) : J.Token :=
  J.encode (tokenClaims env username ttlHours aud now) secret

/-- The token that `mint_session_cookie` returns and sets; `ttlHours` is its argument or the
configured one. -/
def mintSession (env : Environ) (username : String) (ttlHours now : Int) : Option J.Token :=
  (getJwtSecret env).map fun secret =>
    createToken J env username secret ttlHours (some sessionAudience) now

/-- The claims of an invite. -/
def inviteClaims (email : String) (role : InviteRole) (targetL2Id : Option String)
    (issuedAt expiresAt : Int) (jti : String) : Claims :=
  [("sub", .text email), ("role", .text role.text),
    ("target_l2_id", targetL2Id.elim .null .text), ("iss", .text inviteIssuer),
    ("aud", .text inviteAudience), ("iat", secondsOf issuedAt), ("exp", secondsOf expiresAt),
    ("jti", .text jti)]

/-- `_encode_jwt` of `invites.py`. -/
def encodeInvite (env : Environ) (email : String) (role : InviteRole)
    (targetL2Id : Option String) (issuedAt expiresAt : Int) (jti : String) : Option J.Token :=
  (getJwtSecret env).map
    (J.encode (inviteClaims email role targetL2Id issuedAt expiresAt jti))

/-! ## Verifying -/

local instance lawfulBEq_chars : LawfulBEq (List Char) := inferInstance

/-- `_deprecated_audless_tokens_enabled`: on, unless the variable says no. -/
def deprecatedAudlessTokensEnabled (env : Environ) : Bool :=
  match env.lookup "CQ_DEPRECATED_AUDLESS_TOKENS" with
  | none => true
  | some raw => raw.toList.map Char.toLower ∉ ["0".toList, "false".toList, "no".toList]

/-- `verify_token`. -/
def verifyToken (env : Environ) (token : J.Token) (secret : String) (expectedAud : Option String)
    (now : Int) : Except JwtError Claims :=
  match expectedAud with
  | none =>
    J.decode token secret
      { require := ["iss", "aud", "sub", "exp"], audience := some (selfL2Id env)
        issuer := some (selfL2Id env) } now
  | some expected =>
    match J.decode token secret
      { require := ["sub", "exp"], audience := none, issuer := none } now with
    | .error e => .error e
    | .ok payload =>
      match payload.get "aud" with
      | none =>
        -- an older token without an audience
        if expected = sessionAudience && deprecatedAudlessTokensEnabled env then .ok payload
        else .error (.missingClaim "aud")
      | some tokenAud =>
        if tokenAud = .text expected then .ok payload
        else if expected = sessionAudience && deprecatedAudlessTokensEnabled env &&
            tokenAud = .text (selfL2Id env) && payload.get "iss" = some (.text (selfL2Id env)) then
          .ok payload
        else .error .invalidAudience

/-- The username of `read_session_from_cookie`, and `None` on any failure. -/
def readSessionFromCookie (env : Environ) (cookie : Option J.Token) (now : Int) :
    Option String := do
  let token ← cookie
  let secret ← getJwtSecret env
  match verifyToken J env token secret (some sessionAudience) now with
  | .error _ => none
  | .ok payload =>
    match payload.get "sub" with
    | some (.text sub) => if sub = "" then none else some sub
    | _ => none

/-- The username of `_resolve_caller`, for a bearer that is no API key. -/
def resolveBearer (env : Environ) (token : J.Token) (now : Int) : Option ClaimValue := do
  let secret ← getJwtSecret env
  match verifyToken J env token secret (some sessionAudience) now with
  | .error _ => none
  | .ok payload => payload.get "sub"

/-- What `_decode_jwt` of `invites.py` decodes with. -/
def inviteOptions : DecodeOptions where
  require := ["iss", "aud", "sub", "exp", "jti"]
  audience := some inviteAudience
  issuer := some inviteIssuer

/-- What the routes of the invites decode with, for the status of an answer. -/
def looseInviteOptions : DecodeOptions where
  require := ["jti"]
  audience := some inviteAudience
  issuer := some inviteIssuer

/-- What is decoded, as far as the invites read it. -/
def decodedOf : Except JwtError Claims → Decoded
  | .error .expired => .expired
  | .error _ => .invalid
  | .ok payload =>
    match payload.get "jti" with
    | some (.text jti) => .ok jti
    | _ => .invalid

/-- The bearers of the invites, on an L2. -/
def inviteJwt (env : Environ) : Jwt where
  Token := J.Token
  decode token now :=
    match getJwtSecret env with
    | none => .invalid
    | some secret => decodedOf (J.decode token secret inviteOptions now)
  decodeLoose token now :=
    match getJwtSecret env with
    | none => .invalid
    | some secret => decodedOf (J.decode token secret looseInviteOptions now)
  decode_later := by
    intro token jti now later hle h
    cases hsecret : getJwtSecret env with
    | none =>
        rw [hsecret] at h
        cases h
    | some secret =>
        rw [hsecret] at h
        dsimp only at h ⊢
        cases hdecode : J.decode token secret inviteOptions now with
        | error e =>
            rw [hdecode] at h
            cases e <;> cases h
        | ok payload =>
            rcases J.decode_later token secret inviteOptions now later payload hle hdecode with
              hok | hexpired
            · rw [hok, ← hdecode]
              exact .inl h
            · rw [hexpired]
              exact .inr rfl

end EighthLayer.Auth
