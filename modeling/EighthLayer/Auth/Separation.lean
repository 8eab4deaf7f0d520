import EighthLayer.Auth.Tokens

/-!
# EighthLayer.Auth.Separation

Which of the verifiers of an L2 accept which of the tokens that some L2 has minted.

A token is accepted only for what it was minted for. Sessions and invites carry no id of
their L2, so that another L2 with the same secret accepts them too (`tokens_separate`).
-/

namespace EighthLayer.Auth

open Lib Aigrp Invites

/-! ## Mints and verifiers -/

/-- What is minted: a session, a token of the older shape, or an invite. -/
inductive Mint where
  | session (username : String) (ttlHours now : Int)
  | api (username secret : String) (ttlHours now : Int)
  | invite (email : String) (role : InviteRole) (targetL2Id : Option String)
      (issuedAt expiresAt : Int) (jti : String)

/-- What a token is for. -/
inductive Purpose where
  | session
  | invite
deriving DecidableEq

def Mint.purpose : Mint → Purpose
  | session .. | api .. => .session
  | invite .. => .invite

/-- The claims that are signed. -/
def Mint.claims (env : Environ) : Mint → Claims
  | session username ttlHours now =>
      tokenClaims env username ttlHours (some sessionAudience) now
  | api username _ ttlHours now => tokenClaims env username ttlHours none now
  | invite email role targetL2Id issuedAt expiresAt jti =>
      inviteClaims email role targetL2Id issuedAt expiresAt jti

/-- Where a token is shown: as a session, which is verified in two ways, or as an invite. -/
inductive Surface where
  | session
  /-- `verify_token` without an audience. -/
  | api (secret : String)
  /-- `validate_invite_jwt`, on the tables of the L2 (their clock is not read). -/
  | invite (s : InviteStore)

def Surface.purpose : Surface → Purpose
  | session | api _ => .session
  | invite _ => .invite

variable (J : JwtLibrary)

/-- The token that an L2 mints. -/
def Mint.token (env : Environ) : Mint → Option J.Token
  | session username ttlHours now => mintSession J env username ttlHours now
  | api username secret ttlHours now => some (createToken J env username secret ttlHours none now)
  | invite email role targetL2Id issuedAt expiresAt jti =>
      encodeInvite J env email role targetL2Id issuedAt expiresAt jti

/-- The verifier of an L2 accepts the token. -/
def Surface.Accepts (env : Environ) (token : J.Token) (now : Int) : Surface → Prop
  | session => ∃ secret payload, getJwtSecret env = some secret ∧
      verifyToken J env token secret (some sessionAudience) now = .ok payload
  | api secret => ∃ payload, verifyToken J env token secret none now = .ok payload
  | invite s => ∃ inv,
      ((@validateInviteJwt (inviteJwt J env) token).alone { s with clock := now }).1 = some inv

/-- The secret that a verifier checks the signature with. -/
def Surface.secret (env : Environ) : Surface → Option String
  | session | invite _ => getJwtSecret env
  | api secret => some secret

/-- The token passes the library: it is signed with the secret, and this is its time. -/
def Surface.Passes (env : Environ) (token : J.Token) (claims : Claims) (now : Int)
    (surface : Surface) : Prop :=
  ∃ secret, surface.secret env = some secret ∧ J.signedBy token secret = true ∧ claims.Timely now

variable {J}

/-- A cookie that names a user is accepted as a session. -/
theorem accepts_of_cookie {env : Environ} {token : J.Token} {now : Int} {username : String}
    (h : readSessionFromCookie J env (some token) now = some username) :
    Surface.session.Accepts J env token now := by
  obtain ⟨secret, hsecret, h⟩ := Option.bind_eq_some_iff.mp h
  cases hverify : verifyToken J env token secret (some sessionAudience) now with
  | error e =>
      rw [hverify] at h
      cases h
  | ok payload => exact ⟨secret, payload, hsecret, hverify⟩

/-- So is a bearer that names one. -/
theorem accepts_of_bearer {env : Environ} {token : J.Token} {now : Int} {username : ClaimValue}
    (h : resolveBearer J env token now = some username) :
    Surface.session.Accepts J env token now := by
  obtain ⟨secret, hsecret, h⟩ := Option.bind_eq_some_iff.mp h
  cases hverify : verifyToken J env token secret (some sessionAudience) now with
  | error e =>
      rw [hverify] at h
      cases h
  | ok payload => exact ⟨secret, payload, hsecret, hverify⟩

theorem mint_eq {env : Environ} {mint : Mint} {token : J.Token}
    (h : mint.token J env = some token) : ∃ secret, token = J.encode (mint.claims env) secret := by
  cases mint with
  | api username secret ttlHours now => exact ⟨secret, (Option.some.inj h).symm⟩
  | session username ttlHours now =>
      obtain ⟨secret, -, rfl⟩ := Option.map_eq_some_iff.mp h
      exact ⟨secret, rfl⟩
  | invite email role targetL2Id issuedAt expiresAt jti =>
      obtain ⟨secret, -, rfl⟩ := Option.map_eq_some_iff.mp h
      exact ⟨secret, rfl⟩

/-! ## The claims of each mint -/

/-- The audience that a mint writes. -/
def Mint.audience (env : Environ) : Mint → String
  | session .. => sessionAudience
  | api .. => selfL2Id env
  | invite .. => inviteAudience

/-- The issuer that a mint writes. -/
def Mint.issuer (env : Environ) : Mint → String
  | session .. => sessionIssuer
  | api .. => selfL2Id env
  | invite .. => inviteIssuer

theorem get_aud (env : Environ) (mint : Mint) :
    (mint.claims env).get "aud" = some (.text (mint.audience env)) := by
  cases mint <;> rfl

theorem get_iss (env : Environ) (mint : Mint) :
    (mint.claims env).get "iss" = some (.text (mint.issuer env)) := by
  cases mint <;> rfl

theorem claims_standard (env : Environ) (mint : Mint) : (mint.claims env).Standard := by
  cases mint with
  | session username ttlHours now =>
      exact ⟨⟨_, rfl⟩, ⟨_, rfl⟩, ⟨_, rfl⟩, fun v h => (nomatch h), rfl⟩
  | api username secret ttlHours now =>
      exact ⟨⟨_, rfl⟩, ⟨_, rfl⟩, ⟨_, rfl⟩, fun v h => (nomatch h), rfl⟩
  | invite email role targetL2Id issuedAt expiresAt jti =>
      exact ⟨⟨_, rfl⟩, ⟨_, rfl⟩, ⟨_, rfl⟩, fun v h => ⟨_, (Option.some.inj h).symm⟩, rfl⟩

/-- An id of an L2 has a slash, which the audiences of sessions and invites do not have. -/
theorem selfL2Id_ne {aud : String} (h : '/' ∉ aud.toList) (env : Environ) :
    selfL2Id env ≠ aud := by
  rintro rfl
  unfold selfL2Id at h
  simp only [String.toList_append, List.mem_append, not_or] at h
  exact h.1.2 (by decide)

/-! ## Who accepts what -/

section Accepts

variable {a b : Environ} {mint : Mint} {secret secret' : String} {now : Int}

/-- What the library makes of a minted token. -/
theorem decode_mint (opts : DecodeOptions) (payload : Claims) :
    J.decode (J.encode (mint.claims a) secret) secret' opts now = .ok payload ↔
      payload = mint.claims a ∧ J.signedBy (J.encode (mint.claims a) secret) secret' = true ∧
        (mint.claims a).Timely now ∧ opts.Admits (mint.claims a) :=
  J.decode_encode _ _ _ _ _ _ (claims_standard a mint)

/-- The claims that every mint writes are there. -/
theorem admits_iff {names : List String} (h : ∀ name ∈ names, (mint.claims a).get name ≠ none)
    (audience issuer : Option String) :
    DecodeOptions.Admits ⟨names, audience, issuer⟩ (mint.claims a) ↔
      (∀ aud, audience = some aud → mint.audience a = aud) ∧
        ∀ iss, issuer = some iss → mint.issuer a = iss := by
  constructor
  · rintro ⟨-, haud, hiss⟩
    constructor
    · intro aud h
      have := (get_aud a mint).symm.trans (haud aud h)
      simpa using this
    · intro iss h
      have := (get_iss a mint).symm.trans (hiss iss h)
      simpa using this
  · rintro ⟨haud, hiss⟩
    refine ⟨h, fun aud heq => ?_, fun iss heq => ?_⟩
    · rw [get_aud, haud aud heq]
    · rw [get_iss, hiss iss heq]

theorem get_common {name : String} (h : name ∈ ["iss", "aud", "sub", "exp"]) :
    (mint.claims a).get name ≠ none := by
  obtain ⟨s, hsub⟩ := (claims_standard a mint).sub
  obtain ⟨t, hexp⟩ := (claims_standard a mint).exp
  simp only [List.mem_cons, List.not_mem_nil, or_false] at h
  rcases h with rfl | rfl | rfl | rfl
  · rw [get_iss]
    exact Option.some_ne_none _
  · rw [get_aud]
    exact Option.some_ne_none _
  · rw [hsub]
    exact Option.some_ne_none _
  · rw [hexp]
    exact Option.some_ne_none _

/-- As a session: the audience is that of sessions, or the id of this L2 in the grace period. -/
theorem accepts_session_iff :
    Surface.session.Accepts J b (J.encode (mint.claims a) secret) now ↔
      Surface.session.Passes J b (J.encode (mint.claims a) secret) (mint.claims a) now ∧
        (mint.audience a = sessionAudience ∨ deprecatedAudlessTokensEnabled b = true ∧
          mint.audience a = selfL2Id b ∧ mint.issuer a = selfL2Id b) := by
  have hadmits : DecodeOptions.Admits ⟨["sub", "exp"], none, none⟩ (mint.claims a) := by
    refine (admits_iff (fun name h => get_common ?_) none none).mpr
      ⟨fun _ h => (nomatch h), fun _ h => (nomatch h)⟩
    simp only [List.mem_cons, List.not_mem_nil, or_false] at h ⊢
    exact .inr (.inr h)
  have hverify : ∀ secret', (∃ payload,
      verifyToken J b (J.encode (mint.claims a) secret) secret' (some sessionAudience) now =
        .ok payload) ↔
      (J.signedBy (J.encode (mint.claims a) secret) secret' = true ∧
        (mint.claims a).Timely now) ∧
      (mint.audience a = sessionAudience ∨ deprecatedAudlessTokensEnabled b = true ∧
        mint.audience a = selfL2Id b ∧ mint.issuer a = selfL2Id b) := by
    intro secret'
    unfold verifyToken
    dsimp only
    cases hdecode : J.decode (J.encode (mint.claims a) secret) secret'
        ⟨["sub", "exp"], none, none⟩ now with
    | error e =>
        have hnot : ¬ (J.signedBy (J.encode (mint.claims a) secret) secret' = true ∧
            (mint.claims a).Timely now) := by
          rintro ⟨hsigned, htimely⟩
          rw [(decode_mint _ _).mpr ⟨rfl, hsigned, htimely, hadmits⟩] at hdecode
          cases hdecode
        simp [hnot]
    | ok payload =>
        obtain ⟨rfl, hsigned, htimely, -⟩ := (decode_mint _ _).mp hdecode
        simp only [get_aud, get_iss, hsigned, htimely, and_self, true_and, ClaimValue.text.injEq,
          Option.some.injEq, decide_true, Bool.true_and]
        by_cases haud : mint.audience a = sessionAudience
        · simp [haud]
        · by_cases hgrace : deprecatedAudlessTokensEnabled b = true
          · by_cases hself : mint.audience a = selfL2Id b
            · by_cases hiss : mint.issuer a = selfL2Id b
              · simp [hgrace, hself, hiss]
              · have hother : selfL2Id b ≠ sessionAudience := fun h => haud (hself.trans h)
                simp [hother, hself, hiss]
            · simp [haud, hself]
          · simp [haud, hgrace]
  unfold Surface.Accepts Surface.Passes Surface.secret
  constructor
  · rintro ⟨secret', payload, hsecret, hok⟩
    obtain ⟨⟨hsigned, htimely⟩, haud⟩ := (hverify secret').mp ⟨payload, hok⟩
    exact ⟨⟨secret', hsecret, hsigned, htimely⟩, haud⟩
  · rintro ⟨⟨secret', hsecret, hsigned, htimely⟩, haud⟩
    obtain ⟨payload, hok⟩ := (hverify secret').mpr ⟨⟨hsigned, htimely⟩, haud⟩
    exact ⟨secret', payload, hsecret, hok⟩

/-- Without an audience: audience and issuer are the id of this L2. -/
theorem accepts_api_iff :
    (Surface.api secret').Accepts J b (J.encode (mint.claims a) secret) now ↔
      (Surface.api secret').Passes J b (J.encode (mint.claims a) secret) (mint.claims a) now ∧
        mint.audience a = selfL2Id b ∧ mint.issuer a = selfL2Id b := by
  have hadmits := @admits_iff a mint ["iss", "aud", "sub", "exp"] (fun _ => get_common)
    (some (selfL2Id b)) (some (selfL2Id b))
  unfold Surface.Accepts Surface.Passes Surface.secret verifyToken
  simp only [decode_mint, hadmits, Option.some.injEq, exists_eq_left, exists_eq_left', forall_eq']
  constructor
  · rintro ⟨hsigned, htimely, haud, hiss⟩
    exact ⟨⟨hsigned, htimely⟩, haud, hiss⟩
  · rintro ⟨⟨hsigned, htimely⟩, haud, hiss⟩
    exact ⟨hsigned, htimely, haud, hiss⟩

section Alone

variable {J : Jwt} {α : Type} {s : InviteStore}

theorem alone_decodeJwt (token : J.Token) (k : Decoded → InviteProg J α) :
    (Prog.call (InviteStmt.decodeJwt token) k : InviteProg J α).alone s =
      (k (J.decode token s.clock)).alone s := rfl

theorem alone_byJti (jti : String) (k : Option Invite → InviteProg J α) :
    (Prog.call (InviteStmt.byJti jti) k : InviteProg J α).alone s = (k (s.byJti jti)).alone s := rfl

theorem alone_statusOf (inv : Invite) (k : InviteStatus → InviteProg J α) :
    (Prog.call (InviteStmt.statusOf inv) k : InviteProg J α).alone s =
      (k (inv.status s.clock)).alone s := rfl

end Alone

/-- A bearer that `_decode_jwt` has decoded, looked up in the tables. -/
theorem validate_alone {J : Jwt} {token : J.Token} {s : InviteStore} {inv : Invite} :
    ((validateInviteJwt token).alone s).1 = some inv ↔
      ∃ jti, J.decode token s.clock = .ok jti ∧ jti ≠ "" ∧ s.byJti jti = some inv ∧
        inv.status s.clock = .pending := by
  unfold validateInviteJwt
  rw [alone_decodeJwt]
  cases hdecode : J.decode token s.clock with
  | expired => simp
  | invalid => simp
  | ok jti =>
      by_cases hempty : jti = ""
      · simp [hempty]
      · simp only [if_neg hempty, alone_byJti]
        cases hrow : s.byJti jti with
        | none => simp [hrow]
        | some row =>
            simp only [alone_statusOf]
            by_cases hpending : row.status s.clock = .pending
            · rw [if_pos hpending]
              simp only [Prog.alone_done, Option.some.injEq, Decoded.ok.injEq, exists_eq_left',
                hrow]
              constructor
              · rintro rfl
                exact ⟨hempty, rfl, hpending⟩
              · rintro ⟨-, h, -⟩
                exact h
            · rw [if_neg hpending]
              simp only [Prog.alone_done, Decoded.ok.injEq, exists_eq_left', hrow,
                Option.some.injEq, reduceCtorEq, false_iff]
              rintro ⟨-, rfl, h⟩
              exact hpending h

/-- As an invite: it has the audience and the issuer of invites, and its row is pending. -/
theorem accepts_invite_iff {s : InviteStore} :
    (Surface.invite s).Accepts J b (J.encode (mint.claims a) secret) now ↔
      (Surface.invite s).Passes J b (J.encode (mint.claims a) secret) (mint.claims a) now ∧
        mint.audience a = inviteAudience ∧ mint.issuer a = inviteIssuer ∧
        ∃ jti inv, (mint.claims a).get "jti" = some (.text jti) ∧ jti ≠ "" ∧
          s.byJti jti = some inv ∧ inv.status now = .pending := by
  have hdecode : ∀ jti, (inviteJwt J b).decode (J.encode (mint.claims a) secret) now = .ok jti ↔
      (Surface.invite s).Passes J b (J.encode (mint.claims a) secret) (mint.claims a) now ∧
        (mint.audience a = inviteAudience ∧ mint.issuer a = inviteIssuer) ∧
          (mint.claims a).get "jti" = some (.text jti) := by
    intro jti
    have hadmits : (mint.claims a).get "jti" ≠ none → (inviteOptions.Admits (mint.claims a) ↔
        mint.audience a = inviteAudience ∧ mint.issuer a = inviteIssuer) := by
      intro hjti
      refine (admits_iff (fun name h => ?_) _ _).trans ?_
      · by_cases hname : name = "jti"
        · exact hname ▸ hjti
        · refine get_common ?_
          simp only [List.mem_cons, List.not_mem_nil, or_false] at h ⊢
          tauto
      · simp only [Option.some.injEq, forall_eq']
    unfold Surface.Passes Surface.secret inviteJwt
    dsimp only
    cases hsecret : getJwtSecret b with
    | none => simp
    | some secret' =>
        simp only [Option.some.injEq, exists_eq_left']
        constructor
        · intro h
          cases hok : J.decode (J.encode (mint.claims a) secret) secret' inviteOptions now with
          | error e =>
              rw [hok] at h
              cases e <;> cases h
          | ok payload =>
              rw [hok] at h
              obtain ⟨rfl, hsigned, htimely, hin⟩ := (decode_mint _ _).mp hok
              have hjti := hin.required "jti" (by decide)
              obtain ⟨v, hv⟩ := Option.ne_none_iff_exists'.mp hjti
              obtain ⟨text, rfl⟩ := (claims_standard a mint).jti v hv
              unfold decodedOf at h
              simp only [hv, Decoded.ok.injEq] at h
              exact ⟨⟨hsigned, htimely⟩, (hadmits hjti).mp hin, h ▸ hv⟩
        · rintro ⟨⟨hsigned, htimely⟩, hin, hv⟩
          have hjti : (mint.claims a).get "jti" ≠ none := hv ▸ Option.some_ne_none _
          rw [(decode_mint _ _).mpr ⟨rfl, hsigned, htimely, (hadmits hjti).mpr hin⟩]
          unfold decodedOf
          simp only [hv]
  refine (exists_congr fun inv => validate_alone).trans ?_
  constructor
  · rintro ⟨inv, jti, hok, hne, hrow, hpending⟩
    obtain ⟨hpasses, ⟨haud, hiss⟩, hjti⟩ := (hdecode jti).mp hok
    exact ⟨hpasses, haud, hiss, jti, inv, hjti, hne, hrow, hpending⟩
  · rintro ⟨hpasses, haud, hiss, jti, inv, hjti, hne, hrow, hpending⟩
    exact ⟨inv, jti, (hdecode jti).mpr ⟨hpasses, ⟨haud, hiss⟩, hjti⟩, hne, hrow, hpending⟩

end Accepts

/-! ## Separation -/

/-- The claims name no L2, and the verifier asks for none: a session shown as a session, and an
invite whose row is pending on the L2. -/
def Unpinned (now : Int) : Mint → Surface → Prop
  | .session .., .session => True
  | .invite _ _ _ _ _ jti, .invite s =>
      jti ≠ "" ∧ ∃ inv, s.byJti jti = some inv ∧ inv.status now = .pending
  | _, _ => False

/-- A verifier accepts a minted token if the library passes it and it is either unpinned, or of
the older shape, shown as a session on its L2. -/
theorem accepts_iff {a b : Environ} {mint : Mint} {secret : String} {surface : Surface} {now : Int} :
    surface.Accepts J b (J.encode (mint.claims a) secret) now ↔
      surface.Passes J b (J.encode (mint.claims a) secret) (mint.claims a) now ∧
        (Unpinned now mint surface ∨
          selfL2Id a = selfL2Id b ∧ mint.audience a = selfL2Id a ∧
            (surface = .session → deprecatedAudlessTokensEnabled b = true) ∧
            surface.purpose = .session) := by
  have hsession : selfL2Id a ≠ sessionAudience := selfL2Id_ne (by decide) a
  have hinvite : selfL2Id a ≠ inviteAudience := selfL2Id_ne (by decide) a
  have hsession' : selfL2Id b ≠ sessionAudience := selfL2Id_ne (by decide) b
  have hinvite' : selfL2Id b ≠ inviteAudience := selfL2Id_ne (by decide) b
  have hne : inviteAudience ≠ sessionAudience := by decide
  cases surface with
  | session =>
      rw [accepts_session_iff]
      refine and_congr_right fun _ => ?_
      cases mint with
      | session username ttlHours minted => simp [Mint.audience, Unpinned]
      | api username secret ttlHours minted =>
          simp [Mint.audience, Mint.issuer, Unpinned, Surface.purpose, hsession, and_comm]
      | invite email role targetL2Id issuedAt expiresAt jti =>
          simp [Mint.audience, Unpinned, hne, hinvite.symm, hinvite'.symm]
  | api other =>
      rw [accepts_api_iff]
      refine and_congr_right fun _ => ?_
      cases mint with
      | session username ttlHours minted =>
          simp [Mint.audience, Unpinned, hsession.symm, hsession'.symm]
      | api username secret ttlHours minted =>
          simp [Mint.audience, Mint.issuer, Unpinned, Surface.purpose]
      | invite email role targetL2Id issuedAt expiresAt jti =>
          simp [Mint.audience, Unpinned, hinvite.symm, hinvite'.symm]
  | invite s =>
      rw [accepts_invite_iff]
      refine and_congr_right fun _ => ?_
      cases mint with
      | session username ttlHours minted =>
          simp [Mint.audience, Unpinned, Surface.purpose, hne.symm]
      | api username secret ttlHours minted =>
          simp [Mint.audience, Unpinned, Surface.purpose, hinvite]
      | invite email role targetL2Id issuedAt expiresAt jti =>
          have hjti : (Mint.claims a (.invite email role targetL2Id issuedAt expiresAt jti)).get
              "jti" = some (.text jti) := rfl
          simp [Mint.audience, Mint.issuer, Unpinned, Surface.purpose, hjti]

/-- **Separation of tokens.** A minted token is accepted only for what it was minted for. It is
accepted on its own L2 only, exactly where the two L2s are one, or the library does not pass
it (another secret, or not its time), or it is neither a session shown as a session nor an
invite whose row the other L2 has. -/
theorem tokens_separate (J : JwtLibrary) (a b : Environ) (mint : Mint) (surface : Surface)
    (now : Int) (token : J.Token) (h : mint.token J a = some token) :
    (surface.Accepts J b token now → surface.purpose = mint.purpose) ∧
      ((surface.Accepts J b token now →
          surface.purpose = mint.purpose ∧ selfL2Id b = selfL2Id a) ↔
        selfL2Id b = selfL2Id a ∨ ¬ surface.Passes J b token (mint.claims a) now ∨
          ¬ Unpinned now mint surface) := by
  obtain ⟨secret, rfl⟩ := mint_eq h
  have hpurpose : surface.Accepts J b (J.encode (mint.claims a) secret) now →
      surface.purpose = mint.purpose := by
    intro haccepts
    rcases (accepts_iff.mp haccepts).2 with hunpinned | ⟨-, haud, -, hsurface⟩
    · cases mint <;> cases surface <;> first | rfl | cases hunpinned
    · cases mint with
      | invite email role targetL2Id issuedAt expiresAt jti =>
          have hinvite : selfL2Id a ≠ inviteAudience := selfL2Id_ne (by decide) a
          exact absurd haud.symm hinvite
      | session username ttlHours minted => exact hsurface
      | api username secret ttlHours minted => exact hsurface
  refine ⟨hpurpose, ?_⟩
  rw [accepts_iff] at hpurpose ⊢
  constructor
  · intro hseparate
    by_cases hpasses : surface.Passes J b (J.encode (mint.claims a) secret) (mint.claims a) now
    · by_cases hunpinned : Unpinned now mint surface
      · exact .inl (hseparate ⟨hpasses, .inl hunpinned⟩).2
      · exact .inr (.inr hunpinned)
    · exact .inr (.inl hpasses)
  · intro hcond haccepts
    refine ⟨hpurpose haccepts, ?_⟩
    obtain ⟨hpasses, hunpinned | ⟨hself, -⟩⟩ := haccepts
    · rcases hcond with hself | hnot | hnot
      · exact hself
      · exact absurd hpasses hnot
      · exact absurd hunpinned hnot
    · exact hself.symm

/-! ### Two L2s with one secret -/

/-- The token has been issued by then. -/
def issuedBy (claims : Claims) (now : Int) : Bool :=
  match claims.get "iat" with
  | some (.seconds iat) => iat * 1000000 ≤ now
  | _ => true

/-- The token has not expired. -/
def unexpired (claims : Claims) (now : Int) : Bool :=
  match claims.get "exp" with
  | some (.seconds exp) => now < exp * 1000000
  | _ => true

theorem timely_iff {claims : Claims} {now : Int} :
    claims.Timely now ↔ unexpired claims now = true ∧ issuedBy claims now = true := by
  unfold Claims.Timely unexpired issuedBy
  refine and_congr ?_ ?_
  · split
    · rename_i exp hexp
      simp [hexp]
    · rename_i hnone
      exact iff_of_true (fun exp h => absurd h (hnone exp)) rfl
  · split
    · rename_i iat hiat
      simp [hiat]
    · rename_i hnone
      exact iff_of_true (fun iat h => absurd h (hnone iat)) rfl

/-- What is asked for is there. -/
def admits (opts : DecodeOptions) (claims : Claims) : Bool :=
  opts.require.all (fun name => claims.get name ≠ none) &&
    (opts.audience.all fun aud => claims.get "aud" = some (.text aud)) &&
    opts.issuer.all fun iss => claims.get "iss" = some (.text iss)

theorem admits_eq_true_iff {opts : DecodeOptions} {claims : Claims} :
    admits opts claims = true ↔ opts.Admits claims := by
  unfold admits
  simp only [Bool.and_eq_true, List.all_eq_true, Option.all_eq_true, decide_eq_true_eq]
  constructor
  · rintro ⟨⟨hrequired, haud⟩, hiss⟩
    exact ⟨hrequired, haud, hiss⟩
  · rintro ⟨hrequired, haud, hiss⟩
    exact ⟨⟨hrequired, haud⟩, hiss⟩

/-- A library whose tokens are their claims and their secret. -/
def plainLibrary : JwtLibrary where
  Token := Claims × String
  encode claims secret := (claims, secret)
  signedBy token secret := token.2 = secret
  decode token secret opts now :=
    if token.2 = secret ∧ issuedBy token.1 now = true ∧ admits opts token.1 = true then
      if unexpired token.1 now then .ok token.1 else .error .expired
    else .error .invalid
  signedBy_encode _ _ := decide_eq_true rfl
  decode_encode claims secret secret' opts now claims' _ := by
    dsimp only
    rw [timely_iff, ← admits_eq_true_iff, decide_eq_true_eq]
    split
    · rename_i h
      obtain ⟨hsecret, hissued, hadmits⟩ := h
      split
      · rename_i hexp
        simp [hsecret, hissued, hadmits, hexp, eq_comm]
      · rename_i hexp
        simp [hexp]
    · rename_i h
      simp only [reduceCtorEq, false_iff]
      rintro ⟨-, hsecret, ⟨-, hissued⟩, hadmits⟩
      exact h ⟨hsecret, hissued, hadmits⟩
  decode_later token secret opts now later claims hle hok := by
    have hlater : issuedBy token.1 now = true → issuedBy token.1 later = true := by
      unfold issuedBy
      split
      · simp only [decide_eq_true_eq]
        omega
      · exact id
    split at hok
    · rename_i h
      rw [if_pos ⟨h.1, hlater h.2.1, h.2.2⟩]
      split at hok
      · split
        · exact .inl hok
        · exact .inr rfl
      · cases hok
    · cases hok

/-- An L2 of acme, with the secret of both. -/
def l2Env (group : String) : Environ where
  lookup := fun name =>
    if name = "CQ_ENTERPRISE" then some "acme"
    else if name = "CQ_GROUP" then some group
    else if name = "CQ_JWT_SECRET" then some "shared-secret" else none

/-- alice's session at the start of the epoch. -/
def aliceSession : Mint := .session "alice" 24 0

/-- The token of her session is accepted as a session only, where she got it. -/
theorem tokens_separate_sample :
    ∃ token, aliceSession.token plainLibrary (l2Env "eng") = some token ∧
      (Surface.session.Accepts plainLibrary (l2Env "eng") token 1000000 →
        Surface.session.purpose = aliceSession.purpose ∧
          selfL2Id (l2Env "eng") = selfL2Id (l2Env "eng")) :=
  ⟨_, rfl, (tokens_separate plainLibrary (l2Env "eng") (l2Env "eng") aliceSession .session 1000000 _
    rfl).2.mpr (.inl rfl)⟩

/-- It is accepted on the other L2 as well. -/
theorem session_accepted_elsewhere :
    ∃ token, aliceSession.token plainLibrary (l2Env "eng") = some token ∧
      selfL2Id (l2Env "eng") ≠ selfL2Id (l2Env "sales") ∧
      readSessionFromCookie plainLibrary (l2Env "sales") (some token) 1000000 = some "alice" ∧
      Surface.session.Accepts plainLibrary (l2Env "sales") token 1000000 :=
  ⟨_, rfl, by decide, by decide +kernel, "shared-secret", _, rfl, rfl⟩

end EighthLayer.Auth
