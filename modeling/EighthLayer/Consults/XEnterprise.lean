import EighthLayer.Consults.Peering
import EighthLayer.Lib.Instant

/-!
# EighthLayer.Consults.XEnterprise

`_require_x_enterprise_auth`: whether a consult forwarded by an L2 of another Enterprise is
accepted. The caller names a peering by its offer id and presents the bearer derived from
it; the check looks the peering up among the active ones.

The check takes the Enterprise that is not this one for the other side, without asking
whether this one is a side at all, and compares timestamps as texts. `auth_sound_iff` says
for which tables this lets nothing through that it should not.
-/

namespace EighthLayer.Consults

open Lib Aigrp

/-- `ForwardRequestBody`, as validated. -/
structure ForwardRequestBody where
  threadId : String
  messageId : String
  fromL2Id : String
  fromPersona : String
  toL2Id : String
  toPersona : String
  subject : Option String
  content : String
  createdAt : String
  toPersona_ne : toPersona ≠ ""
  subject_le : ∀ s, subject = some s → s.length ≤ 512
  content_ne : content ≠ ""
  content_le : content.length ≤ 4096
deriving DecidableEq

/-- Why a cross-Enterprise forward is refused, with the values the detail quotes. -/
inductive XRefusal where
  | missingBearer
  | missingForwarder
  | missingOfferId
  | identityMismatch (header body : String)
  | noPeering (offerId : String)
  | expired
  | wrongSide (forwarderEnterprise offerId otherSide : String)
  | invalidBearer
  /-- A signature of the peering does not decode. -/
  | internalError
deriving DecidableEq

/-- The HTTP status of a refusal. -/
def XRefusal.status : XRefusal → Nat
  | missingBearer | invalidBearer => 401
  | missingForwarder | missingOfferId => 400
  | identityMismatch .. | noPeering _ | expired | wrongSide .. => 403
  | internalError => 500

/-- The header with the offer id. -/
def offerIdHeader : String := "x-8l-peering-offer-id"

/-- The side of a peering that is not `self`. -/
def DirectoryPeering.otherSide (p : DirectoryPeering) (selfEnterprise : String) : String :=
  if p.toEnterprise = selfEnterprise then p.fromEnterprise else p.toEnterprise

/-- `peering.get("expires_at") and peering["expires_at"] < now`. -/
def DirectoryPeering.expired (p : DirectoryPeering) (now : String) : Bool :=
  p.expiresAt ≠ "" && p.expiresAt < now

/-- `_require_x_enterprise_auth`. -/
def requireXEnterpriseAuth (env : Environ) (t : PeeringTable) (now : String) (request : Request)
    (body : ForwardRequestBody) : Except XRefusal DirectoryPeering :=
  match afterPrefix "Bearer " (request.header "authorization") with
  | none => .error .missingBearer
  | some presentedBearer =>
    let forwarderL2Id := strip (request.header forwarderHeader)
    if forwarderL2Id = "" then .error .missingForwarder
    else
      let offerId := strip (request.header offerIdHeader)
      if offerId = "" then .error .missingOfferId
      else if body.fromL2Id ≠ forwarderL2Id then
        .error (.identityMismatch forwarderL2Id body.fromL2Id)
      else
        let peerings := (listDirectoryPeerings t none (some "active")).filter
          fun p => p.offerId = offerId
        match peerings.head? with
        | none => .error (.noPeering offerId)
        | some peering =>
          if peering.expired now then .error .expired
          else
            let forwarderEnterprise := enterprisePart forwarderL2Id
            let otherEnterprise := peering.otherSide (enterprise env)
            if forwarderEnterprise ≠ otherEnterprise then
              .error (.wrongSide forwarderEnterprise offerId otherEnterprise)
            else match peering.bearer with
              | none => .error .internalError
              | some expectedBearer =>
                if presentedBearer = expectedBearer then .ok peering
                else .error .invalidBearer

section Auth

variable {env : Environ} {t : PeeringTable} {now : String} {request : Request}
  {body : ForwardRequestBody} {p : DirectoryPeering}

/-- What is accepted: the row named is active, not expired by its text, has the forwarder's
Enterprise for its other side, and the bearer presented. -/
theorem requireXEnterpriseAuth_ok_iff :
    requireXEnterpriseAuth env t now request body = .ok p ↔
      body.fromL2Id = strip (request.header forwarderHeader) ∧
      strip (request.header forwarderHeader) ≠ "" ∧ strip (request.header offerIdHeader) ≠ "" ∧
      t.find (strip (request.header offerIdHeader)) = some p ∧ p.status = "active" ∧
      p.expired now = false ∧
      enterprisePart (strip (request.header forwarderHeader)) = p.otherSide (enterprise env) ∧
      ∃ bearer, afterPrefix "Bearer " (request.header "authorization") = some bearer ∧
        p.bearer = some bearer := by
  have hlisted : ∀ q, ((listDirectoryPeerings t none (some "active")).filter
      fun p => p.offerId = strip (request.header offerIdHeader)).head? = some q ↔
        t.find (strip (request.header offerIdHeader)) = some q ∧ q.status = "active" :=
    fun q => listed_head_eq_some_iff
  unfold requireXEnterpriseAuth
  dsimp only
  constructor
  · intro h
    split at h
    · cases h
    · rename_i presented hauth
      split at h
      · cases h
      · rename_i hforwarder
        split at h
        · cases h
        · rename_i hoffer
          split at h
          · cases h
          · rename_i hfrom
            split at h
            · cases h
            · rename_i q hhead
              obtain ⟨hfind, hstatus⟩ := (hlisted q).mp hhead
              split at h
              · cases h
              · rename_i hexpired
                split at h
                · cases h
                · rename_i hside
                  split at h
                  · cases h
                  · rename_i expected hbearer
                    split at h
                    · rename_i heq
                      cases h
                      exact ⟨not_not.mp hfrom, hforwarder, hoffer, hfind, hstatus,
                        Bool.eq_false_of_not_eq_true hexpired, not_not.mp hside, presented, hauth,
                        heq ▸ hbearer⟩
                    · cases h
  · rintro ⟨hfrom, hforwarder, hoffer, hfind, hstatus, hexpired, hside, bearer, hauth, hbearer⟩
    have hhead := (hlisted p).mpr ⟨hfind, hstatus⟩
    simp only [hauth, hforwarder, hoffer, hfrom, hhead, hexpired, hside, hbearer, if_false, if_true,
      ne_eq, not_true_eq_false, Bool.false_eq_true]

/-! ## Soundness -/

/-- The two parties of a peering, in either order. -/
def DirectoryPeering.Between (p : DirectoryPeering) (a b : String) : Prop :=
  (p.fromEnterprise = a ∧ p.toEnterprise = b) ∨ (p.fromEnterprise = b ∧ p.toEnterprise = a)

/-- A forward that is accepted is covered: an active peering of exactly this Enterprise and
the forwarder's, under the offer id presented, which expires after the time of the check,
and whose bearer was presented. -/
def AuthSound (env : Environ) (t : PeeringTable) (now : Clock) (request : Request)
    (body : ForwardRequestBody) : Prop :=
  ∀ p, requireXEnterpriseAuth env t now.isoformat request body = .ok p →
    ∃ q ∈ t, q.status = "active" ∧
      q.Between (enterprise env) (enterprisePart (strip (request.header forwarderHeader))) ∧
      q.offerId = strip (request.header offerIdHeader) ∧
      (∃ e, instantOf q.expiresAt = some e ∧ now.instant < e) ∧
      ∃ bearer, afterPrefix "Bearer " (request.header "authorization") = some bearer ∧
        q.bearer = some bearer

/-- Headers can be written that name a peering and an L2 of its other side, and its bearer
can be derived. -/
def DirectoryPeering.Presentable (p : DirectoryPeering) (selfEnterprise : String) : Prop :=
  p.offerId ≠ "" ∧ (∃ header, strip header = p.offerId) ∧
    (∃ header, strip header ≠ "" ∧ enterprisePart (strip header) = p.otherSide selfEnterprise) ∧
    p.bearer ≠ none

/-- This Enterprise is a party, and the text of the expiry denotes a later instant. -/
def DirectoryPeering.Covers (p : DirectoryPeering) (selfEnterprise : String) (now : Clock) : Prop :=
  (p.fromEnterprise = selfEnterprise ∨ p.toEnterprise = selfEnterprise) ∧
    ∃ e, instantOf p.expiresAt = some e ∧ now.instant < e

theorem between_otherSide {selfEnterprise : String}
    (h : p.fromEnterprise = selfEnterprise ∨ p.toEnterprise = selfEnterprise) :
    p.Between selfEnterprise (p.otherSide selfEnterprise) := by
  unfold DirectoryPeering.otherSide
  split
  · rename_i hto
    exact .inr ⟨rfl, hto⟩
  · rename_i hto
    rcases h with hfrom | h
    · exact .inl ⟨hfrom, rfl⟩
    · exact absurd h hto

/-- Headers that present a peering. -/
def presenting (bearer offerId forwarderL2Id : String) : Request where
  headers := [("authorization", "Bearer " ++ bearer), (forwarderHeader, forwarderL2Id),
    (offerIdHeader, offerId)]

@[simp] theorem presenting_authorization (bearer offerId forwarderL2Id : String) :
    (presenting bearer offerId forwarderL2Id).header "authorization" = "Bearer " ++ bearer := rfl

@[simp] theorem presenting_forwarder (bearer offerId forwarderL2Id : String) :
    (presenting bearer offerId forwarderL2Id).header forwarderHeader = forwarderL2Id := rfl

@[simp] theorem presenting_offerId (bearer offerId forwarderL2Id : String) :
    (presenting bearer offerId forwarderL2Id).header offerIdHeader = offerId := rfl

/-- A body that an L2 sends. -/
def bodyFrom (fromL2Id : String) : ForwardRequestBody where
  threadId := "th_1"
  messageId := "msg_1"
  fromL2Id
  fromPersona := "alice"
  toL2Id := "acme/eng"
  toPersona := "bob"
  subject := none
  content := "How do you rotate keys?"
  createdAt := "2026-06-01T12:00:00+00:00"
  toPersona_ne := by decide
  subject_le := by simp
  content_ne := by decide
  content_le := by decide

/-- Whoever can present an active peering that is not expired by its text is accepted. -/
theorem accepted_of_presentable (hp : p ∈ t) (hstatus : p.status = "active")
    (hexpired : p.expired now = false) (h : p.Presentable (enterprise env)) :
    ∃ request body, requireXEnterpriseAuth env t now request body = .ok p ∧
      strip (request.header offerIdHeader) = p.offerId := by
  obtain ⟨hne, ⟨offerId, hoffer⟩, ⟨forwarder, hforwarder, hside⟩, hbearer⟩ := h
  obtain ⟨bearer, hbearer⟩ := Option.ne_none_iff_exists'.mp hbearer
  refine ⟨presenting bearer offerId forwarder, bodyFrom (strip forwarder), ?_, ?_⟩
  · rw [requireXEnterpriseAuth_ok_iff, presenting_authorization, presenting_forwarder,
      presenting_offerId, hoffer]
    exact ⟨rfl, hforwarder, hne, Table.find_key hp, hstatus, hexpired, hside, bearer,
      afterPrefix_append _ _, hbearer⟩
  · rw [presenting_offerId, hoffer]

/-- **Soundness of the cross-Enterprise check**, for a table and a time: every forward that
is accepted is covered, if and only if every active peering that can be presented and that
is not expired by its text has this Enterprise for a party and expires later. -/
theorem auth_sound_iff (env : Environ) (t : PeeringTable) (now : Clock) :
    (∀ request body, AuthSound env t now request body) ↔
      ∀ p ∈ t, p.status = "active" → p.expired now.isoformat = false →
        p.Presentable (enterprise env) → p.Covers (enterprise env) now := by
  constructor
  · intro h p hp hstatus hexpired hpresentable
    obtain ⟨request, body, haccepted, hoffer⟩ :=
      accepted_of_presentable hp hstatus hexpired hpresentable
    obtain ⟨q, hq, -, hbetween, hid, hexpiry, -⟩ := h request body p haccepted
    obtain rfl := Table.eq_of_key_eq hq hp (hid.trans hoffer)
    exact ⟨hbetween.imp And.left And.right, hexpiry⟩
  · intro h request body p haccepted
    obtain ⟨-, hforwarder, hoffer, hfind, hstatus, hexpired, hside, bearer, hauth, hbearer⟩ :=
      requireXEnterpriseAuth_ok_iff.mp haccepted
    obtain ⟨hp, hid⟩ := Table.find_eq_some_iff.mp hfind
    have hpresentable : p.Presentable (enterprise env) := by
      refine ⟨hid ▸ hoffer, ⟨_, hid.symm⟩, ⟨_, hforwarder, hside⟩, ?_⟩
      rw [hbearer]
      exact Option.some_ne_none _
    obtain ⟨hparty, hexpiry⟩ := h p hp hstatus hexpired hpresentable
    refine ⟨p, hp, hstatus, ?_, hid, hexpiry, bearer, hauth, hbearer⟩
    rw [hside]
    exact between_otherSide hparty

/-- A peering that expires at a UTC time, written as `isoformat` writes it, is expired by
its text if and only if that time is past. -/
theorem expired_isoformat {e now : Clock} (h : p.expiresAt = e.isoformat) :
    p.expired now.isoformat = true ↔ e.instant < now.instant := by
  have hne : e.isoformat ≠ "" := by
    intro hempty
    have hlength := congrArg String.toList hempty
    rw [Clock.toList_isoformat, Clock.chars] at hlength
    simp at hlength
  unfold DirectoryPeering.expired
  rw [h, Bool.and_eq_true, decide_eq_true_eq, decide_eq_true_eq, Clock.isoformat_lt_isoformat]
  exact and_iff_right hne

end Auth

/-! ### A peering of strangers, and one that is over -/

/-- A peering as the directory gives it. -/
def samplePeering (offerId fromEnterprise toEnterprise expiresAt : String) : DirectoryPeering where
  offerId
  fromEnterprise
  toEnterprise
  status := "active"
  contentPolicy := "summary_only"
  consultLoggingPolicy := "mutual_log_required"
  activeFrom := some "2026-01-01T00:00:00Z"
  expiresAt
  offerSignature := ""
  acceptSignature := ""
  lastSyncedAt := "2026-05-31T00:00:00+00:00"
  toL2Endpoints := []

/-- acme's table: a peering of its own that was over on the first of June at two in the
morning, two hours ahead of UTC, and one of two other Enterprises. -/
def acmePeerings : PeeringTable where
  rows := [samplePeering "off_1" "acme" "globex" "2026-06-01T02:00:00+02:00",
    samplePeering "off_2" "globex" "initech" "2027-01-01T00:00:00Z"]
  nodup := by decide

/-- One o'clock UTC on that day. -/
def oneOClock : Clock where
  stamp := ⟨⟨2026, 6, 1, Written.year_ge, Written.year_le, Written.june_ge, Written.june_le,
      Written.first_ge, Written.june_first_le⟩, 1, 0, 0,
    Written.hour_one, Written.sixtieth_zero, Written.sixtieth_zero⟩
  micro := 0
  micro_lt := Written.micro_zero

/-- acme's environment. -/
def acmeEnv : Environ := ⟨fun name => if name = "CQ_ENTERPRISE" then some "acme" else none⟩

/-- A forward of initech's is accepted on the peering of the others, and one of globex's on
the one that has been over for an hour. -/
theorem strangers_and_expired_accepted :
    (∃ request body, requireXEnterpriseAuth acmeEnv acmePeerings oneOClock.isoformat request body =
      .ok (samplePeering "off_2" "globex" "initech" "2027-01-01T00:00:00Z")) ∧
    (∃ request body, requireXEnterpriseAuth acmeEnv acmePeerings oneOClock.isoformat request body =
      .ok (samplePeering "off_1" "acme" "globex" "2026-06-01T02:00:00+02:00")) ∧
    instantOf "2026-06-01T02:00:00+02:00" = some (oneOClock.instant - 3600 * 1000000) := by
  refine ⟨?_, ?_, by decide +kernel⟩
  · obtain ⟨request, body, haccepted, -⟩ := @accepted_of_presentable acmeEnv acmePeerings
      oneOClock.isoformat (samplePeering "off_2" "globex" "initech" "2027-01-01T00:00:00Z")
      (.tail _ (.head _)) rfl (by decide +kernel)
      ⟨by decide, ⟨"off_2", by decide +kernel⟩, ⟨"initech/lab", by decide +kernel⟩, nofun⟩
    exact ⟨request, body, haccepted⟩
  · obtain ⟨request, body, haccepted, -⟩ := @accepted_of_presentable acmeEnv acmePeerings
      oneOClock.isoformat (samplePeering "off_1" "acme" "globex" "2026-06-01T02:00:00+02:00")
      (.head _) rfl (by decide +kernel)
      ⟨by decide, ⟨"off_1", by decide +kernel⟩, ⟨"globex/sales", by decide +kernel⟩, nofun⟩
    exact ⟨request, body, haccepted⟩

end EighthLayer.Consults
