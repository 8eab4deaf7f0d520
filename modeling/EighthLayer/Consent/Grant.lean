import EighthLayer.Crypto
import EighthLayer.Environ
import EighthLayer.Lib.Json

/-!
# EighthLayer.Consent.Grant

The body of a cross-group grant, the text that is signed for it, and the builder that
clients are expected to use.

The text is written by `rfc8785`, which comes from outside; what the code relies on is that
`json.loads` gives back the body that it was written for (`GrantCodec`).
-/

namespace EighthLayer.Consent

open Lib

/-! ## Bodies -/

/-- `GrantScope`. -/
structure GrantScope where
  kind : String
  values : List String
deriving DecidableEq

/-- `GrantBody`. -/
structure GrantBody where
  grantId : String
  enterpriseId : String
  sourceL2 : String
  targetL2 : String
  scope : GrantScope
  issuedAt : String
  expiresAt : String
  nonce : String
  version : String
  recoveryOperatorPubkey : String
deriving DecidableEq

/-- What is signed to revoke a grant. -/
structure RevokeEnvelope where
  grantId : String
  revokeTs : String
  reason : String
  revokerL2 : String

/-- `canonicalize`, on the two kinds of values that are signed, and `json.loads`. -/
structure GrantCodec where
  canonical : GrantBody → String
  loads : String → Option GrantBody
  revocation : RevokeEnvelope → String
  loads_canonical : ∀ b, loads (canonical b) = some b

/-! ## Errors -/

/-- `_parse_iso`: the text cannot be read, or it names no zone. -/
inductive TimeError where
  | notIso
  | naive
deriving DecidableEq

/-- The instant that a text denotes, in microseconds, for `datetime.fromisoformat`. -/
abbrev ParseIso := String → Except TimeError Int

/-- The states of a pending grant. -/
inductive PendingStatus where
  | proposed
  | cosigned
deriving DecidableEq

/-- The states of a grant. -/
inductive GrantStatus where
  | active
  | revoked
deriving DecidableEq

/-- `XGroupConsentError.code`. -/
inductive ErrorCode where
  | notFound
  | conflict
  | invalidSignature
  | expired
  | badRequest
deriving DecidableEq

/-- `XGroupConsentError`, with the values that its detail quotes. -/
inductive ConsentError where
  | pendingNotFound (pendingId : String)
  | grantNotFound (grantId : String)
  | cannotCosign (status : PendingStatus)
  | cannotRatify (status : PendingStatus)
  | cosignerMissing
  | cannotRevoke (status : GrantStatus)
  | proposerSignature
  | cosignerSignature
  | proposerReverify
  | cosignerReverify
  | revokeSignature
  | notRecoveryKey
  | notPinned
  | windowElapsed
  | bodyExpired
  | grantExpired
  | proposerNotNamed (proposerL2 : String)
  | proposerNotSource
  | cosignerIsProposer
  | cosignerNotTarget
  | recoveryFlagMissing
  | scopeKind (kind : String)
  | scopeValues
  | sameL2
  | badTime (name value : String) (e : TimeError)
  | expiresBeforeIssued
  | ttlExceeded
deriving DecidableEq

def ConsentError.code : ConsentError → ErrorCode
  | pendingNotFound _ | grantNotFound _ => .notFound
  | cannotCosign _ | cannotRatify _ | cosignerMissing | cannotRevoke _ => .conflict
  | proposerSignature | cosignerSignature | proposerReverify | cosignerReverify | revokeSignature
  | notRecoveryKey | notPinned => .invalidSignature
  | windowElapsed | bodyExpired | grantExpired => .expired
  | proposerNotNamed _ | proposerNotSource | cosignerIsProposer | cosignerNotTarget
  | recoveryFlagMissing | scopeKind _ | scopeValues | sameL2 | badTime .. | expiresBeforeIssued
  | ttlExceeded => .badRequest

/-- `_http_for`. -/
def ErrorCode.status : ErrorCode → Nat
  | notFound => 404
  | conflict => 409
  | invalidSignature => 403
  | expired => 410
  | badRequest => 400

/-! ## The builder -/

/-- A day, in microseconds. -/
def day : Int := 86400 * 1000000

/-- `MAX_GRANT_TTL_DAYS`. -/
def maxGrantTtlDays : Int := 90

/-- `COSIGN_WINDOW_DAYS`. -/
def cosignWindowDays : Int := 7

/-- `GRANT_BODY_VERSION`. -/
def grantBodyVersion : String := "v1"

section Builder

variable (parseIso : ParseIso)

/-- `_parse_iso`. -/
def parseTime (value name : String) : Except ConsentError Int :=
  match parseIso value with
  | .ok t => .ok t
  | .error e => .error (.badTime name value e)

/-- `build_grant_body`; `generated` is the id that `uuid4` gives and `random` the nonce that
is drawn, where none is passed. -/
def buildGrantBody (enterpriseId sourceL2 targetL2 scopeKind : String) (scopeValues : List String)
    (issuedAt expiresAt recoveryOperatorPubkey : String) (nonce grantId : Option String)
    (random generated : String) : Except ConsentError GrantBody :=
  if scopeKind ∉ ["domains", "topics", "all"] then .error (.scopeKind scopeKind)
  else if scopeKind ≠ "all" ∧ scopeValues = [] then .error .scopeValues
  else if sourceL2 = targetL2 then .error .sameL2
  else match parseTime parseIso issuedAt "issued_at" with
    | .error e => .error e
    | .ok issued =>
      match parseTime parseIso expiresAt "expires_at" with
      | .error e => .error e
      | .ok expires =>
        if expires ≤ issued then .error .expiresBeforeIssued
        else if expires - issued > maxGrantTtlDays * day then .error .ttlExceeded
        else .ok
          { grantId := pyOr grantId generated
            enterpriseId
            sourceL2
            targetL2
            scope := ⟨scopeKind, scopeValues⟩
            issuedAt
            expiresAt
            nonce := pyOr nonce random
            version := grantBodyVersion
            recoveryOperatorPubkey }

/-- A body that the builder could have produced. -/
def GrantBody.Buildable (body : GrantBody) : Prop :=
  ∃ enterpriseId sourceL2 targetL2 scopeKind scopeValues issuedAt expiresAt recovery nonce grantId
    random generated, random ≠ "" ∧ generated ≠ "" ∧
      buildGrantBody parseIso enterpriseId sourceL2 targetL2 scopeKind scopeValues issuedAt
        expiresAt recovery nonce grantId random generated = .ok body

/-- What the builder sees to, the two L2s apart. -/
structure GrantBody.WellFormed (body : GrantBody) : Prop where
  kind : body.scope.kind ∈ ["domains", "topics", "all"]
  values : body.scope.kind ≠ "all" → body.scope.values ≠ []
  times : ∃ issued expires, parseIso body.issuedAt = .ok issued ∧
    parseIso body.expiresAt = .ok expires ∧ issued < expires ∧
      expires - issued ≤ maxGrantTtlDays * day
  version : body.version = grantBodyVersion
  grantId : body.grantId ≠ ""
  nonce : body.nonce ≠ ""

variable {parseIso}

theorem parseTime_ok_iff {value name : String} {t : Int} :
    parseTime parseIso value name = .ok t ↔ parseIso value = .ok t := by
  unfold parseTime
  cases parseIso value with
  | ok t' => simp
  | error e => simp

theorem pyOr_ne {o : Option String} {s : String} (h : s ≠ "") : pyOr o s ≠ "" := by
  unfold pyOr
  split
  · exact h
  · split
    · exact h
    · assumption

/-- The bodies that the builder could have produced. -/
theorem GrantBody.buildable_iff {body : GrantBody} :
    body.Buildable parseIso ↔ body.WellFormed parseIso ∧ body.sourceL2 ≠ body.targetL2 := by
  constructor
  · rintro ⟨ent, src, tgt, kind, values, issuedAt, expiresAt, recovery, nonce, grantId, random,
      generated, hrandom, hgenerated, h⟩
    unfold buildGrantBody at h
    split at h
    · cases h
    · rename_i hkind
      split at h
      · cases h
      · rename_i hvalues
        split at h
        · cases h
        · rename_i hne
          split at h
          · cases h
          · rename_i issued hissued
            split at h
            · cases h
            · rename_i expires hexpires
              split at h
              · cases h
              · rename_i hafter
                split at h
                · cases h
                · rename_i httl
                  cases h
                  refine ⟨⟨not_not.mp hkind, fun hall hnil => hvalues ⟨hall, hnil⟩, ?_, rfl,
                    pyOr_ne hgenerated, pyOr_ne hrandom⟩, hne⟩
                  exact ⟨issued, expires, parseTime_ok_iff.mp hissued, parseTime_ok_iff.mp hexpires,
                    not_le.mp hafter, not_lt.mp httl⟩
  · rintro ⟨⟨hkind, hvalues, ⟨issued, expires, hissued, hexpires, hafter, httl⟩, hversion, hgrantId,
      hnonce⟩, hne⟩
    refine ⟨body.enterpriseId, body.sourceL2, body.targetL2, body.scope.kind, body.scope.values,
      body.issuedAt, body.expiresAt, body.recoveryOperatorPubkey, some body.nonce,
      some body.grantId, body.nonce, body.grantId, hnonce, hgrantId, ?_⟩
    unfold buildGrantBody
    rw [if_neg (not_not.mpr hkind), if_neg fun h => hvalues h.1 h.2, if_neg hne,
      parseTime_ok_iff.mpr hissued, parseTime_ok_iff.mpr hexpires]
    dsimp only
    rw [if_neg (not_le.mpr hafter), if_neg (not_lt.mpr httl)]
    simp only [pyOr, if_neg hgrantId, if_neg hnonce, ← hversion]

end Builder

/-! ## A codec -/

namespace GrantBody

/-- A body as JSON, its members in the order of their keys. -/
def json (b : GrantBody) : Json :=
  .obj [("enterprise_id", .str b.enterpriseId), ("expires_at", .str b.expiresAt),
    ("grant_id", .str b.grantId), ("issued_at", .str b.issuedAt), ("nonce", .str b.nonce),
    ("recovery_operator_pubkey_b64u", .str b.recoveryOperatorPubkey),
    ("scope", .obj [("kind", .str b.scope.kind), ("values", .arr (b.scope.values.map .str))]),
    ("source_l2", .str b.sourceL2), ("target_l2", .str b.targetL2), ("version", .str b.version)]

/-- A body from such a text. -/
def read (s : List Char) : Option GrantBody := do
  let (enterpriseId, s) ← Json.readMember Json.openObj "enterprise_id" s
  let (expiresAt, s) ← Json.readMember Json.comma "expires_at" s
  let (grantId, s) ← Json.readMember Json.comma "grant_id" s
  let (issuedAt, s) ← Json.readMember Json.comma "issued_at" s
  let (nonce, s) ← Json.readMember Json.comma "nonce" s
  let (recovery, s) ← Json.readMember Json.comma "recovery_operator_pubkey_b64u" s
  let s ← Json.readKey Json.comma "scope" s
  let (kind, s) ← Json.readMember Json.openObj "kind" s
  let s ← Json.readKey Json.comma "values" s
  let (values, s) ← Json.readStrArr s
  let s ← Json.skip [Json.closeObj] s
  let (sourceL2, s) ← Json.readMember Json.comma "source_l2" s
  let (targetL2, s) ← Json.readMember Json.comma "target_l2" s
  let (version, s) ← Json.readMember Json.comma "version" s
  let s ← Json.skip [Json.closeObj] s
  if s = [] then
    some
      { grantId, enterpriseId, sourceL2, targetL2, scope := ⟨kind, values⟩, issuedAt, expiresAt,
        nonce, version, recoveryOperatorPubkey := recovery }
  else none

theorem print_json (b : GrantBody) : Json.print b.json =
    Json.openObj :: (Json.printStr "enterprise_id" ++ Json.colon :: (Json.printStr b.enterpriseId ++
    Json.comma :: (Json.printStr "expires_at" ++ Json.colon :: (Json.printStr b.expiresAt ++
    Json.comma :: (Json.printStr "grant_id" ++ Json.colon :: (Json.printStr b.grantId ++
    Json.comma :: (Json.printStr "issued_at" ++ Json.colon :: (Json.printStr b.issuedAt ++
    Json.comma :: (Json.printStr "nonce" ++ Json.colon :: (Json.printStr b.nonce ++
    Json.comma :: (Json.printStr "recovery_operator_pubkey_b64u" ++
      Json.colon :: (Json.printStr b.recoveryOperatorPubkey ++
    Json.comma :: (Json.printStr "scope" ++ Json.colon ::
    Json.openObj :: (Json.printStr "kind" ++ Json.colon :: (Json.printStr b.scope.kind ++
    Json.comma :: (Json.printStr "values" ++ Json.colon ::
      (Json.print (.arr (b.scope.values.map .str)) ++ Json.closeObj ::
    Json.comma :: (Json.printStr "source_l2" ++ Json.colon :: (Json.printStr b.sourceL2 ++
    Json.comma :: (Json.printStr "target_l2" ++ Json.colon :: (Json.printStr b.targetL2 ++
    Json.comma :: (Json.printStr "version" ++ Json.colon :: (Json.printStr b.version ++
    [Json.closeObj]))))))))))))))))))))))) := by
  simp only [json, Json.print, Json.printMembers, List.cons_append, List.append_assoc,
    List.nil_append]

/-- What is written is read back. -/
theorem read_print (b : GrantBody) : read (Json.print b.json) = some b := by
  rw [print_json]
  unfold read
  have hmember := @Json.readMember_print
  refine Option.bind_eq_some_iff.mpr ⟨_, hmember .., ?_⟩
  refine Option.bind_eq_some_iff.mpr ⟨_, hmember .., ?_⟩
  refine Option.bind_eq_some_iff.mpr ⟨_, hmember .., ?_⟩
  refine Option.bind_eq_some_iff.mpr ⟨_, hmember .., ?_⟩
  refine Option.bind_eq_some_iff.mpr ⟨_, hmember .., ?_⟩
  refine Option.bind_eq_some_iff.mpr ⟨_, hmember .., ?_⟩
  refine Option.bind_eq_some_iff.mpr ⟨_, Json.readKey_print .., ?_⟩
  refine Option.bind_eq_some_iff.mpr ⟨_, hmember .., ?_⟩
  refine Option.bind_eq_some_iff.mpr ⟨_, Json.readKey_print .., ?_⟩
  refine Option.bind_eq_some_iff.mpr ⟨_, Json.readStrArr_print .., ?_⟩
  refine Option.bind_eq_some_iff.mpr ⟨_, Json.skip_append [Json.closeObj] _, ?_⟩
  refine Option.bind_eq_some_iff.mpr ⟨_, hmember .., ?_⟩
  refine Option.bind_eq_some_iff.mpr ⟨_, hmember .., ?_⟩
  refine Option.bind_eq_some_iff.mpr ⟨_, hmember .., ?_⟩
  refine Option.bind_eq_some_iff.mpr ⟨_, Json.skip_append [Json.closeObj] _, ?_⟩
  rfl

end GrantBody

/-- A codec for closed examples. It writes what `rfc8785` writes for ASCII texts. -/
def sampleCodec : GrantCodec where
  canonical b := String.ofList (Json.print b.json)
  loads s := GrantBody.read s.toList
  revocation e := Json.dumps (.obj [("grant_id", .str e.grantId), ("reason", .str e.reason),
    ("revoke_ts", .str e.revokeTs), ("revoker_l2", .str e.revokerL2)])
  loads_canonical b := by
    rw [String.toList_ofList]
    exact b.read_print

end EighthLayer.Consent
