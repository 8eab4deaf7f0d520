import EighthLayer.Aigrp.PairSecret
import EighthLayer.Lib.Canonical

/-!
# EighthLayer.Aigrp.Identity

The two gates of `aigrp/_legacy.py`: `require_peer_key`, which admits a caller to
`/aigrp/*`, and `require_forwarder_identity`, which binds a forwarded request to
the L2 it names, by signature where that L2 has a key on file.
-/

namespace EighthLayer.Aigrp

open Lib

/-! ## Requests -/

/-- The headers of a request; their names are in lower case. -/
structure Request where
  headers : List (String × String)
deriving DecidableEq

/-- `request.headers.get(name, "")`. -/
def Request.header (r : Request) (name : String) : String := (r.headers.lookup name).getD ""

theorem header_cons_self (name value : String) (rest : List (String × String)) :
    Request.header ⟨(name, value) :: rest⟩ name = value := by
  rw [Request.header, List.lookup_cons_self, Option.getD_some]

theorem header_cons_of_ne {name name' : String} (hne : name ≠ name') (value : String)
    (rest : List (String × String)) :
    Request.header ⟨(name', value) :: rest⟩ name = Request.header ⟨rest⟩ name := by
  rw [Request.header, List.lookup_cons, beq_eq_false_iff_ne.mpr hne]
  rfl

/-- The characters `str.strip` removes. -/
def isSpace (c : Char) : Bool :=
  let n := c.toNat
  (9 ≤ n && n ≤ 13) || (28 ≤ n && n ≤ 32) || n = 0x85 || n = 0xA0 || n = 0x1680 ||
    (0x2000 ≤ n && n ≤ 0x200A) || n = 0x2028 || n = 0x2029 || n = 0x202F || n = 0x205F || n = 0x3000

/-- `s.strip()`. -/
def strip (s : String) : String :=
  String.ofList ((s.toList.dropWhile isSpace).reverse.dropWhile isSpace).reverse

/-- A text without spaces is its own strip. -/
theorem strip_of_no_space {s : String} (h : s.toList.all (fun c => !isSpace c) = true) :
    strip s = s := by
  have hdrop : ∀ {l : List Char}, l.all (fun c => !isSpace c) = true →
      l.dropWhile isSpace = l := by
    intro l hl
    cases l with
    | nil => rfl
    | cons c l =>
        rw [List.all_cons, Bool.and_eq_true, Bool.not_eq_true'] at hl
        rw [List.dropWhile_cons, hl.1]
        rfl
  unfold strip
  rw [hdrop h, hdrop (by rwa [List.all_reverse]), List.reverse_reverse, String.ofList_toList]

/-- base64url text is its own strip. -/
theorem strip_b64u (b : Bytes) : strip (b64u b) = b64u b := by
  refine strip_of_no_space ?_
  rw [b64u, String.toList_ofList]
  exact b64Encode_all (by decide) b

/-- What follows a prefix, when `s.startswith` it. -/
def afterPrefix (p s : String) : Option String :=
  if p.toList.isPrefixOf s.toList then some (String.ofList (s.toList.drop p.toList.length))
  else none

theorem afterPrefix_append (p s : String) : afterPrefix p (p ++ s) = some s := by
  unfold afterPrefix
  rw [String.toList_append, if_pos (List.isPrefixOf_iff_prefix.mpr (List.prefix_append _ _)),
    List.drop_left, String.ofList_toList]

/-- The first part of `l2_id.partition("/")`, when the separator is there. -/
def enterpriseOf (l2Id : String) : Option String :=
  if '/' ∈ l2Id.toList then some (String.ofList (l2Id.toList.takeWhile (· ≠ '/'))) else none

/-- `FORWARDER_HEADER`. -/
def forwarderHeader : String := "x-8l-forwarder-l2-id"

/-- `forward_sign.SIGNATURE_HEADER`. -/
def signatureHeader : String := "x-8l-forwarder-sig"

/-- Why a request is refused, with the values the detail quotes. -/
inductive Refusal where
  | missingPeerKey
  | invalidPeerKey
  | notConfigured
  | missingForwarder
  | identityMismatch (header body : String)
  | malformedForwarder (declared : String)
  | crossEnterprise (declared receiver : String)
  | missingSignature (declared : String)
  | badSignature (declared : String)
  | noKeyOnFile (declared : String)
  /-- A hello or announce for another Enterprise. -/
  | foreignEnterprise (own got : String)
  /-- An exception that is not an `HTTPException`. -/
  | internalError
deriving DecidableEq

/-- The HTTP status of a refusal. -/
def Refusal.status : Refusal → Nat
  | missingPeerKey | invalidPeerKey => 401
  | notConfigured => 503
  | missingForwarder | malformedForwarder _ => 400
  | identityMismatch .. | crossEnterprise .. | missingSignature _ | badSignature _
  | noKeyOnFile _ | foreignEnterprise .. => 403
  | internalError => 500

/-! ## The peer key -/

/-- How a caller was admitted. -/
inductive Admission where
  /-- By the secret of the pair this L2 forms with the declared peer. -/
  | pairSecret (peer : String)
  /-- By the shared key, which names nobody. -/
  | sharedKey
deriving DecidableEq

/-- Whether the declared forwarder takes the pair-secret mode: another L2 of this
Enterprise. -/
def pairSecretApplies (env : Environ) (declared : String) : Bool :=
  declared ≠ "" && enterpriseOf declared = some (enterprise env) && declared ≠ selfL2Id env

/-- The legacy mode of `require_peer_key`. -/
def requireSharedKey (env : Environ) (declared presented : String) : Except Refusal Admission :=
  let legacy := env.get "CQ_AIGRP_PEER_KEY" ""
  if legacy ≠ "" then
    if presented = legacy then .ok .sharedKey else .error .invalidPeerKey
  else if declared ≠ "" then .error .invalidPeerKey
  else .error .notConfigured

/-- `require_peer_key`; the result says which mode admitted the caller. -/
def requirePeerKey (env : Environ) (root : Option Bytes) (request : Request) :
    Except Refusal Admission :=
  match afterPrefix "Bearer " (request.header "authorization") with
  | none => .error .missingPeerKey
  | some presented =>
    let declared := strip (request.header forwarderHeader)
    if pairSecretApplies env declared then
      match verifyBearerAgainstPeer env root declared presented with
      | none => .error .internalError
      | some true => .ok (.pairSecret declared)
      | some false => requireSharedKey env declared presented
    else requireSharedKey env declared presented

/-- Only the two headers count. -/
theorem requirePeerKey_congr {env : Environ} {root : Option Bytes} {r r' : Request}
    (hauth : r.header "authorization" = r'.header "authorization")
    (hforwarder : r.header forwarderHeader = r'.header forwarderHeader) :
    requirePeerKey env root r = requirePeerKey env root r' := by
  unfold requirePeerKey
  rw [hauth, hforwarder]

/-- A caller admitted by a pair secret is the L2 its header declares, holds that
secret, and belongs to this Enterprise. -/
theorem requirePeerKey_pairSecret {env : Environ} {root : Option Bytes} {request : Request}
    {peer : String} (h : requirePeerKey env root request = .ok (.pairSecret peer)) :
    peer = strip (request.header forwarderHeader) ∧ pairSecretApplies env peer = true ∧
      ∃ secret, pairSecretForPeer env root peer = some secret ∧
        afterPrefix "Bearer " (request.header "authorization") = some (bearerForSecret secret) := by
  have hshared : ∀ declared presented,
      requireSharedKey env declared presented ≠ .ok (.pairSecret peer) := by
    intro declared presented hkey
    unfold requireSharedKey at hkey
    dsimp only at hkey
    split at hkey
    · split at hkey <;> cases hkey
    · split at hkey <;> cases hkey
  unfold requirePeerKey at h
  split at h
  · cases h
  · next presented hauth =>
      dsimp only at h
      split at h
      · next happlies =>
          split at h
          · cases h
          · next hverify =>
              cases h
              refine ⟨rfl, happlies, ?_⟩
              unfold verifyBearerAgainstPeer at hverify
              split at hverify
              · cases hverify
              · split at hverify
                · cases hverify
                · next secret hsecret =>
                    split at hverify
                    · have heq := of_decide_eq_true (Option.some.inj hverify)
                      exact ⟨secret, hsecret, by rw [heq]; exact hauth⟩
                    · cases hverify
          · exact absurd h (hshared _ _)
      · exact absurd h (hshared _ _)

/-- **Siblings are admitted.** A sibling that sends the token it derives for this L2
under its own id is admitted as itself. -/
theorem requirePeerKey_sibling {env env' : Environ} {root : Option Bytes} {token : String}
    {request : Request} (htoken : deriveBearerToken env root (selfL2Id env') = some token)
    (happlies : pairSecretApplies env' (selfL2Id env) = true)
    (hdeclared : strip (request.header forwarderHeader) = selfL2Id env)
    (hauth : afterPrefix "Bearer " (request.header "authorization") = some token) :
    requirePeerKey env' root request = .ok (.pairSecret (selfL2Id env)) := by
  unfold requirePeerKey
  simp only [hauth, hdeclared, happlies, if_true, verifyBearer_deriveBearer htoken]

/-! ## Forward signatures -/

variable (sch : SignatureScheme)

/-- `rfc8785.dumps`, which the module takes from outside; `none` when it raises. -/
abbrev Canonicalize := Json → Option Bytes

/-- Canonicalization for closed examples, whose values have ASCII keys and no floats. -/
def sampleCanonicalize : Canonicalize := fun j => some (utf8 (Json.dumps j))

/-- `signing_input_for`. -/
def signingInputFor (canonicalize : Canonicalize) (body : Json) (forwarder : String) :
    Option Bytes :=
  (canonicalize body).map (· ++ utf8 forwarder)

/-- `sign_forward_request`, for an L2 whose private key is on disk. -/
def signForwardRequest (canonicalize : Canonicalize) (privkey : sch.PrivKey) (body : Json)
    (forwarder : String) : Option String :=
  (signingInputFor canonicalize body forwarder).map (signRaw sch privkey)

/-- `verify_forward_signature`; `none` when the body cannot be canonicalized. -/
def verifyForwardSignature (canonicalize : Canonicalize) (pubkey : String) (body : Json)
    (forwarder signature : String) : Option Bool :=
  (signingInputFor canonicalize body forwarder).map fun m => verifyRaw sch pubkey m signature

/-- **The signing input is unambiguous.** Though nothing stands between the body and the
id, equal inputs have equal canonical bodies and equal ids. -/
theorem signingInputFor_inj {number : NumText → Option NumText} {canonicalize : Canonicalize}
    (hcanonical : Canonicalizes number canonicalize) {body body' : List (String × Json)}
    {forwarder forwarder' : String} {input : Bytes}
    (h : signingInputFor canonicalize (.obj body) forwarder = some input)
    (h' : signingInputFor canonicalize (.obj body') forwarder' = some input) :
    canonicalize (.obj body) = canonicalize (.obj body') ∧
      Json.Same number (.obj body) (.obj body') ∧ forwarder = forwarder' := by
  obtain ⟨bytes, hbytes, rfl⟩ := Option.map_eq_some_iff.mp h
  obtain ⟨bytes', hbytes', happ⟩ := Option.map_eq_some_iff.mp h'
  obtain ⟨rfl, rfl⟩ := hcanonical.prefix_free hbytes' hbytes happ
  exact ⟨hbytes.trans hbytes'.symm, hcanonical.same hbytes hbytes', rfl⟩

/-- One body with its members in two orders, under one id. -/
theorem signingInputFor_inj_reordered :
    sampleCanonicalize (.obj [("query", .str "q"), ("from_l2_id", .str "acme/eng")]) =
        sampleCanonicalize (.obj [("from_l2_id", .str "acme/eng"), ("query", .str "q")]) ∧
      Json.Same some (.obj [("query", .str "q"), ("from_l2_id", .str "acme/eng")])
        (.obj [("from_l2_id", .str "acme/eng"), ("query", .str "q")]) ∧ "acme/eng" = "acme/eng" :=
  signingInputFor_inj canonicalizes_dumps rfl (by decide +kernel)

theorem verifyForward_signForward {canonicalize : Canonicalize} {privkey : sch.PrivKey}
    {body : Json} {forwarder signature : String}
    (hsign : signForwardRequest sch canonicalize privkey body forwarder = some signature) :
    verifyForwardSignature sch canonicalize (publicKeyB64u sch privkey) body forwarder signature =
      some true := by
  obtain ⟨m, hm, rfl⟩ := Option.map_eq_some_iff.mp hsign
  simp only [verifyForwardSignature, hm, Option.map_some, verifyRaw_signRaw]

/-- `require_signed_forwards`: `CQ_REQUIRE_SIGNED_FORWARDS` is `true`, in any case. -/
def requireSignedForwards (env : Environ) : Bool :=
  (env.get "CQ_REQUIRE_SIGNED_FORWARDS" "false").toList.map Char.toLower = "true".toList

/-- The signature part of `require_forwarder_identity`: `peerPubkey` is the key on file,
`none` also when the lookup raised. -/
def requireForwardSignature (env : Environ) (canonicalize : Canonicalize) (request : Request)
    (declared : String) (body : Json) (peerPubkey : Option String) : Except Refusal Unit :=
  if truthy peerPubkey then
    let sig := strip (request.header signatureHeader)
    if sig = "" then .error (.missingSignature declared)
    else match verifyForwardSignature sch canonicalize (peerPubkey.getD "") body declared sig with
      | none => .error .internalError
      | some false => .error (.badSignature declared)
      | some true => .ok ()
  else if requireSignedForwards env then .error (.noKeyOnFile declared)
  else .ok ()

/-- `require_forwarder_identity`, with the parsed body and the store given:
`pubkeyOf` is `get_aigrp_peer_pubkey`. -/
def requireForwarderIdentity (env : Environ) (canonicalize : Canonicalize)
    (pubkeyOf : String → Option String) (sameEnterpriseOnly : Bool) (request : Request)
    (claimed : String) (body : Json) : Except Refusal String :=
  let declared := strip (request.header forwarderHeader)
  if declared = "" then .error .missingForwarder
  else if declared ≠ claimed then .error (.identityMismatch declared claimed)
  else match enterpriseOf declared with
    | none => .error (.malformedForwarder declared)
    | some ent =>
      if ent = "" then .error (.malformedForwarder declared)
      else if sameEnterpriseOnly && ent ≠ enterprise env then
        .error (.crossEnterprise declared (enterprise env))
      else match requireForwardSignature sch env canonicalize request declared body
          (pubkeyOf declared) with
        | .error e => .error e
        | .ok () => .ok declared

/-- An accepted forwarder is the one its header declares and its body claims; where
its key is on file, the request carries a signature under that key. -/
theorem requireForwarderIdentity_ok {env : Environ} {canonicalize : Canonicalize}
    {pubkeyOf : String → Option String} {sameEnterpriseOnly : Bool} {request : Request}
    {claimed : String} {body : Json} {declared : String}
    (h : requireForwarderIdentity sch env canonicalize pubkeyOf sameEnterpriseOnly request claimed
      body = .ok declared) :
    declared = claimed ∧ declared = strip (request.header forwarderHeader) ∧
      ∀ key, pubkeyOf declared = some key → key ≠ "" →
        verifyForwardSignature sch canonicalize key body declared
          (strip (request.header signatureHeader)) = some true := by
  unfold requireForwarderIdentity at h
  dsimp only at h
  split at h
  · cases h
  · split at h
    · cases h
    · next hclaimed =>
        split at h
        · cases h
        · split at h
          · cases h
          · split at h
            · cases h
            · split at h
              · cases h
              · next hsig =>
                  cases h
                  refine ⟨not_not.mp hclaimed, rfl, fun key hkey hne => ?_⟩
                  unfold requireForwardSignature at hsig
                  rw [hkey, if_pos (by simpa [truthy] using hne)] at hsig
                  dsimp only at hsig
                  split at hsig
                  · cases hsig
                  · split at hsig
                    · cases hsig
                    · cases hsig
                    · next hverify => exact hverify

/-- Where only this Enterprise may forward, an accepted forwarder belongs to it. -/
theorem requireForwarderIdentity_enterprise {env : Environ} {canonicalize : Canonicalize}
    {pubkeyOf : String → Option String} {request : Request} {claimed : String} {body : Json}
    {declared : String}
    (h : requireForwarderIdentity sch env canonicalize pubkeyOf true request claimed body =
      .ok declared) : enterpriseOf claimed = some (enterprise env) := by
  unfold requireForwarderIdentity at h
  dsimp only at h
  split at h
  · cases h
  · split at h
    · cases h
    · next hclaimed =>
        rw [not_not.mp hclaimed] at h
        split at h
        · cases h
        · next ent hent =>
            split at h
            · cases h
            · split at h
              · cases h
              · next hcross =>
                  rw [hent]
                  simpa using hcross

/-- **Signed forwards are accepted.** A request signed with the key whose public half is
on file for the declared L2 is accepted as that L2's. -/
theorem requireForwarderIdentity_signed {env : Environ} {canonicalize : Canonicalize}
    {pubkeyOf : String → Option String} {sameEnterpriseOnly : Bool} {request : Request}
    {claimed ent signature : String} {body : Json} {privkey : sch.PrivKey}
    (hdeclared : strip (request.header forwarderHeader) = claimed) (hne : claimed ≠ "")
    (hent : enterpriseOf claimed = some ent) (hentne : ent ≠ "")
    (hsame : sameEnterpriseOnly = true → ent = enterprise env)
    (hkey : pubkeyOf claimed = some (publicKeyB64u sch privkey))
    (hkeyne : publicKeyB64u sch privkey ≠ "")
    (hsign : signForwardRequest sch canonicalize privkey body claimed = some signature)
    (hsigne : signature ≠ "") (hheader : strip (request.header signatureHeader) = signature) :
    requireForwarderIdentity sch env canonicalize pubkeyOf sameEnterpriseOnly request claimed body =
      .ok claimed := by
  have hverify := verifyForward_signForward sch hsign
  have hsig : requireForwardSignature sch env canonicalize request claimed body
      (pubkeyOf claimed) = .ok () := by
    unfold requireForwardSignature
    rw [hkey, if_pos (by simpa [truthy] using hkeyne)]
    simp only [hheader, if_neg hsigne, Option.getD_some, hverify]
  have hcross : ¬ (sameEnterpriseOnly && decide (ent ≠ enterprise env)) = true := by
    rw [Bool.and_eq_true, decide_eq_true_eq]
    exact fun h => h.2 (hsame h.1)
  unfold requireForwarderIdentity
  simp only [hdeclared, if_neg hne, ne_eq, not_true_eq_false, if_false, hent, if_neg hentne, hsig]
  exact if_neg hcross

end EighthLayer.Aigrp
