import EighthLayer.Aigrp.Peers
import Mathlib.Data.List.Nodup

/-!
# EighthLayer.Aigrp.ForwardQuery

`/aigrp/forward-query`: another L2 asks this one for knowledge units. Candidates
come from a similarity scan of the whole store; each is disclosed in full, in
summary or not at all, by the tenancy the request declares, the tenancy of the
unit and one consent record.

Floats and the vector arithmetic of the scan are parameters (`Numeric`).
-/

namespace EighthLayer.Aigrp

open Lib

/-! ## The store -/

/-- Floats, and what `numpy` computes with them. -/
structure Numeric where
  Float : Type
  /-- Whether the query has norm zero. -/
  isZero : List Float → Bool
  /-- The cosine of the query and a stored embedding; `none` when the embedding is empty
  or has norm zero. -/
  similarity : List Float → Bytes → Option Float
  le : Float → Float → Bool
  /-- A float as JSON. -/
  json : Float → Json

variable {N : Numeric}

/-- The fields of a `KnowledgeUnit` that leave the L2. -/
structure KnowledgeUnit (N : Numeric) where
  id : String
  domains : List String
  summary : String
  detail : String
  action : String
  confidence : N.Float

/-- A row of `knowledge_units`, its `data` parsed. -/
structure UnitRow (N : Numeric) where
  unit : KnowledgeUnit N
  embedding : Option Bytes
  enterpriseId : Option String
  groupId : Option String
  crossGroupAllowed : Option Int
  status : String

/-- The Enterprise and group that own a unit, with the defaults of the scan. -/
def UnitRow.owner (u : UnitRow N) : String × String :=
  (pyOr u.enterpriseId "default-enterprise", pyOr u.groupId "default-group")

/-- A row of `cross_enterprise_consents`. -/
structure ConsentRow where
  consentId : String
  requesterEnterprise : String
  responderEnterprise : String
  requesterGroup : Option String
  responderGroup : Option String
  policy : String
  signedByAdmin : String
  signedAt : String
  expiresAt : Option String
  auditLogId : String
deriving DecidableEq

/-- `expires_at IS NULL OR expires_at > :now`. Revoking sets `expires_at` to the time
of the revocation. -/
def ConsentRow.active (c : ConsentRow) (now : String) : Bool :=
  match c.expiresAt with
  | none => true
  | some e => now < e

/-- What the route reads; the unit id is the primary key of its table. -/
structure Store (N : Numeric) where
  peers : PeerTable
  consents : List ConsentRow
  units : List (UnitRow N)
  nodup : (units.map fun u => u.unit.id).Nodup

/-- A candidate of the scan. -/
structure RawHit (N : Numeric) where
  unit : KnowledgeUnit N
  similarity : N.Float
  enterpriseId : String
  groupId : String
  crossGroupAllowed : Bool

/-- A row as a candidate, when it has a similarity to the query. -/
def UnitRow.score (u : UnitRow N) (queryVec : List N.Float) : Option (RawHit N) :=
  (u.embedding.bind (N.similarity queryVec)).map fun similarity =>
    { unit := u.unit
      similarity
      enterpriseId := u.owner.1
      groupId := u.owner.2
      crossGroupAllowed := u.crossGroupAllowed.getD 0 ≠ 0 }

/-- `semantic_query_with_scope`: the scan covers every tenant of the store. -/
def semanticQueryWithScope (units : List (UnitRow N)) (queryVec : List N.Float) (limit : Nat)
    (status : String) : List (RawHit N) :=
  if N.isZero queryVec then []
  else
    (((units.filter fun u => u.status = status).filterMap fun u => u.score queryVec).mergeSort
      fun a b => N.le b.similarity a.similarity).take limit

/-! ## Consent lookup -/

/-- The rows `find_cross_enterprise_consent` considers. -/
def ConsentRow.admits (c : ConsentRow) (requesterEnterprise responderEnterprise : String)
    (requesterGroup responderGroup : Option String) (now : String) : Bool :=
  c.requesterEnterprise = requesterEnterprise && c.responderEnterprise = responderEnterprise &&
    c.active now && (c.requesterGroup = none || c.requesterGroup = requesterGroup) &&
    (c.responderGroup = none || c.responderGroup = responderGroup)

/-- `_score`: a named group beats a wildcard. -/
def ConsentRow.score (c : ConsentRow) (requesterGroup responderGroup : Option String) : Nat :=
  (if c.requesterGroup = requesterGroup ∧ c.requesterGroup ≠ none then 2 else 0) +
    (if c.responderGroup = responderGroup ∧ c.responderGroup ≠ none then 2 else 0) +
    (if c.requesterGroup = none then 1 else 0) + (if c.responderGroup = none then 1 else 0)

/-- The loop over the rows: the first of the highest score. -/
def bestConsent (score : ConsentRow → Nat) :
    Option ConsentRow → List ConsentRow → Option ConsentRow
  | best, [] => best
  | none, c :: rest => bestConsent score (some c) rest
  | some b, c :: rest => bestConsent score (some (if score b < score c then c else b)) rest

/-- `find_cross_enterprise_consent`. -/
def findCrossEnterpriseConsent (consents : List ConsentRow)
    (requesterEnterprise responderEnterprise : String)
    (requesterGroup responderGroup : Option String) (now : String) : Option ConsentRow :=
  bestConsent (fun c => c.score requesterGroup responderGroup) none
    (consents.filter fun c =>
      c.admits requesterEnterprise responderEnterprise requesterGroup responderGroup now)

/-- The best of some rows is one of them. -/
theorem bestConsent_mem {score : ConsentRow → Nat} : ∀ {best : Option ConsentRow}
    {rows : List ConsentRow} {c : ConsentRow}, bestConsent score best rows = some c →
    best = some c ∨ c ∈ rows
  | best, [], c, h => by
      rw [bestConsent] at h
      exact .inl h
  | none, b :: rest, c, h => by
      have hrest : bestConsent score (some b) rest = some c := h
      rcases bestConsent_mem hrest with hb | hc
      · rw [Option.some.inj hb]
        exact .inr List.mem_cons_self
      · exact .inr (List.mem_cons_of_mem _ hc)
  | some b, b' :: rest, c, h => by
      have hrest : bestConsent score (some (if score b < score b' then b' else b)) rest = some c := h
      rcases bestConsent_mem hrest with hb | hc
      · split at hb
        · rw [Option.some.inj hb]
          exact .inr List.mem_cons_self
        · exact .inl hb
      · exact .inr (List.mem_cons_of_mem _ hc)

theorem bestConsent_some {score : ConsentRow → Nat} : ∀ (rows : List ConsentRow) (b : ConsentRow),
    bestConsent score (some b) rows ≠ none
  | [], b => Option.some_ne_none b
  | c :: rest, b => bestConsent_some rest (if score b < score c then c else b)

section Consent

variable {consents : List ConsentRow} {reqEnt respEnt now : String} {reqGrp respGrp : Option String}

/-- The row found is one that admits the request. -/
theorem findConsent_some {c : ConsentRow}
    (h : findCrossEnterpriseConsent consents reqEnt respEnt reqGrp respGrp now = some c) :
    c ∈ consents ∧ c.admits reqEnt respEnt reqGrp respGrp now = true := by
  rcases bestConsent_mem h with hnone | hmem
  · cases hnone
  · exact List.mem_filter.mp hmem

/-- No row is found only when none admits the request. -/
theorem findConsent_none_iff :
    findCrossEnterpriseConsent consents reqEnt respEnt reqGrp respGrp now = none ↔
      ∀ c ∈ consents, c.admits reqEnt respEnt reqGrp respGrp now = false := by
  unfold findCrossEnterpriseConsent
  constructor
  · intro h c hc
    cases hrows : consents.filter fun c => c.admits reqEnt respEnt reqGrp respGrp now with
    | nil =>
        have hnot := List.filter_eq_nil_iff.mp hrows c hc
        exact Bool.eq_false_of_not_eq_true hnot
    | cons b rest =>
        rw [hrows] at h
        exact absurd h (bestConsent_some rest b)
  · intro h
    have hrows : (consents.filter fun c => c.admits reqEnt respEnt reqGrp respGrp now) = [] :=
      List.filter_eq_nil_iff.mpr fun c hc => by simp [h c hc]
    rw [hrows]
    rfl

end Consent

/-! ## Policy -/

/-- A sharing policy. -/
inductive Policy where
  | fullBody
  | summaryOnly
  | denied
deriving DecidableEq

/-- The policy as the source writes it. -/
def Policy.text : Policy → String
  | fullBody => "full_body"
  | summaryOnly => "summary_only"
  | denied => "denied"

/-- `_decide_policy_for_ku`, its first component. The responder's own tenancy is passed
and not used. -/
def decidePolicyForKu (kuEnterprise kuGroup : String) (kuCrossGroupAllowed : Bool)
    (requesterEnterprise requesterGroup _responderEnterprise _responderGroup : String)
    (crossEnterpriseConsent : Option ConsentRow) : Policy :=
  if requesterEnterprise = kuEnterprise then
    if requesterGroup = kuGroup then .fullBody
    else if kuCrossGroupAllowed then .fullBody
    else .summaryOnly
  else match crossEnterpriseConsent with
    | none => .denied
    | some c => if c.policy = "full_body" then .fullBody else .summaryOnly

/-- The redacted fields that go with a policy. -/
def Policy.redacted : Policy → List String
  | summaryOnly => ["detail", "action"]
  | _ => []

/-- `AigrpForwardQueryHit`. -/
structure ForwardHit (N : Numeric) where
  kuId : String
  summary : String
  detail : Option String
  action : Option String
  domains : List String
  simScore : N.Float
  confidence : N.Float
  redactedFields : List String

/-- A candidate as it is returned under a policy that is not `denied`. -/
def RawHit.disclose (h : RawHit N) (policy : Policy) : ForwardHit N where
  kuId := h.unit.id
  summary := h.unit.summary
  detail := if policy = .fullBody then some h.unit.detail else none
  action := if policy = .fullBody then some h.unit.action else none
  domains := h.unit.domains
  simScore := h.similarity
  confidence := h.unit.confidence
  redactedFields := policy.redacted

/-- The loop over the candidates: `results` and `response_policy` so far. It ends early
once there are `maxResults` results. -/
def collect (policyOf : RawHit N → Policy) (maxResults : Nat) :
    List (RawHit N) → List (ForwardHit N) → Policy → List (ForwardHit N) × Policy
  | [], results, response => (results, response)
  | h :: rest, results, response =>
    match policyOf h with
    | .denied => collect policyOf maxResults rest results response
    | .summaryOnly =>
      let results := results ++ [h.disclose .summaryOnly]
      if maxResults ≤ results.length then (results, .summaryOnly)
      else collect policyOf maxResults rest results .summaryOnly
    | .fullBody =>
      let results := results ++ [h.disclose .fullBody]
      if maxResults ≤ results.length then (results, response)
      else collect policyOf maxResults rest results response

/-- **The loop.** It returns the first `maxResults` candidates that are not denied, each
under its own policy. -/
theorem collect_results (policyOf : RawHit N → Policy) {maxResults : Nat} :
    ∀ (hits : List (RawHit N)) (results : List (ForwardHit N)) (response : Policy),
    results.length < maxResults →
    (collect policyOf maxResults hits results response).1 =
      results ++ ((hits.filter fun h => policyOf h ≠ .denied).take
        (maxResults - results.length)).map fun h => h.disclose (policyOf h)
  | [], results, response, _ => by simp [collect]
  | h :: rest, results, response, hlen => by
      have hstep : maxResults - results.length = (maxResults - (results.length + 1)) + 1 := by omega
      -- a candidate that is not denied is appended, and ends the loop or not
      have keep : ∀ response', policyOf h ≠ .denied →
          (if maxResults ≤ (results ++ [h.disclose (policyOf h)]).length then
            (results ++ [h.disclose (policyOf h)], response')
          else collect policyOf maxResults rest (results ++ [h.disclose (policyOf h)])
            response').1 =
          results ++ (((h :: rest).filter fun h => policyOf h ≠ .denied).take
            (maxResults - results.length)).map fun h => h.disclose (policyOf h) := by
        intro response' hne
        rw [List.filter_cons_of_pos (by simp [hne]), hstep, List.take_succ_cons, List.map_cons,
          List.length_append, List.length_singleton]
        split
        · next hfull => rw [Nat.sub_eq_zero_of_le hfull, List.take_zero, List.map_nil]
        · next hmore =>
            rw [collect_results policyOf rest _ _ (by simp; omega), List.append_assoc,
              List.length_append, List.length_singleton]
            rfl
      rw [collect]
      cases hpol : policyOf h with
      | denied =>
          rw [List.filter_cons_of_neg (by simp [hpol])]
          exact collect_results policyOf rest results response hlen
      | summaryOnly =>
          rw [hpol] at keep
          exact keep .summaryOnly (by decide)
      | fullBody =>
          rw [hpol] at keep
          exact keep response (by decide)

/-! ## The route -/

/-- `AigrpForwardQueryRequest`. -/
structure ForwardQueryRequest (N : Numeric) where
  queryVec : List N.Float
  queryText : String
  requesterL2Id : String
  requesterEnterprise : String
  requesterGroup : String
  requesterPersona : String
  maxResults : Nat
  queryVec_ne : queryVec ≠ []
  requesterL2Id_ne : requesterL2Id ≠ ""
  requesterEnterprise_ne : requesterEnterprise ≠ ""
  requesterGroup_ne : requesterGroup ≠ ""
  maxResults_pos : 0 < maxResults
  maxResults_le : maxResults ≤ 20

/-- `body.model_dump(mode="json")`. -/
def ForwardQueryRequest.dump (body : ForwardQueryRequest N) : Json :=
  .obj [("query_vec", .arr (body.queryVec.map N.json)), ("query_text", .str body.queryText),
    ("requester_l2_id", .str body.requesterL2Id),
    ("requester_enterprise", .str body.requesterEnterprise),
    ("requester_group", .str body.requesterGroup),
    ("requester_persona", .str body.requesterPersona),
    ("max_results", .ofNat body.maxResults)]

/-- `AigrpForwardQueryResponse`; the result count is the length of the list. -/
structure ForwardQueryResponse (N : Numeric) where
  responderL2Id : String
  responderEnterprise : String
  responderGroup : String
  policyApplied : Policy
  results : List (ForwardHit N)

/-- The row of `cross_l2_audit` a request leaves. -/
structure AuditRow where
  requesterL2Id : String
  requesterEnterprise : String
  requesterGroup : String
  requesterPersona : Option String
  responderL2Id : String
  responderEnterprise : String
  responderGroup : String
  policyApplied : String
  resultCount : Nat
  consentId : Option String

/-- What a request returns and records. -/
structure ForwardOutcome (N : Numeric) where
  response : ForwardQueryResponse N
  audit : AuditRow

/-- The response and the audit row for some results under some consent. -/
def forwardOutcome (env : Environ) (body : ForwardQueryRequest N) (results : List (ForwardHit N))
    (policy : Policy) (consent : Option ConsentRow) : ForwardOutcome N where
  response :=
    { responderL2Id := selfL2Id env
      responderEnterprise := enterprise env
      responderGroup := group env
      policyApplied := policy
      results := results }
  audit :=
    { requesterL2Id := body.requesterL2Id
      requesterEnterprise := body.requesterEnterprise
      requesterGroup := body.requesterGroup
      requesterPersona := if body.requesterPersona = "" then none else some body.requesterPersona
      responderL2Id := selfL2Id env
      responderEnterprise := enterprise env
      responderGroup := group env
      policyApplied := policy.text
      resultCount := results.length
      consentId := consent.map ConsentRow.consentId }

/-- The consent the route looks up: for its own Enterprise and group, and only when the
request declares another Enterprise. -/
def consentFor (env : Environ) (store : Store N) (now : String) (body : ForwardQueryRequest N) :
    Option ConsentRow :=
  if body.requesterEnterprise ≠ enterprise env then
    findCrossEnterpriseConsent store.consents body.requesterEnterprise (enterprise env)
      (some body.requesterGroup) (some (group env)) now
  else none

/-- The candidates of a request. -/
def rawHits (store : Store N) (body : ForwardQueryRequest N) : List (RawHit N) :=
  semanticQueryWithScope store.units body.queryVec (body.maxResults * 3) "approved"

/-- The policy of a request for a candidate. -/
def policyFor (env : Environ) (body : ForwardQueryRequest N) (consent : Option ConsentRow)
    (h : RawHit N) : Policy :=
  decidePolicyForKu h.enterpriseId h.groupId h.crossGroupAllowed body.requesterEnterprise
    body.requesterGroup (enterprise env) (group env) consent

/-- The body of the route, once the caller is authenticated. -/
def respond (env : Environ) (store : Store N) (now : String) (body : ForwardQueryRequest N) :
    ForwardOutcome N :=
  let consent := consentFor env store now body
  if body.requesterEnterprise ≠ enterprise env ∧ consent = none then
    forwardOutcome env body [] .denied none
  else
    let out := collect (policyFor env body consent) body.maxResults (rawHits store body) [] .fullBody
    forwardOutcome env body out.1 out.2 consent

variable (sch : SignatureScheme) (canonicalize : Canonicalize)

/-- `aigrp_forward_query`. The forwarder may belong to another Enterprise. -/
def aigrpForwardQuery (env : Environ) (root : Option Bytes) (store : Store N) (now : String)
    (request : Request) (body : ForwardQueryRequest N) : Except Refusal (ForwardOutcome N) :=
  match requirePeerKey env root request with
  | .error e => .error e
  | .ok _ =>
    match requireForwarderIdentity sch env canonicalize store.peers.pubkey false request
        body.requesterL2Id body.dump with
    | .error e => .error e
    | .ok _ => .ok (respond env store now body)

/-- The request authenticates the L2 the body names as its sender. -/
def Authenticated (env : Environ) (root : Option Bytes) (store : Store N) (request : Request)
    (body : ForwardQueryRequest N) : Prop :=
  (∃ admission, requirePeerKey env root request = .ok admission) ∧
    requireForwarderIdentity sch env canonicalize store.peers.pubkey false request
      body.requesterL2Id body.dump = .ok body.requesterL2Id

/-- An accepted request is authenticated, and answered by `respond`. -/
theorem aigrpForwardQuery_ok_iff {env : Environ} {root : Option Bytes} {store : Store N}
    {now : String} {request : Request} {body : ForwardQueryRequest N} {out : ForwardOutcome N} :
    aigrpForwardQuery sch canonicalize env root store now request body = .ok out ↔
      Authenticated sch canonicalize env root store request body ∧
        out = respond env store now body := by
  unfold aigrpForwardQuery Authenticated
  constructor
  · intro h
    split at h
    · cases h
    · next admission hadm =>
        split at h
        · cases h
        · next declared hid =>
            cases h
            refine ⟨⟨⟨admission, hadm⟩, ?_⟩, rfl⟩
            have heq := (requireForwarderIdentity_ok sch hid).1
            rw [heq] at hid
            exact hid
  · rintro ⟨⟨⟨admission, hadm⟩, hid⟩, rfl⟩
    simp only [hadm, hid]

/-- **The results.** The first candidates that are not denied, each under its policy. -/
theorem respond_results (env : Environ) (store : Store N) (now : String)
    (body : ForwardQueryRequest N) :
    (respond env store now body).response.results =
      if body.requesterEnterprise ≠ enterprise env ∧ consentFor env store now body = none then []
      else (((rawHits store body).filter fun h =>
        policyFor env body (consentFor env store now body) h ≠ .denied).take
          body.maxResults).map fun h =>
            h.disclose (policyFor env body (consentFor env store now body) h) := by
  unfold respond
  dsimp only
  split
  · rfl
  · have hcollect := collect_results (policyFor env body (consentFor env store now body))
      (rawHits store body) [] .fullBody body.maxResults_pos
    simp only [List.nil_append, List.length_nil, Nat.sub_zero] at hcollect
    exact hcollect

end EighthLayer.Aigrp
