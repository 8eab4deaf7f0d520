import EighthLayer.Knowledge.Index
import EighthLayer.Knowledge.Query
import EighthLayer.Knowledge.Review

/-!
# EighthLayer.Knowledge.Propose

The routes that propose a unit, list the units that wait for a review, and decide on one.

A proposal is written under a tenancy that `resolve_tenancy` takes from the row of the user
or from the environment; every reading route takes it from the row.
-/

namespace EighthLayer.Knowledge

open Lib
open Aigrp (strip)

/-! ## Tenancies of users -/

/-- A row of `users`, as far as its tenancy is concerned. -/
structure UserRow where
  enterpriseId : Option String
  groupId : Option String
deriving DecidableEq

/-- `TenancySource`. -/
inductive TenancySource where
  | row
  | env
  | default
deriving DecidableEq

/-- `DEFAULT_ENTERPRISE_ID`. -/
def defaultEnterpriseId : String := "default-enterprise"

/-- `DEFAULT_GROUP_ID`. -/
def defaultGroupId : String := "default-group"

/-- `CQ_ENTERPRISE` and `CQ_GROUP`, when both are set. -/
def configuredTenancy (env : Environ) : Option (String × String) :=
  let ent := strip (env.get "CQ_ENTERPRISE" "")
  let grp := strip (env.get "CQ_GROUP" "")
  if ent ≠ "" ∧ grp ≠ "" then some (ent, grp) else none

/-- Two values that are neither empty nor the defaults. -/
def RealTenancy (ent grp : String) : Prop :=
  (ent ≠ "" ∧ ent ≠ defaultEnterpriseId) ∧ grp ≠ "" ∧ grp ≠ defaultGroupId

instance (ent grp : String) : Decidable (RealTenancy ent grp) :=
  inferInstanceAs (Decidable (_ ∧ _))

/-- `resolve_tenancy`. -/
def resolveTenancy (env : Environ) (user : UserRow) : String × String × TenancySource :=
  let rowEnt := strip (user.enterpriseId.getD "")
  let rowGrp := strip (user.groupId.getD "")
  if RealTenancy rowEnt rowGrp then (rowEnt, rowGrp, .row)
  else match configuredTenancy env with
    | some (ent, grp) => (ent, grp, .env)
    | none =>
      if rowEnt ≠ "" ∧ rowGrp ≠ "" then (rowEnt, rowGrp, .default)
      else (defaultEnterpriseId, defaultGroupId, .default)

/-- Why a proposal is refused. -/
inductive ProposeError where
  /-- "User row missing tenancy claims; refusing to proceed". -/
  | missingTenancy
  /-- "L2 tenancy not configured: …". -/
  | notConfigured
  /-- "At least one non-empty domain is required". -/
  | noDomains
  /-- "propose quality guard: …". -/
  | quality (reason : String)
  /-- An exception that is not an `HTTPException`. -/
  | internalError
deriving DecidableEq

/-- `_resolve_write_tenancy`. -/
def resolveWriteTenancy (env : Environ) (user : UserRow) :
    Except ProposeError (String × String) :=
  let (ent, grp, source) := resolveTenancy env user
  if source = .default ∧
      ¬ (strip (user.enterpriseId.getD "") ≠ "" ∧ strip (user.groupId.getD "") ≠ "") then
    .error .notConfigured
  else .ok (ent, grp)

/-! ## The quality guard -/

section Quality

variable [Casing]

/-- `PLACEHOLDER_DOMAIN_SETS`, each of one domain. -/
def placeholderDomainSets : List String :=
  ["test", "placeholder", "foo", "bar", "example", "sample"]

/-- `_normalize`. -/
def normalizeText (s : String) : String := Casing.lower (strip s)

/-- `_placeholder_domains`. -/
def placeholderDomains (domains : List String) : Bool :=
  let norm := (domains.filter fun d => strip d ≠ "").map normalizeText
  norm ≠ [] && placeholderDomainSets.any fun p => norm.all fun d => d = p

/-- Whether a character is matched by a lower-case letter of a pattern under `re.IGNORECASE`;
the long s is one of the letters that `s` matches. -/
def matchesLetter (letter c : Char) : Bool :=
  c.toLower = letter || (letter = 's' && c.toNat = 0x17F)

/-- Whether a text is a word of a pattern, under `re.IGNORECASE`. -/
def matchesWord (word text : List Char) : Bool :=
  word.length = text.length && (word.zip text).all fun p => matchesLetter p.1 p.2

/-- `_PLACEHOLDER_SUMMARY_RE`, on a stripped text. -/
def placeholderSummary (summary : String) : Bool :=
  let text := (strip summary).toList
  ["test", "placeholder", "sample", "foo", "bar", "baz", "example", "lorem", "todo"].any fun word =>
    matchesWord word.toList text || (text.getLast? = some '.' && matchesWord word.toList text.dropLast)

/-- `_too_short`. -/
def tooShort (insight : Insight) : Option String :=
  if (strip insight.summary).length < 20 then some "summary must be at least 20 chars"
  else if (strip insight.detail).length < 30 then some "detail must be at least 30 chars"
  else if (strip insight.action).length < 15 then some "action must be at least 15 chars"
  else none

/-- `check_propose_quality`. -/
def checkProposeQuality (domains : List String) (insight : Insight) : Option String :=
  if placeholderDomains domains then
    some "domain set is a placeholder shape (e.g. ['test']); use real domain tags"
  else if placeholderSummary insight.summary then
    some "summary is a placeholder word; describe a specific insight"
  else match tooShort insight with
    | some reason => some reason
    | none =>
      if normalizeText insight.summary = normalizeText insight.detail then
        some "summary and detail are identical; detail must add context the summary doesn't"
      else none

end Quality

/-! ## Proposing -/

/-- `ProposeRequest`. What it says of who created the unit is discarded. -/
structure ProposeRequest where
  domains : List String
  insight : Insight
  context : Context
  tier : Option Tier

section Propose

variable {F : Type} [Floats F] [Casing]

/-- `_default_ku_tier`. -/
def defaultKuTier (env : Environ) : Tier :=
  match Casing.lower (strip (env.get "CQ_DEFAULT_KU_TIER" "")) with
  | "local" => .local
  | "public" => .public
  | _ => .private

/-- `create_knowledge_unit`; `id` is new and `now` the time. -/
def createKnowledgeUnit (domains : List String) (insight : Insight) (context : Context)
    (tier : Tier) (createdBy id now : String) : KnowledgeUnit F where
  id
  version := 1
  domains
  insight
  context
  evidence := ⟨0.5, 1, some now, some now⟩
  tier
  createdBy
  supersededBy := none
  flags := []

/-- `insert`; `none` when nothing is left of the domains (`ValueError`) or a unit has this id
(`IntegrityError`). -/
def Store.insert (s : Store F) (unit : KnowledgeUnit F) (enterpriseId groupId : Option String)
    (now : String) : Option (Store F) :=
  if normalizeDomains unit.domains = [] then none
  else s.insertRow (insertedRow unit enterpriseId groupId now) (nodup_normalized unit)

/-- `set_embedding`. -/
def Store.setEmbedding (s : Store F) (unitId : String) (embedding : Bytes) : Store F :=
  s.updateColumns (fun r => r.id = unitId) (fun r => { r with embedding := some embedding })
    fun _ => rfl

/-- The route `propose`: the unit that it answers, and the store after it. `embedding` is what
`embed_text` gives. -/
def propose (s : Store F) (env : Environ) (username : String) (user : UserRow)
    (request : ProposeRequest) (id now : String) (embedding : Option Bytes) :
    Except ProposeError (KnowledgeUnit F × Store F) :=
  if ¬ truthy user.enterpriseId ∨ ¬ truthy user.groupId then .error .missingTenancy
  else match resolveWriteTenancy env user with
    | .error e => .error e
    | .ok (ent, grp) =>
      let normalized := normalizeDomains request.domains
      if normalized = [] then .error .noDomains
      else match checkProposeQuality normalized request.insight with
        | some reason => .error (.quality reason)
        | none =>
          let unit := createKnowledgeUnit normalized request.insight request.context
            (request.tier.getD (defaultKuTier env)) username id now
          match s.insert unit (some ent) (some grp) now with
          | none => .error .internalError
          | some s' =>
            match embedding with
            | none => .ok (unit, s')
            | some embedding => .ok (unit, s'.setEmbedding unit.id embedding)

/-! ## Reviewing -/

/-- `scope_filter`: the group counts when `PER_L2_ISOLATION` is on. -/
def scopeFilter (env : Environ) (user : UserRow) : Option String × Option String :=
  if Casing.lower (env.get "PER_L2_ISOLATION" "") ∈ ["1", "true", "yes"] then
    (user.enterpriseId, user.groupId)
  else (user.enterpriseId, none)

/-- `LIMIT … OFFSET …`; a negative limit is none. -/
def page {α : Type} (limit offset : Int) (l : List α) : List α :=
  let rest := l.drop offset.toNat
  if limit < 0 then rest else rest.take limit.toNat

/-- `_pending_queue_sync`: the latest first, but the earliest first when there is no scope. -/
def Store.pendingQueue (s : Store F) (limit offset : Int) (scope : Option String × Option String) :
    List (KnowledgeUnit F) :=
  let rows := s.units.rows.filter fun r => r.status = .pending && r.inScope scope.1 scope.2
  let ordered := match scope.1 with
    | some _ => sortDesc (fun r => r.createdAt) rows
    | none => rows.mergeSort fun r r' => decide (r.createdAt ≤ r'.createdAt)
  (page limit offset ordered).map Row.unit

/-- The route `review_queue`. -/
def reviewQueue (s : Store F) (env : Environ) (admin : UserRow) (limit offset : Int) :
    List (KnowledgeUnit F) :=
  s.pendingQueue limit offset (scopeFilter env admin)

/-- `_get_review_status_sync`. -/
def Store.getReviewStatus (s : Store F) (unitId : String) (scope : Option String × Option String) :
    Option Status :=
  (s.units.find unitId).bind fun r => if r.inScope scope.1 scope.2 then some r.status else none

/-- How the routes `approve_unit` and `reject_unit` answer. -/
inductive ReviewDecision where
  | decided (status : Status)
  | notFound
  | alreadyDecided
deriving DecidableEq

/-- The routes `approve_unit` and `reject_unit`, by an admin alone. A rejection drops a unit
that waits in the other queue. -/
def decideUnit (s : Store F) (env : Environ) (username : String) (admin : UserRow)
    (unitId : String) (approve : Bool) (now : String) : ReviewDecision × Store F :=
  let scope := scopeFilter env admin
  match s.getReviewStatus unitId scope with
  | none => (.notFound, s)
  | some status =>
    if status ≠ .pending ∧ status ≠ .pendingReview then (.alreadyDecided, s)
    else
      let decision : Decision :=
        if approve then .approve else if status = .pendingReview then .drop else .reject
      let (outcome, s') := (setReviewStatus (F := F) unitId decision username now scope.1
        scope.2).alone s
      match outcome with
      | .decided true => (.decided decision.status, s')
      | .decided false => (.alreadyDecided, s')
      | _ => (.notFound, s')

end Propose

end EighthLayer.Knowledge
