import EighthLayer.Aigrp.Disclosure
import EighthLayer.Lib.Ranking

/-!
# EighthLayer.Network.Resolver

`/network/dsn/resolve` ranks the L2s of the fleet for a query, and says of each under which
policy it would answer. The L2 itself decides unit by unit, in `/aigrp/forward-query`.

The resolver takes its policy to be an upper bound of what the L2 applies
(`dsn_upper_bound_iff`).
-/

namespace EighthLayer.Network

open Lib
open Aigrp

variable {N : Numeric}

/-! ## The order of policies -/

/-- How much is disclosed under a policy. -/
def disclosure : Policy → Nat
  | .denied => 0
  | .summaryOnly => 1
  | .fullBody => 2

/-- `denied` is below `summary_only`, which is below `full_body`. -/
instance : LE Policy := ⟨fun p q => disclosure p ≤ disclosure q⟩

instance (p q : Policy) : Decidable (p ≤ q) := inferInstanceAs (Decidable (disclosure p ≤ disclosure q))

/-- The policy that a text of the source names. -/
def policyOfText (s : String) : Option Policy :=
  [Policy.denied, .summaryOnly, .fullBody].find? fun p => p.text = s

/-- A policy is at most the one that a text names. A text that names none bounds nothing. -/
def AtMost (p : Policy) (s : String) : Prop := ∃ q, policyOfText s = some q ∧ p ≤ q

instance (p : Policy) (s : String) : Decidable (AtMost p s) :=
  match h : policyOfText s with
  | none => .isFalse fun ⟨_, hq, _⟩ => by cases h.symm.trans hq
  | some q => decidable_of_iff (p ≤ q)
      ⟨fun hle => ⟨q, h, hle⟩, fun ⟨_, hq, hle⟩ => Option.some.inj (h.symm.trans hq) ▸ hle⟩

theorem policyOfText_eq_some_iff {s : String} {p : Policy} :
    policyOfText s = some p ↔ s = p.text := by
  constructor
  · intro h
    have htext := List.find?_some h
    exact (of_decide_eq_true htext).symm
  · rintro rfl
    cases p <;> decide

theorem atMost_text_iff {p q : Policy} : AtMost p q.text ↔ p ≤ q := by
  unfold AtMost
  rw [policyOfText_eq_some_iff.mpr rfl]
  simp

/-- What is given in full needs a full policy, and what is summarised one of the two. -/
theorem atMost_given {s : String} (G : Prop) [Decidable G] :
    AtMost (if G then .fullBody else .summaryOnly) s ↔
      s = "full_body" ∨ s = "summary_only" ∧ ¬ G := by
  unfold AtMost
  simp only [policyOfText_eq_some_iff]
  constructor
  · rintro ⟨q, rfl, hle⟩
    cases q with
    | fullBody => exact .inl rfl
    | summaryOnly =>
        refine .inr ⟨rfl, fun hG => ?_⟩
        rw [if_pos hG] at hle
        exact absurd hle (by decide)
    | denied =>
        split at hle
        · exact absurd hle (by decide)
        · exact absurd hle (by decide)
  · rintro (rfl | ⟨rfl, hG⟩)
    · refine ⟨.fullBody, rfl, ?_⟩
      split <;> decide
    · refine ⟨.summaryOnly, rfl, ?_⟩
      rw [if_neg hG]
      decide

/-! ## The resolver -/

/-- `_list_cross_enterprise_consents_sync`: the latest signed first. -/
def listCrossEnterpriseConsents (consents : List ConsentRow) (includeExpired : Bool)
    (now : String) (limit : Nat) : List ConsentRow :=
  (sortDesc (fun c => c.signedAt) (consents.filter fun c => includeExpired || c.active now)).take
    limit

/-- A row matches a caller and a candidate: the loop of `_decide_dsn_policy`. -/
def matchesPair (c : ConsentRow) (callerEnterprise callerGroup candEnterprise candGroup : String) :
    Bool :=
  (c.requesterEnterprise = callerEnterprise && c.responderEnterprise = candEnterprise) &&
    ((c.requesterGroup = none || c.requesterGroup = some callerGroup) &&
      (c.responderGroup = none || c.responderGroup = some candGroup))

/-- `_decide_dsn_policy`: the policy and the reason. -/
def decideDsnPolicy (callerEnterprise callerGroup candEnterprise candGroup : String)
    (consents : List ConsentRow) (includeConsentedCrossEnterprise : Bool) : String × String :=
  if callerEnterprise = candEnterprise then
    if callerGroup = candGroup then ("full_body", "same_enterprise_same_group")
    else ("summary_only", "same_enterprise_xgroup_summary")
  else match consents.find? fun c =>
      matchesPair c callerEnterprise callerGroup candEnterprise candGroup with
    | some c => (c.policy, "cross_enterprise_consent")
    | none =>
      if includeConsentedCrossEnterprise then ("denied", "cross_enterprise_no_consent")
      else ("denied", "boundary")

/-- A row of `/aigrp/peers-active`. -/
structure ActivePersona where
  persona : String
  discoverable : Option Bool

/-- `_L2Snapshot`, as far as the resolver reads it, its centroid decoded. -/
structure L2Snapshot (N : Numeric) where
  enterprise : String
  group : String
  /-- `l2_id` of the signature. -/
  l2Id : Option String
  centroid : Option (List N.Float)
  kuCount : Nat
  activePersonas : List ActivePersona

/-- The arithmetic of the ranking: the score of a candidate without a centroid, and `_cosine`
rounded to four places. -/
structure Cosine (N : Numeric) where
  zero : N.Float
  cosine : List N.Float → List N.Float → N.Float

/-- `DsnResolveRequest`. -/
structure DsnResolveRequest where
  maxCandidates : Nat
  includeConsentedCrossEnterprise : Bool
  callerEnterprise : String
  callerGroup : String

/-- The scope of the caller. -/
def DsnResolveRequest.caller (request : DsnResolveRequest) : String × String :=
  (pyOr (some request.callerEnterprise) "marketing", pyOr (some request.callerGroup) "public")

/-- `DsnCandidate`. -/
structure DsnCandidate (N : Numeric) where
  l2Id : String
  enterprise : String
  group : String
  simScore : N.Float
  kuCountInTopic : Nat
  expertPersonas : List String
  policyIfQueried : String
  policyReason : String

variable (R : Cosine N)

/-- What the loop makes of a snapshot; `none` when it goes on without it. -/
def candidateOf (consents : List ConsentRow) (request : DsnResolveRequest)
    (intentVec : List N.Float) (snap : L2Snapshot N) : Option (DsnCandidate N) :=
  let (callerEnt, callerGrp) := request.caller
  let (policy, reason) := decideDsnPolicy callerEnt callerGrp snap.enterprise snap.group consents
    request.includeConsentedCrossEnterprise
  if policy = "denied" ∧ ¬ request.includeConsentedCrossEnterprise ∧ reason = "boundary" then none
  else
    let leakSafe := policy ≠ "denied" ∧ policy ≠ "summary_only"
    some
      { l2Id := pyOr snap.l2Id (snap.enterprise ++ "/" ++ snap.group)
        enterprise := snap.enterprise
        group := snap.group
        simScore := match snap.centroid with
          | none | some [] => R.zero
          | some centroid => R.cosine intentVec centroid
        kuCountInTopic := if leakSafe then snap.kuCount else 0
        expertPersonas :=
          if leakSafe then
            ((snap.activePersonas.filter fun p => p.discoverable ≠ some false).map
              ActivePersona.persona).take 5
          else []
        policyIfQueried := policy
        policyReason := reason }

/-- The route `network_dsn_resolve`, from the snapshots that the Bloom filter has kept. -/
def networkDsnResolve (consents : List ConsentRow) (now : String) (request : DsnResolveRequest)
    (intentVec : List N.Float) (snapshots : List (L2Snapshot N)) : List (DsnCandidate N) :=
  let listed := listCrossEnterpriseConsents consents false now 200
  ((snapshots.filterMap (candidateOf R listed request intentVec)).mergeSort fun a b =>
    N.le b.simScore a.simScore).take request.maxCandidates

/-- A candidate has the policy that is decided for its L2. -/
theorem policy_of_mem_resolve {consents : List ConsentRow} {now : String}
    {request : DsnResolveRequest} {intentVec : List N.Float} {snapshots : List (L2Snapshot N)}
    {c : DsnCandidate N} (hc : c ∈ networkDsnResolve R consents now request intentVec snapshots) :
    c.policyIfQueried = (decideDsnPolicy request.caller.1 request.caller.2 c.enterprise c.group
      (listCrossEnterpriseConsents consents false now 200)
      request.includeConsentedCrossEnterprise).1 := by
  unfold networkDsnResolve at hc
  have hmem := List.mem_mergeSort.mp (List.mem_of_mem_take hc)
  obtain ⟨snap, -, hcand⟩ := List.mem_filterMap.mp hmem
  unfold candidateOf at hcand
  dsimp only at hcand
  split at hcand
  · cases hcand
  · cases hcand
    rfl

/-- The only snapshot makes the only candidate. -/
theorem mem_resolve_single {consents : List ConsentRow} {now : String}
    {request : DsnResolveRequest} {intentVec : List N.Float} {snap : L2Snapshot N}
    {c : DsnCandidate N} (hmax : 0 < request.maxCandidates)
    (hc : candidateOf R (listCrossEnterpriseConsents consents false now 200) request intentVec
      snap = some c) :
    c ∈ networkDsnResolve R consents now request intentVec [snap] := by
  obtain ⟨n, hn⟩ := Nat.exists_eq_succ_of_ne_zero hmax.ne'
  unfold networkDsnResolve
  dsimp only
  rw [List.filterMap_cons_some hc, List.filterMap_nil, List.mergeSort_singleton, hn,
    List.take_succ_cons]
  exact List.mem_cons_self

/-! ## What a candidate applies -/

/-- The policy that `aigrp_forward_query` applies to a candidate unit: without a consent a
request of another Enterprise is answered before any unit is looked at. -/
def appliedPolicy (env : Environ) (store : Store N) (now : String) (body : ForwardQueryRequest N)
    (h : RawHit N) : Policy :=
  if body.requesterEnterprise ≠ enterprise env ∧ consentFor env store now body = none then .denied
  else policyFor env body (consentFor env store now body) h

/-- It is what the results are disclosed under. -/
theorem respond_applied (env : Environ) (store : Store N) (now : String)
    (body : ForwardQueryRequest N) :
    (respond env store now body).response.results =
      (((rawHits store body).filter fun h => appliedPolicy env store now body h ≠ .denied).take
        body.maxResults).map fun h => h.disclose (appliedPolicy env store now body h) := by
  rw [respond_results]
  unfold appliedPolicy
  split
  · rename_i hclosed
    simp
  · rfl

/-- A unit that is given in full, once the request is let in: to its owners, to their
Enterprise where the unit is flagged, and under a consent to full bodies. -/
def GivenInFull (requesterEnterprise requesterGroup policy : String) (h : RawHit N) : Prop :=
  requesterEnterprise = h.enterpriseId ∧
      (requesterGroup = h.groupId ∨ h.crossGroupAllowed = true) ∨
    requesterEnterprise ≠ h.enterpriseId ∧ policy = "full_body"

instance (requesterEnterprise requesterGroup policy : String) (h : RawHit N) :
    Decidable (GivenInFull requesterEnterprise requesterGroup policy h) :=
  inferInstanceAs (Decidable (_ ∨ _))

/-- What is decided for a unit under a consent. -/
theorem decidePolicyForKu_some (h : RawHit N) (reqEnt reqGrp ent grp : String) (b : ConsentRow) :
    decidePolicyForKu h.enterpriseId h.groupId h.crossGroupAllowed reqEnt reqGrp ent grp (some b) =
      if GivenInFull reqEnt reqGrp b.policy h then .fullBody else .summaryOnly := by
  unfold decidePolicyForKu GivenInFull
  by_cases hent : reqEnt = h.enterpriseId
  · by_cases hgrp : reqGrp = h.groupId
    · simp [hent, hgrp]
    · simp [hent, hgrp]
  · simp [hent]

/-- What is decided for a unit without one. -/
theorem decidePolicyForKu_none (h : RawHit N) (reqEnt reqGrp ent grp : String) :
    decidePolicyForKu h.enterpriseId h.groupId h.crossGroupAllowed reqEnt reqGrp ent grp none =
      if reqEnt ≠ h.enterpriseId then .denied
      else if GivenInFull reqEnt reqGrp "" h then .fullBody else .summaryOnly := by
  unfold decidePolicyForKu GivenInFull
  by_cases hent : reqEnt = h.enterpriseId
  · by_cases hgrp : reqGrp = h.groupId
    · simp [hent, hgrp]
    · simp [hent, hgrp]
  · simp [hent]

/-! ## When the bound holds -/

section Matches

variable (consents : List ConsentRow) (now reqEnt reqGrp respEnt respGrp : String)

/-- The consent that the resolver goes by: the first that matches among the 200 that were
signed last. -/
def LatestMatch (c : ConsentRow) : Prop :=
  ∃ before after, listCrossEnterpriseConsents consents false now 200 = before ++ c :: after ∧
    matchesPair c reqEnt reqGrp respEnt respGrp = true ∧
      ∀ c' ∈ before, matchesPair c' reqEnt reqGrp respEnt respGrp = false

/-- The consent that the L2 goes by: the first of the most specific ones. -/
def BestMatch (b : ConsentRow) : Prop :=
  ∃ before after,
    (consents.filter fun c => c.admits reqEnt respEnt (some reqGrp) (some respGrp) now) =
      before ++ b :: after ∧
    (∀ c ∈ before, c.score (some reqGrp) (some respGrp) < b.score (some reqGrp) (some respGrp)) ∧
    ∀ c ∈ after, c.score (some reqGrp) (some respGrp) ≤ b.score (some reqGrp) (some respGrp)

end Matches

section Best

variable {score : ConsentRow → Nat} {rows : List ConsentRow} {b : ConsentRow}

/-- The best of some rows is the first of the highest score. -/
theorem bestConsent_some_spec {b₀ : ConsentRow} (h : bestConsent score (some b₀) rows = some b) :
    (b = b₀ ∧ ∀ c ∈ rows, score c ≤ score b) ∨
      score b₀ < score b ∧ ∃ before after, rows = before ++ b :: after ∧
        (∀ c ∈ before, score c < score b) ∧ ∀ c ∈ after, score c ≤ score b := by
  induction rows generalizing b₀ with
  | nil =>
      cases h
      exact .inl ⟨rfl, fun c hc => nomatch hc⟩
  | cons c rest ih =>
      have hrest : bestConsent score (some (if score b₀ < score c then c else b₀)) rest = some b := h
      by_cases hlt : score b₀ < score c
      · rw [if_pos hlt] at hrest
        rcases ih hrest with ⟨rfl, hall⟩ | ⟨hbetter, before, after, rfl, hbefore, hafter⟩
        · exact .inr ⟨hlt, [], rest, rfl, fun c hc => (nomatch hc), hall⟩
        · refine .inr ⟨hlt.trans hbetter, c :: before, after, rfl, ?_, hafter⟩
          intro c' hc'
          rcases List.mem_cons.mp hc' with rfl | hc'
          · exact hbetter
          · exact hbefore c' hc'
      · rw [if_neg hlt] at hrest
        have hle : score c ≤ score b₀ := Nat.le_of_not_lt hlt
        rcases ih hrest with ⟨rfl, hall⟩ | ⟨hbetter, before, after, rfl, hbefore, hafter⟩
        · refine .inl ⟨rfl, ?_⟩
          intro c' hc'
          rcases List.mem_cons.mp hc' with rfl | hc'
          · exact hle
          · exact hall c' hc'
        · refine .inr ⟨hbetter, c :: before, after, rfl, ?_, hafter⟩
          intro c' hc'
          rcases List.mem_cons.mp hc' with rfl | hc'
          · exact Nat.lt_of_le_of_lt hle hbetter
          · exact hbefore c' hc'

/-- The best so far stays when nothing is better. -/
theorem bestConsent_stays (h : ∀ c ∈ rows, score c ≤ score b) :
    bestConsent score (some b) rows = some b := by
  induction rows with
  | nil => rfl
  | cons c rest ih =>
      have hnot : ¬ score b < score c := Nat.not_lt.mpr (h c List.mem_cons_self)
      rw [bestConsent, if_neg hnot]
      exact ih fun c' hc' => h c' (List.mem_cons_of_mem _ hc')

/-- The first of the highest score is the best. -/
theorem bestConsent_first {before after : List ConsentRow} {best : Option ConsentRow}
    (hbest : ∀ b₀, best = some b₀ → score b₀ < score b) (hbefore : ∀ c ∈ before, score c < score b)
    (hafter : ∀ c ∈ after, score c ≤ score b) :
    bestConsent score best (before ++ b :: after) = some b := by
  induction before generalizing best with
  | nil =>
      cases best with
      | none => exact bestConsent_stays hafter
      | some b₀ =>
          rw [List.nil_append, bestConsent, if_pos (hbest b₀ rfl)]
          exact bestConsent_stays hafter
  | cons c before ih =>
      have hc := hbefore c List.mem_cons_self
      have hrest := fun c' hc' => hbefore c' (List.mem_cons_of_mem _ hc')
      cases best with
      | none =>
          refine ih (fun b₀ hb₀ => ?_) hrest
          cases hb₀
          exact hc
      | some b₀ =>
          refine ih (fun b₁ hb₁ => ?_) hrest
          cases hb₁
          split
          · exact hc
          · exact hbest b₀ rfl

end Best

section Bound

variable {consents : List ConsentRow} {now reqEnt reqGrp respEnt respGrp : String}

theorem findConsent_eq_some_iff {b : ConsentRow} :
    findCrossEnterpriseConsent consents reqEnt respEnt (some reqGrp) (some respGrp) now = some b ↔
      BestMatch consents now reqEnt reqGrp respEnt respGrp b := by
  unfold findCrossEnterpriseConsent BestMatch
  constructor
  · intro h
    cases hrows : consents.filter fun c => c.admits reqEnt respEnt (some reqGrp) (some respGrp) now with
    | nil =>
        rw [hrows] at h
        cases h
    | cons c rest =>
        rw [hrows] at h
        have hfirst : bestConsent (ConsentRow.score · (some reqGrp) (some respGrp))
            (some c) rest = some b := h
        rcases bestConsent_some_spec hfirst with ⟨rfl, hall⟩ | ⟨hlt, before, after, rfl, hs⟩
        · exact ⟨[], rest, rfl, fun c hc => (nomatch hc), hall⟩
        · refine ⟨c :: before, after, rfl, ?_, hs.2⟩
          intro c' hc'
          rcases List.mem_cons.mp hc' with rfl | hc'
          · exact hlt
          · exact hs.1 c' hc'
  · rintro ⟨before, after, hrows, hbefore, hafter⟩
    rw [hrows]
    exact bestConsent_first (fun b₀ hb₀ => by cases hb₀) hbefore hafter

/-- What the resolver finds. -/
theorem find_matchesPair_eq_some_iff {c : ConsentRow} :
    (listCrossEnterpriseConsents consents false now 200).find?
        (fun c => matchesPair c reqEnt reqGrp respEnt respGrp) = some c ↔
      LatestMatch consents now reqEnt reqGrp respEnt respGrp c := by
  rw [List.find?_eq_some_iff_append]
  unfold LatestMatch
  constructor
  · rintro ⟨hmatches, before, after, hlist, hbefore⟩
    exact ⟨before, after, hlist, hmatches, fun c' hc' => by simpa using hbefore c' hc'⟩
  · rintro ⟨before, after, hlist, hmatches, hbefore⟩
    exact ⟨hmatches, before, after, hlist, fun c' hc' => by simpa using hbefore c' hc'⟩

/-- It admits the request at the L2 as well. -/
theorem LatestMatch.admits {c : ConsentRow}
    (h : LatestMatch consents now reqEnt reqGrp respEnt respGrp c) :
    c ∈ consents ∧ c.admits reqEnt respEnt (some reqGrp) (some respGrp) now = true := by
  obtain ⟨before, after, hlist, hmatches, -⟩ := h
  have hlisted : c ∈ listCrossEnterpriseConsents consents false now 200 := by
    rw [hlist]
    exact List.mem_append_right _ List.mem_cons_self
  unfold listCrossEnterpriseConsents at hlisted
  obtain ⟨hc, hactive⟩ := List.mem_filter.mp (mem_sortDesc.mp (List.mem_of_mem_take hlisted))
  unfold matchesPair at hmatches
  simp only [Bool.and_eq_true, Bool.or_eq_true, decide_eq_true_eq] at hmatches
  obtain ⟨⟨hreq, hresp⟩, hreqGrp, hrespGrp⟩ := hmatches
  exact ⟨hc, admits_iff.mpr ⟨hreq, hresp, by simpa using hactive, hreqGrp, hrespGrp⟩⟩

/-- The bound holds of a unit: within an Enterprise, for the L2's own group, and for a unit that
is not given in full; between Enterprises, when there is no consent, or the consent that was
signed last names a policy and it is the full one wherever the most specific consent, or the
unit, gives the full body. -/
def BoundHolds (consents : List ConsentRow) (now reqEnt reqGrp respEnt respGrp : String)
    (h : RawHit N) : Prop :=
  if reqEnt = respEnt then reqGrp = respGrp ∨ ¬ GivenInFull reqEnt reqGrp "" h
  else ∀ b, BestMatch consents now reqEnt reqGrp respEnt respGrp b →
    ∃ c, LatestMatch consents now reqEnt reqGrp respEnt respGrp c ∧
      (c.policy = "full_body" ∨
        c.policy = "summary_only" ∧ ¬ GivenInFull reqEnt reqGrp b.policy h)

/-- Within an Enterprise the resolver gives the full body to the L2's own group only. -/
theorem bound_within (env : Environ) (store : Store N) (now : String)
    (body : ForwardQueryRequest N) (hent : body.requesterEnterprise = enterprise env)
    (h : RawHit N) :
    AtMost (appliedPolicy env store now body h)
        (if body.requesterGroup = group env then "full_body" else "summary_only") ↔
      body.requesterGroup = group env ∨
        ¬ GivenInFull body.requesterEnterprise body.requesterGroup "" h := by
  have hconsent : consentFor env store now body = none := by
    rw [consentFor, if_neg (not_not.mpr hent)]
  have happlied : appliedPolicy env store now body h =
      if body.requesterEnterprise ≠ h.enterpriseId then .denied
      else if GivenInFull body.requesterEnterprise body.requesterGroup "" h then .fullBody
      else .summaryOnly := by
    unfold appliedPolicy policyFor
    rw [if_neg (fun hne => hne.1 hent), hconsent, decidePolicyForKu_none]
  rw [happlied]
  by_cases hgrp : body.requesterGroup = group env
  · rw [if_pos hgrp]
    refine iff_of_true ⟨.fullBody, by decide, ?_⟩ (.inl hgrp)
    split
    · decide
    · split <;> decide
  · rw [if_neg hgrp, or_iff_right hgrp]
    have htext : ("summary_only" : String) = Policy.summaryOnly.text := rfl
    rw [htext, atMost_text_iff]
    by_cases hfull : GivenInFull body.requesterEnterprise body.requesterGroup "" h
    · have howned : body.requesterEnterprise = h.enterpriseId := by
        rcases hfull with ⟨howned, -⟩ | ⟨-, hpolicy⟩
        · exact howned
        · exact absurd hpolicy (by decide)
      rw [if_neg (not_not.mpr howned), if_pos hfull]
      exact iff_of_false (by decide) (not_not.mpr hfull)
    · refine iff_of_true ?_ hfull
      rw [if_neg hfull]
      split <;> decide

/-- Between Enterprises both go by a consent, but not by the same. -/
theorem bound_across (env : Environ) (store : Store N) (now : String)
    (body : ForwardQueryRequest N) (hent : body.requesterEnterprise ≠ enterprise env)
    (includeConsented : Bool) (h : RawHit N) :
    AtMost (appliedPolicy env store now body h)
        (decideDsnPolicy body.requesterEnterprise body.requesterGroup (enterprise env) (group env)
          (listCrossEnterpriseConsents store.consents false now 200) includeConsented).1 ↔
      ∀ b, BestMatch store.consents now body.requesterEnterprise body.requesterGroup (enterprise env)
          (group env) b →
        ∃ c, LatestMatch store.consents now body.requesterEnterprise body.requesterGroup
            (enterprise env) (group env) c ∧
          (c.policy = "full_body" ∨ c.policy = "summary_only" ∧
            ¬ GivenInFull body.requesterEnterprise body.requesterGroup b.policy h) := by
  have hconsent : consentFor env store now body = findCrossEnterpriseConsent store.consents
      body.requesterEnterprise (enterprise env) (some body.requesterGroup) (some (group env)) now := by
    rw [consentFor, if_pos hent]
  cases hfound : consentFor env store now body with
  | none =>
      have happlied : appliedPolicy env store now body h = .denied := by
        unfold appliedPolicy
        rw [if_pos ⟨hent, hfound⟩]
      have hnone : ∀ b, ¬ BestMatch store.consents now body.requesterEnterprise body.requesterGroup
          (enterprise env) (group env) b := by
        intro b hb
        have hsome := findConsent_eq_some_iff.mpr hb
        rw [← hconsent, hfound] at hsome
        cases hsome
      have hfind : (listCrossEnterpriseConsents store.consents false now 200).find? (fun c =>
          matchesPair c body.requesterEnterprise body.requesterGroup (enterprise env) (group env)) =
          none := by
        cases hmatch : (listCrossEnterpriseConsents store.consents false now 200).find? fun c =>
            matchesPair c body.requesterEnterprise body.requesterGroup (enterprise env)
              (group env) with
        | none => rfl
        | some c =>
            obtain ⟨hc, hadmits⟩ := (find_matchesPair_eq_some_iff.mp hmatch).admits
            have hnot := findConsent_none_iff.mp (hconsent.symm.trans hfound) c hc
            exact absurd (hadmits.symm.trans hnot) (by decide)
      refine iff_of_true ?_ fun b hb => absurd hb (hnone b)
      rw [happlied, decideDsnPolicy, if_neg hent, hfind]
      dsimp only
      split <;> decide
  | some b =>
      have hbest := findConsent_eq_some_iff.mp (hconsent.symm.trans hfound)
      have happlied : appliedPolicy env store now body h =
          if GivenInFull body.requesterEnterprise body.requesterGroup b.policy h then .fullBody
          else .summaryOnly := by
        unfold appliedPolicy policyFor
        rw [hfound, if_neg (fun hclosed => by cases hclosed.2), decidePolicyForKu_some]
      -- the L2 goes by this consent and no other
      have hunique : ∀ b', BestMatch store.consents now body.requesterEnterprise
          body.requesterGroup (enterprise env) (group env) b' → b' = b := by
        intro b' hb'
        have hfound' := findConsent_eq_some_iff.mpr hb'
        rw [← hconsent, hfound] at hfound'
        exact (Option.some.inj hfound').symm
      rw [happlied, decideDsnPolicy, if_neg hent]
      cases hmatch : (listCrossEnterpriseConsents store.consents false now 200).find? fun c =>
          matchesPair c body.requesterEnterprise body.requesterGroup (enterprise env)
            (group env) with
      | none =>
          refine iff_of_false ?_ fun hbound => ?_
          · dsimp only
            split <;> split <;> decide
          · obtain ⟨c, hc, -⟩ := hbound b hbest
            rw [find_matchesPair_eq_some_iff.mpr hc] at hmatch
            cases hmatch
      | some c =>
          have hlatest := find_matchesPair_eq_some_iff.mp hmatch
          have honly : ∀ c', LatestMatch store.consents now body.requesterEnterprise
              body.requesterGroup (enterprise env) (group env) c' → c' = c := by
            intro c' hc'
            have hmatch' := find_matchesPair_eq_some_iff.mpr hc'
            rw [hmatch] at hmatch'
            exact (Option.some.inj hmatch').symm
          have hpolicy : AtMost (if GivenInFull body.requesterEnterprise body.requesterGroup b.policy h
              then .fullBody else .summaryOnly) c.policy ↔ _ := atMost_given _
          constructor
          · intro hatMost b' hb'
            obtain rfl := hunique b' hb'
            exact ⟨c, hlatest, hpolicy.mp hatMost⟩
          · intro hbound
            obtain ⟨c', hc', hgiven⟩ := hbound b hbest
            obtain rfl := honly c' hc'
            exact hpolicy.mpr hgiven

end Bound

/-- **The upper bound.** The policy that the resolver gives for an L2 bounds what the L2 applies
to a unit if and only if the bound holds of the unit. -/
theorem dsn_upper_bound_iff {env : Environ} {store : Store N} {now : String}
    {body : ForwardQueryRequest N} {request : DsnResolveRequest} {intentVec : List N.Float}
    {snapshots : List (L2Snapshot N)} {c : DsnCandidate N}
    (hc : c ∈ networkDsnResolve R store.consents now request intentVec snapshots)
    (hent : c.enterprise = enterprise env) (hgrp : c.group = group env)
    (hcaller : request.caller = (body.requesterEnterprise, body.requesterGroup)) (h : RawHit N) :
    AtMost (appliedPolicy env store now body h) c.policyIfQueried ↔
      BoundHolds store.consents now body.requesterEnterprise body.requesterGroup (enterprise env)
        (group env) h := by
  rw [policy_of_mem_resolve R hc, hcaller, hent, hgrp]
  unfold BoundHolds
  by_cases hown : body.requesterEnterprise = enterprise env
  · rw [if_pos hown]
    rw [← bound_within env store now body hown h]
    unfold decideDsnPolicy
    dsimp only
    rw [if_pos hown]
    split <;> rfl
  · rw [if_neg hown]
    exact bound_across env store now body hown _ h

/-! ### Another group of the Enterprise

`acme/hr` asks the resolver, and then `acme/eng`, which holds one unit. -/

/-- Floats of the sample: every centroid has similarity 1. -/
def sampleCosine : Cosine sampleNumeric where
  zero := (0 : Nat)
  cosine _ _ := (1 : Nat)

/-- `acme/eng`, as the resolver has it. -/
def sampleSnapshot : L2Snapshot sampleNumeric where
  enterprise := "acme"
  group := "eng"
  l2Id := some "acme/eng"
  centroid := some [(1 : Nat)]
  kuCount := 1
  activePersonas := [⟨"alice", none⟩]

/-- A caller of `acme/hr`. -/
def sampleRequest : DsnResolveRequest := ⟨5, true, "acme", "hr"⟩

/-- The candidate: to be queried for summaries. -/
def sampleCandidate : DsnCandidate sampleNumeric where
  l2Id := "acme/eng"
  enterprise := "acme"
  group := "eng"
  simScore := (1 : Nat)
  kuCountInTopic := 0
  expertPersonas := []
  policyIfQueried := "summary_only"
  policyReason := "same_enterprise_xgroup_summary"

theorem sampleCandidate_mem : sampleCandidate ∈
    networkDsnResolve sampleCosine [] "2026-01-01T00:00:00+00:00" sampleRequest [(1 : Nat)]
      [sampleSnapshot] :=
  mem_resolve_single sampleCosine (by decide) rfl

theorem dsn_upper_bound_iff_sample :
    AtMost (appliedPolicy sampleResponder (sampleStore "acme" "eng" [])
      "2026-01-01T00:00:00+00:00" (sampleQuery "acme/hr" "acme" "hr") (sampleHit "acme" "eng"))
      "summary_only" := by
  have hiff : AtMost (appliedPolicy sampleResponder (sampleStore "acme" "eng" [])
      "2026-01-01T00:00:00+00:00" (sampleQuery "acme/hr" "acme" "hr") (sampleHit "acme" "eng"))
      sampleCandidate.policyIfQueried ↔ _ :=
    dsn_upper_bound_iff sampleCosine sampleCandidate_mem (by decide) (by decide) rfl _
  exact hiff.mpr (.inr (by decide))

/-- The store with its unit flagged for the other groups. -/
def flaggedStore : Store sampleNumeric where
  peers := ⟨[], List.nodup_nil⟩
  consents := []
  units := [{ unit := ⟨"ku_00000000000000000000000000000001", ["billing"], "s", "d", "a", (1 : Nat)⟩
              embedding := some [0, 0, 128, 63]
              enterpriseId := some "acme"
              groupId := some "eng"
              crossGroupAllowed := some 1
              status := "approved" }]
  nodup := List.nodup_singleton _

/-- The unit is given in full where the resolver has announced summaries. -/
theorem flagged_unit_in_full :
    sampleCandidate ∈ networkDsnResolve sampleCosine flaggedStore.consents
        "2026-01-01T00:00:00+00:00" sampleRequest [(1 : Nat)] [sampleSnapshot] ∧
      ∃ h ∈ rawHits flaggedStore (sampleQuery "acme/hr" "acme" "hr"),
        appliedPolicy sampleResponder flaggedStore "2026-01-01T00:00:00+00:00"
            (sampleQuery "acme/hr" "acme" "hr") h = .fullBody ∧
          ¬ AtMost (appliedPolicy sampleResponder flaggedStore "2026-01-01T00:00:00+00:00"
            (sampleQuery "acme/hr" "acme" "hr") h) sampleCandidate.policyIfQueried := by
  have hhits : rawHits flaggedStore (sampleQuery "acme/hr" "acme" "hr") =
      [{ sampleHit "acme" "eng" with crossGroupAllowed := true }] := by
    unfold rawHits semanticQueryWithScope
    simp [flaggedStore, sampleHit, sampleQuery, sampleNumeric, UnitRow.score, UnitRow.owner, pyOr]
  have hfull : appliedPolicy sampleResponder flaggedStore "2026-01-01T00:00:00+00:00"
      (sampleQuery "acme/hr" "acme" "hr")
      { sampleHit "acme" "eng" with crossGroupAllowed := true } = .fullBody := by
    decide
  refine ⟨sampleCandidate_mem, _, by rw [hhits]; exact List.mem_singleton.mpr rfl, hfull, ?_⟩
  rw [hfull]
  decide

end EighthLayer.Network
