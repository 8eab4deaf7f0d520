import EighthLayer.Aigrp.ForwardQuery
import Mathlib.Data.Finset.Basic
import Mathlib.Data.Fintype.EquivFin

/-!
# EighthLayer.Aigrp.Disclosure

What a forward-query discloses, and on whose word.

The route authenticates the id of the forwarding L2, and then decides by the
Enterprise and group the body declares (`identity_bound_iff`). It looks one consent
up, for its own Enterprise and group, and applies it to units of every owner
(`consent_scoped_iff`).
-/

namespace EighthLayer.Aigrp

open Lib

variable {N : Numeric} (sch : SignatureScheme) (canonicalize : Canonicalize)

/-! ## Candidates and their owners -/

/-- A candidate comes from a row of the store. -/
theorem mem_rawHits {store : Store N} {body : ForwardQueryRequest N} {h : RawHit N}
    (hmem : h ∈ rawHits store body) : ∃ u ∈ store.units, u.score body.queryVec = some h := by
  unfold rawHits semanticQueryWithScope at hmem
  split at hmem
  · cases hmem
  · have hrow := List.mem_mergeSort.mp (List.mem_of_mem_take hmem)
    obtain ⟨u, hu, hscore⟩ := List.mem_filterMap.mp hrow
    exact ⟨u, (List.mem_filter.mp hu).1, hscore⟩

/-- A candidate carries the unit and the owner of its row. -/
theorem score_eq_some {u : UnitRow N} {queryVec : List N.Float} {h : RawHit N}
    (hscore : u.score queryVec = some h) : h.unit = u.unit ∧ (h.enterpriseId, h.groupId) = u.owner := by
  obtain ⟨similarity, -, rfl⟩ := Option.map_eq_some_iff.mp hscore
  exact ⟨rfl, rfl⟩

theorem pyOr_ne_empty (a : Option String) {b : String} (hb : b ≠ "") : pyOr a b ≠ "" := by
  unfold pyOr
  split
  · exact hb
  · split
    · exact hb
    · next hs => exact hs

/-- No unit is owned by the empty Enterprise. -/
theorem rawHits_enterprise_ne {store : Store N} {body : ForwardQueryRequest N} {h : RawHit N}
    (hmem : h ∈ rawHits store body) : h.enterpriseId ≠ "" := by
  obtain ⟨u, -, hscore⟩ := mem_rawHits hmem
  have howner := congrArg Prod.fst (score_eq_some hscore).2
  rw [show h.enterpriseId = u.owner.1 from howner]
  exact pyOr_ne_empty u.enterpriseId (by decide)

theorem admits_iff {c : ConsentRow} {reqEnt respEnt now : String} {reqGrp respGrp : Option String} :
    c.admits reqEnt respEnt reqGrp respGrp now = true ↔
      c.requesterEnterprise = reqEnt ∧ c.responderEnterprise = respEnt ∧ c.active now = true ∧
        (c.requesterGroup = none ∨ c.requesterGroup = reqGrp) ∧
        (c.responderGroup = none ∨ c.responderGroup = respGrp) := by
  simp only [ConsentRow.admits, Bool.and_eq_true, Bool.or_eq_true, decide_eq_true_eq, and_assoc]

/-! ## Identity binding -/

/-- Two requests that differ at most in what the requester says about itself. -/
structure SameButRequester (b b' : ForwardQueryRequest N) : Prop where
  queryVec : b'.queryVec = b.queryVec
  queryText : b'.queryText = b.queryText
  requesterL2Id : b'.requesterL2Id = b.requesterL2Id
  maxResults : b'.maxResults = b.maxResults

/-- What is disclosed does not depend on the Enterprise, group and persona declared. -/
def IdentityBound (env : Environ) (root : Option Bytes) (store : Store N) (now : String)
    (base : ForwardQueryRequest N) : Prop :=
  ∀ {b b' : ForwardQueryRequest N} {request request' : Request} {out out' : ForwardOutcome N},
    SameButRequester base b → SameButRequester base b' →
    aigrpForwardQuery sch canonicalize env root store now request b = .ok out →
    aigrpForwardQuery sch canonicalize env root store now request' b' = .ok out' →
    out.response.results = out'.response.results

/-- The L2 can authenticate whatever body it sends: it holds its own key. -/
def CanAuthenticate (env : Environ) (root : Option Bytes) (store : Store N) (l2Id : String) : Prop :=
  ∀ body : ForwardQueryRequest N, body.requesterL2Id = l2Id →
    ∃ request, Authenticated sch canonicalize env root store request body

/-- An L2 that is admitted and holds the key on file for it can authenticate any body. -/
theorem canAuthenticate_of_key {env : Environ} {root : Option Bytes} {store : Store N}
    {l2Id ent auth : String} {admission : Admission} {privkey : sch.PrivKey}
    (hadm : requirePeerKey env root ⟨[("authorization", auth), (forwarderHeader, l2Id)]⟩ =
      .ok admission)
    (hstrip : strip l2Id = l2Id) (hne : l2Id ≠ "") (hent : enterpriseOf l2Id = some ent)
    (hentne : ent ≠ "") (hkey : store.peers.pubkey l2Id = some (publicKeyB64u sch privkey))
    (hpub : sch.publicKey privkey ≠ []) (hsign : ∀ m, sch.sign privkey m ≠ [])
    (hcanon : ∀ j, canonicalize j ≠ none) :
    CanAuthenticate sch canonicalize env root store l2Id := by
  intro body hbody
  obtain ⟨bytes, hbytes⟩ := Option.ne_none_iff_exists'.mp (hcanon body.dump)
  have hsig : signForwardRequest sch canonicalize privkey body.dump l2Id =
      some (b64u (sch.sign privkey (bytes ++ utf8 l2Id))) := by
    simp only [signForwardRequest, signingInputFor, hbytes, Option.map_some, signRaw]
  refine ⟨⟨[("authorization", auth), (forwarderHeader, l2Id),
    (signatureHeader, b64u (sch.sign privkey (bytes ++ utf8 l2Id)))]⟩, ⟨admission, ?_⟩, ?_⟩
  · rw [← hadm]
    refine requirePeerKey_congr ?_ ?_
    · rw [header_cons_self, header_cons_self]
    · rw [header_cons_of_ne (by decide), header_cons_self, header_cons_of_ne (by decide),
        header_cons_self]
  · rw [hbody]
    refine requireForwarderIdentity_signed sch ?_ hne hent hentne
      (fun h => Bool.noConfusion h) hkey (b64u_ne_empty hpub) hsig (b64u_ne_empty (hsign _)) ?_
    · rw [header_cons_of_ne (by decide), header_cons_self, hstrip]
    · rw [header_cons_of_ne (by decide), header_cons_of_ne (by decide), header_cons_self,
        strip_b64u]

/-- A consent row that opens this L2 to some other Enterprise. -/
def ConsentRow.OpensTo (c : ConsentRow) (env : Environ) (now : String) : Prop :=
  c.responderEnterprise = enterprise env ∧ c.active now = true ∧
    (c.responderGroup = none ∨ c.responderGroup = some (group env)) ∧
    c.requesterEnterprise ≠ enterprise env ∧ c.requesterEnterprise ≠ "" ∧
    c.requesterGroup ≠ some ""

/-- Nobody who asks this query is told anything: no candidate belongs to this
Enterprise, and there is no candidate at all or no consent for any other Enterprise. -/
def NothingToDisclose (env : Environ) (store : Store N) (now : String)
    (base : ForwardQueryRequest N) : Prop :=
  (∀ h ∈ rawHits store base, h.enterpriseId ≠ enterprise env) ∧
    (rawHits store base = [] ∨ ∀ c ∈ store.consents, ¬ c.OpensTo env now)

/-- The request under other declared fields. -/
def ForwardQueryRequest.declaring (base : ForwardQueryRequest N) (ent grp : String)
    (hent : ent ≠ "") (hgrp : grp ≠ "") : ForwardQueryRequest N :=
  { base with
    requesterEnterprise := ent, requesterGroup := grp
    requesterEnterprise_ne := hent, requesterGroup_ne := hgrp }

theorem declaring_same (base : ForwardQueryRequest N) {ent grp : String} (hent : ent ≠ "")
    (hgrp : grp ≠ "") : SameButRequester base (base.declaring ent grp hent hgrp) :=
  ⟨rfl, rfl, rfl, rfl⟩

theorem rawHits_same {store : Store N} {b b' : ForwardQueryRequest N} (h : SameButRequester b b') :
    rawHits store b' = rawHits store b := by
  rw [rawHits, rawHits, h.queryVec, h.maxResults]

/-- Only a candidate of another Enterprise is denied, and only without a consent. -/
theorem policyFor_eq_denied_iff {env : Environ} {b : ForwardQueryRequest N}
    {consent : Option ConsentRow} {h : RawHit N} :
    policyFor env b consent h = .denied ↔
      b.requesterEnterprise ≠ h.enterpriseId ∧ consent = none := by
  unfold policyFor decidePolicyForKu
  by_cases hent : b.requesterEnterprise = h.enterpriseId
  · by_cases hgrp : b.requesterGroup = h.groupId
    · simp [hent, hgrp]
    · by_cases hflag : h.crossGroupAllowed = true <;> simp [hent, hgrp, hflag]
  · cases consent with
    | none => simp [hent]
    | some c => by_cases hfull : c.policy = "full_body" <;> simp [hent, hfull]

/-- An answer is empty when no consent is found and the declared Enterprise owns no
candidate, or is another one. -/
theorem respond_eq_nil_iff {env : Environ} {store : Store N} {now : String}
    {b : ForwardQueryRequest N} :
    (respond env store now b).response.results = [] ↔
      ∀ h ∈ rawHits store b, consentFor env store now b = none ∧
        (b.requesterEnterprise ≠ enterprise env ∨ b.requesterEnterprise ≠ h.enterpriseId) := by
  rw [respond_results]
  split
  · next hcond => exact ⟨fun _ h _ => ⟨hcond.2, .inl hcond.1⟩, fun _ => rfl⟩
  · next hcond =>
      rw [List.map_eq_nil_iff, List.take_eq_nil_iff, or_iff_right b.maxResults_pos.ne',
        List.filter_eq_nil_iff]
      refine forall₂_congr fun h _ => ?_
      rw [decide_eq_true_eq, not_not, policyFor_eq_denied_iff]
      constructor
      · exact fun hd => ⟨hd.2, .inr hd.1⟩
      · rintro ⟨hnone, hne | hne⟩
        · exact absurd ⟨hne, hnone⟩ hcond
        · exact ⟨hne, hnone⟩

/-- A consent found for a request opens this L2 to the Enterprise it declares. -/
theorem consentFor_opens {env : Environ} {store : Store N} {now : String}
    {b : ForwardQueryRequest N} {c : ConsentRow} (h : consentFor env store now b = some c) :
    c ∈ store.consents ∧ c.OpensTo env now := by
  unfold consentFor at h
  split at h
  · next hforeign =>
      obtain ⟨hmem, hadmits⟩ := findConsent_some h
      obtain ⟨hreq, hresp, hactive, hreqGrp, hrespGrp⟩ := admits_iff.mp hadmits
      refine ⟨hmem, hresp, hactive, hrespGrp, hreq ▸ hforeign, hreq ▸ b.requesterEnterprise_ne, ?_⟩
      rcases hreqGrp with hgrp | hgrp
      · rw [hgrp]
        exact (Option.some_ne_none "").symm
      · rw [hgrp]
        exact fun heq => b.requesterGroup_ne (Option.some.inj heq)
  · cases h

/-- A row that opens this L2 to an Enterprise is found by some request. -/
theorem exists_consentFor {env : Environ} {store : Store N} {now : String}
    (base : ForwardQueryRequest N) {c : ConsentRow} (hc : c ∈ store.consents)
    (hopens : c.OpensTo env now) :
    ∃ b, SameButRequester base b ∧ consentFor env store now b ≠ none := by
  obtain ⟨hresp, hactive, hrespGrp, hforeign, hne, hgrp⟩ := hopens
  obtain ⟨g, hg, hreqGrp⟩ : ∃ g, g ≠ "" ∧ (c.requesterGroup = none ∨ c.requesterGroup = some g) := by
    cases hcg : c.requesterGroup with
    | none => exact ⟨"x", by decide, .inl rfl⟩
    | some g => exact ⟨g, fun heq => hgrp (by rw [hcg, heq]), .inr rfl⟩
  refine ⟨base.declaring c.requesterEnterprise g hne hg, declaring_same base hne hg, ?_⟩
  have hadmits : c.admits c.requesterEnterprise (enterprise env) (some g) (some (group env)) now =
      true := admits_iff.mpr ⟨rfl, hresp, hactive, hreqGrp, hrespGrp⟩
  rw [consentFor, if_pos (show (base.declaring _ _ hne hg).requesterEnterprise ≠ _ from hforeign),
    Ne, findConsent_none_iff]
  intro hall
  exact Bool.noConfusion (hadmits.symm.trans (hall c hc))

/-- A nonempty Enterprise that is not this one and that no consent row names. -/
theorem exists_stranger (env : Environ) (consents : List ConsentRow) :
    ∃ ent : String, ent ≠ "" ∧ ent ≠ enterprise env ∧
      ∀ c ∈ consents, c.requesterEnterprise ≠ ent := by
  have hinj : Function.Injective fun n : Nat => String.ofList (List.replicate n 'x') := by
    intro m n h
    have hlist := congrArg (fun s => s.toList.length) h
    simpa using hlist
  have : Infinite String := Infinite.of_injective _ hinj
  obtain ⟨ent, hent⟩ := Infinite.exists_notMem_finset
    (("" :: enterprise env :: consents.map ConsentRow.requesterEnterprise).toFinset)
  simp only [List.mem_toFinset, List.mem_cons, List.mem_map, not_or, not_exists, not_and] at hent
  exact ⟨ent, hent.1, hent.2.1, hent.2.2⟩

/-- A stranger is told nothing. -/
theorem respond_stranger {env : Environ} {store : Store N} {now : String}
    {b : ForwardQueryRequest N} (hne : b.requesterEnterprise ≠ enterprise env)
    (hnone : ∀ c ∈ store.consents, c.requesterEnterprise ≠ b.requesterEnterprise) :
    (respond env store now b).response.results = [] := by
  have hconsent : consentFor env store now b = none := by
    rw [consentFor, if_pos hne, findConsent_none_iff]
    intro c hc
    refine Bool.eq_false_iff.mpr fun hadmits => ?_
    exact hnone c hc (admits_iff.mp hadmits).1
  exact respond_eq_nil_iff.mpr fun h _ => ⟨hconsent, .inl hne⟩

/-- **Identity binding.** For an L2 that can authenticate its requests, what a query
discloses is independent of the declared requester exactly where there is nothing to
disclose to anyone. -/
theorem identity_bound_iff {env : Environ} {root : Option Bytes} {store : Store N} {now : String}
    {base : ForwardQueryRequest N}
    (hauth : CanAuthenticate sch canonicalize env root store base.requesterL2Id) :
    IdentityBound sch canonicalize env root store now base ↔
      NothingToDisclose env store now base := by
  constructor
  · intro hbound
    -- everyone is told what a stranger is told
    have hempty : ∀ b, SameButRequester base b →
        (respond env store now b).response.results = [] := by
      intro b hsame
      obtain ⟨ent, hent, hown, hstranger⟩ := exists_stranger env store.consents
      have hsame' := declaring_same base hent (show "x" ≠ "" by decide)
      obtain ⟨request, hreq⟩ := hauth b hsame.requesterL2Id
      obtain ⟨request', hreq'⟩ := hauth _ hsame'.requesterL2Id
      rw [hbound hsame hsame' ((aigrpForwardQuery_ok_iff sch canonicalize).mpr ⟨hreq, rfl⟩)
        ((aigrpForwardQuery_ok_iff sch canonicalize).mpr ⟨hreq', rfl⟩)]
      exact respond_stranger hown hstranger
    refine ⟨fun h hmem hent => ?_, ?_⟩
    · -- a request that declares this Enterprise is told of its units
      have hne : enterprise env ≠ "" := hent ▸ rawHits_enterprise_ne hmem
      have hsame := declaring_same base hne (show "x" ≠ "" by decide)
      have hdenied := respond_eq_nil_iff.mp (hempty _ hsame) h (by rwa [rawHits_same hsame])
      rcases hdenied.2 with hforeign | hforeign
      · exact hforeign rfl
      · exact hforeign hent.symm
    · -- a request that finds a consent is told of every unit
      by_contra hcond
      obtain ⟨hraw, hopen⟩ := not_or.mp hcond
      push Not at hopen
      obtain ⟨c, hc, hopens⟩ := hopen
      obtain ⟨h, hmem⟩ := List.exists_mem_of_ne_nil _ hraw
      obtain ⟨b, hsame, hfound⟩ := exists_consentFor base hc hopens
      exact hfound (respond_eq_nil_iff.mp (hempty b hsame) h (by rwa [rawHits_same hsame])).1
  · rintro ⟨hown, hclosed⟩ b b' request request' out out' hsame hsame' hok hok'
    have hempty : ∀ b, SameButRequester base b →
        (respond env store now b).response.results = [] := by
      intro b hsame
      refine respond_eq_nil_iff.mpr fun h hmem => ?_
      rw [rawHits_same hsame] at hmem
      have hnone : consentFor env store now b = none := by
        cases hfor : consentFor env store now b with
        | none => rfl
        | some c =>
            obtain ⟨hc, hopens⟩ := consentFor_opens hfor
            rcases hclosed with hraw | hclosed
            · rw [hraw] at hmem
              cases hmem
            · exact absurd hopens (hclosed c hc)
      refine ⟨hnone, or_iff_not_imp_left.mpr fun hent => ?_⟩
      rw [not_not.mp hent]
      exact (hown h hmem).symm
    obtain ⟨-, rfl⟩ := (aigrpForwardQuery_ok_iff sch canonicalize).mp hok
    obtain ⟨-, rfl⟩ := (aigrpForwardQuery_ok_iff sch canonicalize).mp hok'
    rw [hempty b hsame, hempty b' hsame']

/-! ### A declared group

`acme/eng` holds one unit of its own; `acme/hr` asks for it, once as itself and once as
`acme/eng`. -/

/-- Floats of the sample: the one embedding it uses has similarity 1 to its query. -/
def sampleNumeric : Numeric where
  Float := Nat
  isZero q := q.all (· = 0)
  similarity _ blob := if blob = [] then none else some 1
  le a b := a ≤ b
  json := .ofNat

/-- `acme/eng`, with a shared peer key. -/
def sampleResponder : Environ where
  lookup name := [("CQ_ENTERPRISE", "acme"), ("CQ_GROUP", "eng"),
    ("CQ_AIGRP_PEER_KEY", "peer-key")].lookup name

/-- A store of one approved unit and some consents, which knows no peer. -/
def sampleStore (ent grp : String) (consents : List ConsentRow) : Store sampleNumeric where
  peers := ⟨[], List.nodup_nil⟩
  consents := consents
  units := [{ unit := ⟨"ku_00000000000000000000000000000001", ["billing"], "s", "d", "a", (1 : Nat)⟩
              embedding := some [0, 0, 128, 63]
              enterpriseId := some ent
              groupId := some grp
              crossGroupAllowed := some 0
              status := "approved" }]
  nodup := List.nodup_singleton _

theorem sampleQuery_vec : ([(1 : Nat)] : List sampleNumeric.Float) ≠ [] := List.cons_ne_nil _ _
theorem sampleQuery_pos : 0 < 5 := by decide
theorem sampleQuery_le : 5 ≤ 20 := by decide

/-- A query of an L2 that declares an Enterprise and a group. -/
def sampleQuery (l2Id ent grp : String) (hl2Id : l2Id ≠ "" := by decide)
    (hent : ent ≠ "" := by decide) (hgrp : grp ≠ "" := by decide) :
    ForwardQueryRequest sampleNumeric where
  queryVec := [(1 : Nat)]
  queryText := "billing"
  requesterL2Id := l2Id
  requesterEnterprise := ent
  requesterGroup := grp
  requesterPersona := ""
  maxResults := 5
  queryVec_ne := sampleQuery_vec
  requesterL2Id_ne := hl2Id
  requesterEnterprise_ne := hent
  requesterGroup_ne := hgrp
  maxResults_pos := sampleQuery_pos
  maxResults_le := sampleQuery_le

/-- The headers of an L2 that holds the shared key. -/
def sampleHeaders (l2Id : String) : Request :=
  ⟨[("authorization", "Bearer peer-key"), (forwarderHeader, l2Id)]⟩

/-- The one candidate. -/
def sampleHit (ent grp : String) : RawHit sampleNumeric where
  unit := ⟨"ku_00000000000000000000000000000001", ["billing"], "s", "d", "a", (1 : Nat)⟩
  similarity := (1 : Nat)
  enterpriseId := ent
  groupId := grp
  crossGroupAllowed := false

theorem sample_rawHits {ent grp : String} (hent : ent ≠ "") (hgrp : grp ≠ "")
    (consents : List ConsentRow) {b : ForwardQueryRequest sampleNumeric}
    (hvec : b.queryVec = [(1 : Nat)]) :
    rawHits (sampleStore ent grp consents) b = [sampleHit ent grp] := by
  have hlimit : b.maxResults * 3 = (b.maxResults * 3 - 1) + 1 := by
    have := b.maxResults_pos
    omega
  unfold rawHits semanticQueryWithScope
  rw [hvec, hlimit]
  simp [sampleStore, sampleHit, sampleNumeric, UnitRow.score, UnitRow.owner, pyOr, hent, hgrp]

theorem sample_authenticated (consents : List ConsentRow) (ent grp : String)
    {b : ForwardQueryRequest sampleNumeric} {l2Id : String} (hl2Id : b.requesterL2Id = l2Id)
    (hknown : l2Id = "acme/hr" ∨ l2Id = "initech/lab") :
    Authenticated .transparent sampleCanonicalize sampleResponder none
      (sampleStore ent grp consents) (sampleHeaders l2Id) b := by
  unfold Authenticated
  rw [hl2Id]
  rcases hknown with rfl | rfl
  · exact ⟨⟨.sharedKey, by rfl⟩, by rfl⟩
  · exact ⟨⟨.sharedKey, by rfl⟩, by rfl⟩

theorem sample_canAuthenticate (consents : List ConsentRow) (ent grp : String) :
    CanAuthenticate .transparent sampleCanonicalize sampleResponder none
      (sampleStore ent grp consents) "acme/hr" :=
  fun _ hl2Id => ⟨_, sample_authenticated consents ent grp hl2Id (.inl rfl)⟩

theorem identity_bound_iff_sample :
    IdentityBound .transparent sampleCanonicalize sampleResponder none
        (sampleStore "acme" "eng" []) "2026-01-01T00:00:00+00:00"
        (sampleQuery "acme/hr" "acme" "hr") ↔
      NothingToDisclose sampleResponder (sampleStore "acme" "eng" [])
        "2026-01-01T00:00:00+00:00" (sampleQuery "acme/hr" "acme" "hr") :=
  identity_bound_iff .transparent sampleCanonicalize (sample_canAuthenticate [] "acme" "eng")

/-- What a query that declares `acme` is told of the unit of `acme/eng`. -/
theorem sample_results {b : ForwardQueryRequest sampleNumeric} (hvec : b.queryVec = [(1 : Nat)])
    (hent : b.requesterEnterprise = "acme") (now : String) :
    (respond sampleResponder (sampleStore "acme" "eng" []) now b).response.results =
      [(sampleHit "acme" "eng").disclose
        (if b.requesterGroup = "eng" then .fullBody else .summaryOnly)] := by
  have hown : enterprise sampleResponder = "acme" := by decide
  have hmax : b.maxResults = (b.maxResults - 1) + 1 := by
    have := b.maxResults_pos
    omega
  rw [respond_results, sample_rawHits (by decide) (by decide) [] hvec, hent, hown,
    if_neg (by simp), hmax]
  by_cases hgrp : b.requesterGroup = "eng" <;>
    simp [policyFor, decidePolicyForKu, sampleHit, hent, hgrp]

/-- `acme/hr` reads the body of a unit of `acme/eng` by declaring that group. -/
theorem declared_group_decides :
    ¬ IdentityBound .transparent sampleCanonicalize sampleResponder none
      (sampleStore "acme" "eng" []) "2026-01-01T00:00:00+00:00"
      (sampleQuery "acme/hr" "acme" "hr") := by
  intro hbound
  have hhr : SameButRequester (sampleQuery "acme/hr" "acme" "hr")
      (sampleQuery "acme/hr" "acme" "hr") := ⟨rfl, rfl, rfl, rfl⟩
  have heng : SameButRequester (sampleQuery "acme/hr" "acme" "hr")
      (sampleQuery "acme/hr" "acme" "eng") := ⟨rfl, rfl, rfl, rfl⟩
  have hsame := hbound hhr heng
    ((aigrpForwardQuery_ok_iff ..).mpr ⟨sample_authenticated [] _ _ rfl (.inl rfl), rfl⟩)
    ((aigrpForwardQuery_ok_iff ..).mpr ⟨sample_authenticated [] _ _ rfl (.inl rfl), rfl⟩)
  rw [sample_results rfl rfl, sample_results rfl rfl] at hsame
  have hdetail := congrArg ForwardHit.detail (List.cons.inj hsame).1
  exact absurd hdetail (by decide)

/-! ## Consent scope -/

/-- An active consent row from the requester's Enterprise to the owner of a unit, for
their groups. -/
def ConsentRow.Covers (c : ConsentRow) (body : ForwardQueryRequest N) (now : String)
    (owner : String × String) : Prop :=
  c.admits body.requesterEnterprise owner.1 (some body.requesterGroup) (some owner.2) now = true

/-- A hit shows no more than the policy of a consent row allows. -/
def ForwardHit.Within (hit : ForwardHit N) (policy : String) : Prop :=
  policy = "full_body" ∨ (hit.detail = none ∧ hit.action = none)

/-- Every unit of another Enterprise than the requester's is returned on a consent of its
own owner, within the policy of that consent. -/
def ConsentScoped (store : Store N) (now : String) (body : ForwardQueryRequest N)
    (results : List (ForwardHit N)) : Prop :=
  ∀ hit ∈ results, ∀ u ∈ store.units, u.unit.id = hit.kuId →
    u.owner.1 ≠ body.requesterEnterprise →
    ∃ c ∈ store.consents, c.Covers body now u.owner ∧ hit.Within c.policy

/-- The consent the route found covers what it is applied to: there is none, or each of
the first candidates is the requester's own or has a consent of its own that allows as
much. -/
def FoundConsentCovers (env : Environ) (store : Store N) (now : String)
    (body : ForwardQueryRequest N) : Prop :=
  ∀ found, consentFor env store now body = some found →
    ∀ h ∈ (rawHits store body).take body.maxResults,
      h.enterpriseId ≠ body.requesterEnterprise →
      ∃ c ∈ store.consents, c.Covers body now (h.enterpriseId, h.groupId) ∧
        (found.policy = "full_body" → c.policy = "full_body")

/-- The row of a candidate is determined by the unit's id. -/
theorem owner_of_rawHit {store : Store N} {body : ForwardQueryRequest N} {h : RawHit N}
    (hmem : h ∈ rawHits store body) {u : UnitRow N} (hu : u ∈ store.units)
    (hid : u.unit.id = h.unit.id) : u.owner = (h.enterpriseId, h.groupId) := by
  obtain ⟨u', hu', hscore⟩ := mem_rawHits hmem
  obtain ⟨hunit, howner⟩ := score_eq_some hscore
  have heq : u = u' := List.inj_on_of_nodup_map store.nodup hu hu' (by rw [hid, hunit])
  rw [heq, howner]

/-- With a consent found, the first candidates are all returned. -/
theorem respond_results_of_consent {env : Environ} {store : Store N} {now : String}
    {body : ForwardQueryRequest N} {found : ConsentRow}
    (hfound : consentFor env store now body = some found) :
    (respond env store now body).response.results =
      ((rawHits store body).take body.maxResults).map fun h =>
        h.disclose (policyFor env body (some found) h) := by
  rw [respond_results, hfound, if_neg (by simp)]
  have hall : (rawHits store body).filter (fun h =>
      policyFor env body (some found) h ≠ .denied) = rawHits store body := by
    refine List.filter_eq_self.mpr fun h _ => decide_eq_true fun hdenied => ?_
    exact Option.some_ne_none found (policyFor_eq_denied_iff.mp hdenied).2
  rw [hall]

/-- Without one, only the requester's own Enterprise is returned. -/
theorem enterprise_of_result {env : Environ} {store : Store N} {now : String}
    {body : ForwardQueryRequest N} (hnone : consentFor env store now body = none)
    {hit : ForwardHit N} (hmem : hit ∈ (respond env store now body).response.results) :
    ∃ h ∈ rawHits store body, h.unit.id = hit.kuId ∧ h.enterpriseId = body.requesterEnterprise := by
  rw [respond_results] at hmem
  split at hmem
  · cases hmem
  · obtain ⟨h, hh, rfl⟩ := List.mem_map.mp hmem
    obtain ⟨hraw, hpol⟩ := List.mem_filter.mp (List.mem_of_mem_take hh)
    refine ⟨h, hraw, rfl, ?_⟩
    by_contra hne
    exact of_decide_eq_true hpol (policyFor_eq_denied_iff.mpr ⟨Ne.symm hne, hnone⟩)

/-- The policy of a foreign candidate is that of the consent found. -/
theorem within_disclose_iff {env : Environ} {body : ForwardQueryRequest N} {found : ConsentRow}
    {h : RawHit N} (hforeign : h.enterpriseId ≠ body.requesterEnterprise) {policy : String} :
    (h.disclose (policyFor env body (some found) h)).Within policy ↔
      (found.policy = "full_body" → policy = "full_body") := by
  have hne : body.requesterEnterprise ≠ h.enterpriseId := hforeign.symm
  by_cases hfull : found.policy = "full_body"
  · simp [ForwardHit.Within, RawHit.disclose, policyFor, decidePolicyForKu, hne, hfull]
  · simp [ForwardHit.Within, RawHit.disclose, policyFor, decidePolicyForKu, hne, hfull]

/-- What is shown of a foreign candidate needs a consent of its owner. -/
theorem covers_of_consentScoped {env : Environ} {store : Store N} {now : String}
    {body : ForwardQueryRequest N}
    (hscoped : ConsentScoped store now body (respond env store now body).response.results) :
    FoundConsentCovers env store now body := by
  intro found hfound h hmem hforeign
  have hraw := List.mem_of_mem_take hmem
  obtain ⟨u, hu, hscore⟩ := mem_rawHits hraw
  have hunit := (score_eq_some hscore).1
  have hid : u.unit.id = h.unit.id := (congrArg KnowledgeUnit.id hunit).symm
  have howner := owner_of_rawHit hraw hu hid
  have hhit : h.disclose (policyFor env body (some found) h) ∈
      (respond env store now body).response.results := by
    rw [respond_results_of_consent hfound]
    exact List.mem_map_of_mem hmem
  obtain ⟨c, hc, hcovers, hwithin⟩ := hscoped _ hhit u hu hid (by rw [howner]; exact hforeign)
  rw [howner] at hcovers
  exact ⟨c, hc, hcovers, (within_disclose_iff hforeign).mp hwithin⟩

/-- Such consents are enough. -/
theorem consentScoped_of_covers {env : Environ} {store : Store N} {now : String}
    {body : ForwardQueryRequest N} (hcond : FoundConsentCovers env store now body) :
    ConsentScoped store now body (respond env store now body).response.results := by
  intro hit hhit u hu hid hforeign
  cases hfound : consentFor env store now body with
  | none =>
      obtain ⟨h, hraw, hkid, hent⟩ := enterprise_of_result hfound hhit
      have howner := owner_of_rawHit hraw hu (by rw [hid, hkid])
      rw [howner] at hforeign
      exact absurd hent hforeign
  | some found =>
      rw [respond_results_of_consent hfound] at hhit
      obtain ⟨h, hmem, rfl⟩ := List.mem_map.mp hhit
      have howner := owner_of_rawHit (List.mem_of_mem_take hmem) hu hid
      rw [howner] at hforeign ⊢
      obtain ⟨c, hc, hcovers, hpol⟩ := hcond found hfound h hmem hforeign
      exact ⟨c, hc, hcovers, (within_disclose_iff hforeign).mpr hpol⟩

/-- **Consent scope.** An accepted request is answered within the consents of the units'
owners exactly where the one consent the route found covers them. -/
theorem consent_scoped_iff {env : Environ} {root : Option Bytes} {store : Store N} {now : String}
    {request : Request} {body : ForwardQueryRequest N} {out : ForwardOutcome N}
    (hok : aigrpForwardQuery sch canonicalize env root store now request body = .ok out) :
    ConsentScoped store now body out.response.results ↔ FoundConsentCovers env store now body := by
  obtain ⟨-, rfl⟩ := (aigrpForwardQuery_ok_iff sch canonicalize).mp hok
  exact ⟨covers_of_consentScoped, consentScoped_of_covers⟩

/-- Where one tenant has the store to itself, the consent found is the one needed. -/
theorem consent_scoped_of_single_tenant {env : Environ} {root : Option Bytes} {store : Store N}
    {now : String} {request : Request} {body : ForwardQueryRequest N} {out : ForwardOutcome N}
    (hsingle : ∀ u ∈ store.units, u.owner = (enterprise env, group env))
    (hok : aigrpForwardQuery sch canonicalize env root store now request body = .ok out) :
    ConsentScoped store now body out.response.results := by
  obtain ⟨-, rfl⟩ := (aigrpForwardQuery_ok_iff sch canonicalize).mp hok
  refine consentScoped_of_covers fun found hfound h hmem hforeign => ?_
  have howner : (h.enterpriseId, h.groupId) = (enterprise env, group env) := by
    obtain ⟨u, hu, hscore⟩ := mem_rawHits (List.mem_of_mem_take hmem)
    exact (score_eq_some hscore).2.trans (hsingle u hu)
  unfold consentFor at hfound
  split at hfound
  · obtain ⟨hc, hadmits⟩ := findConsent_some hfound
    refine ⟨found, hc, ?_, id⟩
    rw [howner]
    exact hadmits
  · cases hfound

/-! ### A unit of a third Enterprise

`acme/eng` holds a unit of `globex`, and shares with `initech`. -/

/-- `acme` shares everything with `initech`. -/
def sampleConsent : ConsentRow where
  consentId := "consent-1"
  requesterEnterprise := "initech"
  responderEnterprise := "acme"
  requesterGroup := none
  responderGroup := none
  policy := "full_body"
  signedByAdmin := "admin"
  signedAt := "2026-01-01T00:00:00+00:00"
  expiresAt := none
  auditLogId := "audit-1"

theorem sampleForeign_accepted :
    aigrpForwardQuery .transparent sampleCanonicalize sampleResponder none
      (sampleStore "globex" "sales" [sampleConsent]) "2026-01-02T00:00:00+00:00"
      (sampleHeaders "initech/lab") (sampleQuery "initech/lab" "initech" "lab") =
      .ok (respond sampleResponder (sampleStore "globex" "sales" [sampleConsent])
        "2026-01-02T00:00:00+00:00" (sampleQuery "initech/lab" "initech" "lab")) :=
  (aigrpForwardQuery_ok_iff ..).mpr
    ⟨sample_authenticated [sampleConsent] _ _ rfl (.inr rfl), rfl⟩

theorem consent_scoped_iff_sample :
    ConsentScoped (sampleStore "globex" "sales" [sampleConsent]) "2026-01-02T00:00:00+00:00"
        (sampleQuery "initech/lab" "initech" "lab")
        (respond sampleResponder (sampleStore "globex" "sales" [sampleConsent])
          "2026-01-02T00:00:00+00:00"
          (sampleQuery "initech/lab" "initech" "lab")).response.results ↔
      FoundConsentCovers sampleResponder (sampleStore "globex" "sales" [sampleConsent])
        "2026-01-02T00:00:00+00:00" (sampleQuery "initech/lab" "initech" "lab") :=
  consent_scoped_iff .transparent sampleCanonicalize sampleForeign_accepted

theorem sampleForeign_consent :
    consentFor sampleResponder (sampleStore "globex" "sales" [sampleConsent])
      "2026-01-02T00:00:00+00:00" (sampleQuery "initech/lab" "initech" "lab") =
      some sampleConsent := by
  rfl

/-- The consent of `acme` discloses the body of a unit of `globex`, which never consented
to anything. -/
theorem foreign_unit_disclosed :
    ∃ out, aigrpForwardQuery .transparent sampleCanonicalize sampleResponder none
        (sampleStore "globex" "sales" [sampleConsent]) "2026-01-02T00:00:00+00:00"
        (sampleHeaders "initech/lab") (sampleQuery "initech/lab" "initech" "lab") = .ok out ∧
      ¬ ConsentScoped (sampleStore "globex" "sales" [sampleConsent])
        "2026-01-02T00:00:00+00:00" (sampleQuery "initech/lab" "initech" "lab")
        out.response.results := by
  refine ⟨_, sampleForeign_accepted, fun hscoped => ?_⟩
  have hraw : rawHits (sampleStore "globex" "sales" [sampleConsent])
      (sampleQuery "initech/lab" "initech" "lab") = [sampleHit "globex" "sales"] :=
    sample_rawHits (by decide) (by decide) [sampleConsent] rfl
  rw [respond_results_of_consent sampleForeign_consent, hraw] at hscoped
  obtain ⟨c, hc, hcovers, -⟩ := hscoped _ List.mem_cons_self _ List.mem_cons_self rfl (by decide)
  rw [List.mem_singleton.mp hc] at hcovers
  exact absurd (admits_iff.mp hcovers).2.1 (by decide)

end EighthLayer.Aigrp
