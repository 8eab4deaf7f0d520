import EighthLayer.Knowledge.Propose

/-!
# EighthLayer.Knowledge.Agreement

Whether what a user proposes can be read under the tenancy of the user's own row.

The proposal is written under the tenancy that `resolve_tenancy` gives, and read under that
of the row. The two agree when the row is written as it is (`OwnTenancy`).
-/

namespace EighthLayer.Knowledge

open Lib
open Aigrp (strip)

section Agreement

variable {F : Type} {s s' : Store F}

/-! ## What a proposal writes -/

/-- A row that a proposal has written under a tenancy. -/
structure ProposedRow [Casing] (unit : KnowledgeUnit F) (ent grp : String) (r : Row F) : Prop where
  id : r.unit.id = unit.id
  domains : r.unit.domains = normalizeDomains unit.domains
  domains_ne : r.unit.domains ≠ []
  status : r.status = .pending
  enterprise : r.enterpriseId = ent
  group : r.groupId = grp
  cross : r.crossGroupAllowed = 0

section Writing

variable [Casing]

theorem insert_row {unit : KnowledgeUnit F} {ent grp now : String}
    (h : s.insert unit (some ent) (some grp) now = some s') :
    ∃ r, s'.units.find unit.id = some r ∧ ProposedRow unit ent grp r := by
  unfold Store.insert at h
  split at h
  · cases h
  · rename_i hne
    exact ⟨insertedRow unit (some ent) (some grp) now,
      Table.find_insert_self (Store.insertRow_eq_some h), rfl, rfl, hne, rfl, rfl, rfl, rfl⟩

theorem setEmbedding_row {unit : KnowledgeUnit F} {ent grp : String} {embedding : Bytes} {r : Row F}
    (hr : s.units.find unit.id = some r) (h : ProposedRow unit ent grp r) :
    ∃ r', (s.setEmbedding unit.id embedding).units.find unit.id = some r' ∧
      ProposedRow unit ent grp r' := by
  have hid : r.id = unit.id := (Table.find_eq_some_iff.mp hr).2
  refine ⟨{ r with embedding := some embedding }, ?_, h.id, h.domains, h.domains_ne, h.status,
    h.enterprise, h.group, h.cross⟩
  unfold Store.setEmbedding
  rw [Store.updateColumns_find, hr]
  simp [hid]

theorem propose_row [Floats F] {env : Environ} {username : String} {user : UserRow} {request : ProposeRequest}
    {id now : String} {embedding : Option Bytes} {unit : KnowledgeUnit F}
    (h : propose s env username user request id now embedding = .ok (unit, s')) :
    ∃ ent grp r, truthy user.enterpriseId = true ∧ truthy user.groupId = true ∧
      resolveWriteTenancy env user = .ok (ent, grp) ∧ s'.units.find unit.id = some r ∧
        ProposedRow unit ent grp r := by
  unfold propose at h
  split at h
  · cases h
  · rename_i htruthy
    obtain ⟨hent, hgrp⟩ := not_or.mp htruthy
    split at h
    · cases h
    · rename_i ent grp hresolve
      dsimp only at h
      split at h
      · cases h
      · split at h
        · cases h
        · split at h
          · cases h
          · rename_i s₁ hinsert
            obtain ⟨r, hr, hrow⟩ := insert_row hinsert
            split at h
            · cases h
              exact ⟨ent, grp, r, not_not.mp hent, not_not.mp hgrp, hresolve, hr, hrow⟩
            · cases h
              obtain ⟨r', hr', hrow'⟩ := setEmbedding_row hr hrow
              exact ⟨ent, grp, r', not_not.mp hent, not_not.mp hgrp, hresolve, hr', hrow'⟩

end Writing

/-! ## Who reads it -/

theorem mem_page {α : Type} {a : α} {l : List α} {limit : Int} (h : (l.length : Int) ≤ limit) :
    a ∈ page limit 0 l ↔ a ∈ l := by
  unfold page
  dsimp only
  rw [Int.toNat_zero, List.drop_zero]
  split
  · exact Iff.rfl
  · rw [List.take_of_length_le (by omega)]

/-- A page that is long enough lists what is pending in its scope. -/
theorem mem_pendingQueue {limit : Int} (hlimit : (s.units.rows.length : Int) ≤ limit)
    {scope : Option String × Option String} {r : Row F} (hr : r ∈ s.units)
    (hpending : r.status = .pending) (hscope : r.inScope scope.1 scope.2 = true) :
    r.unit ∈ s.pendingQueue limit 0 scope := by
  unfold Store.pendingQueue
  dsimp only
  have hmem : r ∈ s.units.rows.filter fun r =>
      r.status = .pending && r.inScope scope.1 scope.2 :=
    List.mem_filter.mpr ⟨hr, by simp [hpending, hscope]⟩
  have hlength := List.length_filter_le
    (fun r : Row F => r.status = .pending && r.inScope scope.1 scope.2) s.units.rows
  refine List.mem_map.mpr ⟨r, ?_, rfl⟩
  cases hent : scope.1 with
  | none =>
      rw [hent] at hmem hlength
      refine (mem_page ?_).mpr (List.mem_mergeSort.mpr hmem)
      rw [List.length_mergeSort]
      omega
  | some ent =>
      rw [hent] at hmem hlength
      refine (mem_page ?_).mpr (mem_sortDesc.mpr hmem)
      rw [(sortDesc_perm _ _).length_eq]
      omega

section Reading

variable [Casing]

/-- A row of the user's own tenancy is in the scope of an admin with the same row. -/
theorem inScope_scopeFilter (env : Environ) (user : UserRow) {ent grp : String}
    (hent : user.enterpriseId = some ent) (hgrp : user.groupId = some grp) {r : Row F}
    (henterprise : r.enterpriseId = ent) (hgroup : r.groupId = grp) :
    r.inScope (scopeFilter env user).1 (scopeFilter env user).2 = true := by
  unfold scopeFilter
  split
  · simp [Row.inScope, hent, hgrp, henterprise, hgroup]
  · simp [Row.inScope, hent, henterprise]

/-- A pending row in the scope of an admin is decided by the admin. -/
theorem decideUnit_pending {env : Environ} {admin : UserRow} {r : Row F} {unitId : String}
    (hr : s.units.find unitId = some r) (hpending : r.status = .pending)
    (hscope : r.inScope (scopeFilter env admin).1 (scopeFilter env admin).2 = true)
    (username : String) (approve : Bool) (now : String) :
    (decideUnit s env username admin unitId approve now).1 =
      .decided (if approve then .approved else .rejected) := by
  have hstatus : s.getReviewStatus unitId (scopeFilter env admin) = some .pending := by
    unfold Store.getReviewStatus
    rw [hr, Option.bind_some, if_pos hscope, hpending]
  have hopen : r.status.terminal = false := by rw [hpending]; rfl
  have halone : ∀ d : Decision, ((setReviewStatus (F := F) unitId d username now
      (scopeFilter env admin).1 (scopeFilter env admin).2).alone s).1 = .decided true := by
    intro d
    have hexec : (Database.exec (A := ReviewStmt.Answer (F := F)) (ReviewStmt.decide unitId d
        username now (scopeFilter env admin).1 (scopeFilter env admin).2) s).1 = some true := by
      change ((ReviewStmt.decide unitId d username now (scopeFilter env admin).1
        (scopeFilter env admin).2).exec s).1 = some true
      simp [ReviewStmt.exec, hr, hscope, hopen]
    unfold setReviewStatus
    rw [Prog.alone_call, hexec]
    rfl
  unfold decideUnit
  simp only [hstatus]
  rw [if_neg (by simp)]
  cases approve with
  | true =>
      simp only [if_true, halone]
      rfl
  | false =>
      simp only [Bool.false_eq_true, if_false, reduceCtorEq, halone]
      rfl

/-- The own query of a user returns the approved units of the user's own tenancy. -/
theorem query_returns [Floats F] {user : UserRow} {ent grp : String}
    (hent : user.enterpriseId = some ent) (hgrp : user.groupId = some grp) {q : UnitQuery}
    (hpositive : 0 < q.limit) (hlimit : (s.units.rows.length : Int) ≤ q.limit) {unitId : String} :
    (∃ us, s.query q user.enterpriseId user.groupId = some us ∧ ∃ u ∈ us, u.id = unitId) ↔
      ∃ r, s.units.find unitId = some r ∧ r.status = .approved ∧ r.VisibleTo ⟨ent, grp⟩ ∧
        q.Matches r.unit := by
  have hquery : s.query q user.enterpriseId user.groupId =
      some ((s.ranking q ⟨ent, grp⟩).take q.limit.toNat) := by
    rw [hent, hgrp]
    exact Store.query_eq_take (t := ⟨ent, grp⟩) hpositive
  have hmem : ∀ u, u ∈ (s.ranking q ⟨ent, grp⟩).take q.limit.toNat ↔
      s.Offers ⟨ent, grp⟩ u ∧ q.Matches u := by
    intro u
    have hlength : (s.ranking q ⟨ent, grp⟩).length ≤ q.limit.toNat := by
      have hranked : (s.ranking q ⟨ent, grp⟩).length ≤ s.units.rows.length := by
        rw [Store.ranking, (sortDesc_perm _ _).length_eq]
        refine (List.length_filter_le _ _).trans ?_
        rw [Store.selectQueryUnits, List.length_map]
        exact List.length_filter_le _ _
      omega
    rw [List.take_of_length_le hlength, Store.ranking, mem_sortDesc, Store.mem_ranked]
  rw [hquery]
  constructor
  · rintro ⟨us, hus, u, hu, rfl⟩
    cases hus
    obtain ⟨⟨r, hr, hstatus, hvisible, rfl⟩, hmatches⟩ := (hmem u).mp hu
    exact ⟨r, Table.find_key hr, hstatus, hvisible, hmatches⟩
  · rintro ⟨r, hr, hstatus, hvisible, hmatches⟩
    obtain ⟨hr, hid⟩ := Table.find_eq_some_iff.mp hr
    exact ⟨_, rfl, r.unit, (hmem _).mpr ⟨⟨r, hr, hstatus, hvisible, rfl⟩, hmatches⟩, hid⟩

end Reading

/-! ## When they agree -/

/-- The tenancy that is written is that of the row: a row with real values has them without
spaces around them; any other row has the values of a configured environment, or, where
there is none, again its values without spaces around them. Nothing is written of a row
whose values are missing. -/
def OwnTenancy (env : Environ) (user : UserRow) : Prop :=
  ∀ ent grp, user.enterpriseId = some ent → user.groupId = some grp → ent ≠ "" → grp ≠ "" →
    if RealTenancy (strip ent) (strip grp) then (strip ent, strip grp) = (ent, grp)
    else match configuredTenancy env with
      | some configured => configured = (ent, grp)
      | none => strip ent ≠ "" → strip grp ≠ "" → (strip ent, strip grp) = (ent, grp)

/-- What is written of a row with values. -/
theorem resolveWriteTenancy_eq (env : Environ) {user : UserRow} {ent grp : String}
    (hent : user.enterpriseId = some ent) (hgrp : user.groupId = some grp) :
    resolveWriteTenancy env user =
      if RealTenancy (strip ent) (strip grp) then .ok (strip ent, strip grp)
      else match configuredTenancy env with
        | some configured => .ok configured
        | none =>
          if strip ent ≠ "" ∧ strip grp ≠ "" then .ok (strip ent, strip grp)
          else .error .notConfigured := by
  unfold resolveWriteTenancy resolveTenancy
  simp only [hent, hgrp, Option.getD_some]
  by_cases hreal : RealTenancy (strip ent) (strip grp)
  · simp [hreal]
  · simp only [if_neg hreal]
    cases configuredTenancy env with
    | some configured => simp
    | none =>
        by_cases hset : strip ent ≠ "" ∧ strip grp ≠ ""
        · simp [hset]
        · simp [hset]

theorem truthy_iff {o : Option String} : truthy o = true ↔ ∃ v, o = some v ∧ v ≠ "" := by
  cases o with
  | none => simp [truthy]
  | some v => simp [truthy]

theorem ownTenancy_iff {env : Environ} {user : UserRow} :
    OwnTenancy env user ↔ ∀ written, truthy user.enterpriseId = true →
      truthy user.groupId = true → resolveWriteTenancy env user = .ok written →
        user.enterpriseId = some written.1 ∧ user.groupId = some written.2 := by
  have hpair : ∀ {ent grp : String} {written : String × String}, user.enterpriseId = some ent →
      user.groupId = some grp →
        ((user.enterpriseId = some written.1 ∧ user.groupId = some written.2) ↔
          written = (ent, grp)) := by
    rintro ent grp ⟨e, g⟩ hent hgrp
    rw [hent, hgrp]
    simp [eq_comm]
  constructor
  · intro hown written hent hgrp hwritten
    obtain ⟨ent, hent, hent'⟩ := truthy_iff.mp hent
    obtain ⟨grp, hgrp, hgrp'⟩ := truthy_iff.mp hgrp
    have hvalues := hown ent grp hent hgrp hent' hgrp'
    rw [resolveWriteTenancy_eq env hent hgrp] at hwritten
    rw [hpair hent hgrp]
    split at hwritten
    · rename_i hreal
      rw [if_pos hreal] at hvalues
      exact (Except.ok.inj hwritten).symm.trans hvalues
    · rename_i hreal
      rw [if_neg hreal] at hvalues
      split at hwritten
      · rename_i configured hconfigured
        rw [hconfigured] at hvalues
        exact (Except.ok.inj hwritten).symm.trans hvalues
      · rename_i hconfigured
        rw [hconfigured] at hvalues
        split at hwritten
        · rename_i hset
          exact (Except.ok.inj hwritten).symm.trans (hvalues hset.1 hset.2)
        · cases hwritten
  · intro hwritten ent grp hent hgrp hent' hgrp'
    have hgives : ∀ written, resolveWriteTenancy env user = .ok written →
        written = (ent, grp) := by
      intro written h
      exact (hpair hent hgrp).mp (hwritten written (truthy_iff.mpr ⟨ent, hent, hent'⟩)
        (truthy_iff.mpr ⟨grp, hgrp, hgrp'⟩) h)
    rw [resolveWriteTenancy_eq env hent hgrp] at hgives
    split
    · rename_i hreal
      exact hgives _ (if_pos hreal)
    · rename_i hreal
      rw [if_neg hreal] at hgives
      split
      · rename_i configured hconfigured
        rw [hconfigured] at hgives
        exact hgives _ rfl
      · rename_i hconfigured
        rw [hconfigured] at hgives
        exact fun hset hset' => hgives _ (if_pos ⟨hset, hset'⟩)

section Theorem

variable [Floats F] [Casing]

/-- What becomes of a unit that a user has proposed: an admin with the same row finds it in the
queue and decides on it, and once it is approved the user's query for its domains returns
it. Pages and queries are long enough for all units. -/
structure ReadBack (env : Environ) (user : UserRow) (unit : KnowledgeUnit F) (s : Store F) :
    Prop where
  listed : ∀ (admin : UserRow) (limit : Int), admin.enterpriseId = user.enterpriseId →
    admin.groupId = user.groupId → (s.units.rows.length : Int) ≤ limit →
      ∃ u ∈ reviewQueue s env admin limit 0, u.id = unit.id
  decided : ∀ (admin : UserRow) (username : String) (approve : Bool) (now : String),
    admin.enterpriseId = user.enterpriseId → admin.groupId = user.groupId →
      (decideUnit s env username admin unit.id approve now).1 =
        .decided (if approve then .approved else .rejected)
  returned : ∀ (r : Row F) (v : Verdict) (later : Store F) (q : UnitQuery),
    s.units.find unit.id = some r → later.units.find unit.id = some (r.record v) →
      v.status = .approved → q.domains = unit.domains → 0 < q.limit →
        (later.units.rows.length : Int) ≤ q.limit →
          ∃ us, later.query q user.enterpriseId user.groupId = some us ∧ ∃ u ∈ us, u.id = unit.id

/-- A unit that is written under the tenancy of the row is read back. -/
theorem readBack_of_own {env : Environ} {user : UserRow} {unit : KnowledgeUnit F}
    {ent grp : String} {r : Row F} (hent : user.enterpriseId = some ent)
    (hgrp : user.groupId = some grp) (hr : s.units.find unit.id = some r)
    (hrow : ProposedRow unit ent grp r) : ReadBack env user unit s where
  listed admin limit hent' hgrp' hlimit := by
    have hscope := inScope_scopeFilter env admin (hent'.trans hent) (hgrp'.trans hgrp)
      hrow.enterprise hrow.group
    exact ⟨r.unit, mem_pendingQueue hlimit (Table.find_eq_some_iff.mp hr).1 hrow.status hscope,
      hrow.id⟩
  decided admin username approve now hent' hgrp' := by
    have hscope := inScope_scopeFilter env admin (hent'.trans hent) (hgrp'.trans hgrp)
      hrow.enterprise hrow.group
    exact decideUnit_pending hr hrow.status hscope username approve now
  returned r' v later q hr' hlater happroved hdomains hpositive hlimit := by
    obtain rfl := Option.some.inj (hr.symm.trans hr')
    refine (query_returns hent hgrp hpositive hlimit).mpr ⟨r.record v, hlater, happroved,
      ⟨hrow.enterprise, .inl hrow.group⟩, ?_⟩
    obtain ⟨d, hd⟩ := List.exists_mem_of_ne_nil _ hrow.domains_ne
    exact ⟨d, hd, by rwa [hdomains, ← hrow.domains]⟩

/-- Conversely, a unit that is read back is written under the tenancy of the row. -/
theorem own_of_readBack {env : Environ} {user : UserRow} {unit : KnowledgeUnit F}
    {vEnt vGrp ent grp : String} {r : Row F} (hent : user.enterpriseId = some vEnt)
    (hgrp : user.groupId = some vGrp) (hr : s.units.find unit.id = some r)
    (hrow : ProposedRow unit ent grp r) (hread : ReadBack env user unit s) :
    vEnt = ent ∧ vGrp = grp := by
  -- once it is approved, the user's query for its domains returns it
  set later : Store F := s.updateColumns (fun r => r.id = unit.id)
    (fun r => r.record ⟨.approved, none, none⟩) (fun r => r.record_unit _) with hlater
  have hrecorded : later.units.find unit.id = some (r.record ⟨.approved, none, none⟩) := by
    have hid : r.id = unit.id := (Table.find_eq_some_iff.mp hr).2
    rw [hlater, Store.updateColumns_find, hr]
    simp [hid]
  set q : UnitQuery := ⟨unit.domains, none, none, "", later.units.rows.length + 1⟩ with hq
  have hpositive : 0 < q.limit := Int.natCast_succ_pos _
  have hlimit : (later.units.rows.length : Int) ≤ q.limit := by
    simp only [hq]
    omega
  have hreturned := hread.returned r ⟨.approved, none, none⟩ later q hr hrecorded rfl rfl
    hpositive hlimit
  -- so its tenancy, the one that is written, is the one of the row
  obtain ⟨r', hr', -, ⟨henterprise, hgroup⟩, -⟩ :=
    (query_returns hent hgrp hpositive hlimit).mp hreturned
  obtain rfl := Option.some.inj (hrecorded.symm.trans hr')
  refine ⟨henterprise.symm.trans hrow.enterprise, ?_⟩
  rcases hgroup with hgroup | hcross
  · exact hgroup.symm.trans hrow.group
  · exact absurd hrow.cross hcross

/-- A text that `lower` leaves as it is. -/
def LowerAscii (s : String) : Prop :=
  (s.toList.all fun c => decide (c.toNat < 128) && !c.isUpper) = true

instance (s : String) : Decidable (LowerAscii s) := inferInstanceAs (Decidable (_ = true))

/-- A proposal that nothing is wrong with. -/
def plainProposal : ProposeRequest where
  domains := ["api"]
  insight :=
    ⟨"retry on throttling errors", "the service answers with errors under load",
      "back off and try again"⟩
  context := ⟨[], [], ""⟩
  tier := some .private

omit [Floats F] in
theorem plainProposal_domains (hlower : ∀ s, LowerAscii s → Casing.lower s = s) :
    normalizeDomains plainProposal.domains = ["api"] := by
  have hstrip : strip "api" = "api" := by decide +kernel
  have hascii : LowerAscii "api" := by decide +kernel
  simp [normalizeDomains, plainProposal, hstrip, hlower _ hascii]

omit [Floats F] in
theorem plainProposal_quality (hlower : ∀ s, LowerAscii s → Casing.lower s = s) :
    checkProposeQuality ["api"] plainProposal.insight = none := by
  have hkept : ∀ s, strip s = s → LowerAscii s → normalizeText s = s := by
    intro s hstrip hascii
    rw [normalizeText, hstrip, hlower s hascii]
  have hdomain := hkept "api" (by decide +kernel) (by decide +kernel)
  have hsummary := hkept plainProposal.insight.summary (by decide +kernel) (by decide +kernel)
  have hdetail := hkept plainProposal.insight.detail (by decide +kernel) (by decide +kernel)
  have hsets : placeholderDomains ["api"] = false := by
    have hstrip : strip "api" ≠ "" := by decide +kernel
    simp [placeholderDomains, hstrip, hdomain, placeholderDomainSets]
  have hword : placeholderSummary plainProposal.insight.summary = false := by decide +kernel
  have hlong : tooShort plainProposal.insight = none := by decide +kernel
  have hdiffer : ¬ plainProposal.insight.summary = plainProposal.insight.detail := by
    decide +kernel
  unfold checkProposeQuality
  rw [hsets, hword, hlong, hsummary, hdetail]
  simp [hdiffer]

/-- It is taken, under the tenancy that is resolved. -/
theorem plainProposal_ok (hlower : ∀ s, LowerAscii s → Casing.lower s = s) {env : Environ}
    {user : UserRow} {written : String × String} (hent : truthy user.enterpriseId = true)
    (hgrp : truthy user.groupId = true) (hresolve : resolveWriteTenancy env user = .ok written) :
    ∃ unit s', propose (.empty : Store F) env "alice" user plainProposal "ku_1" "" none =
      .ok (unit, s') := by
  have hdomains := plainProposal_domains hlower
  unfold propose
  rw [if_neg (by simp [hent, hgrp]), hresolve]
  simp only [hdomains, plainProposal_quality hlower]
  rw [if_neg (List.cons_ne_nil _ _)]
  set unit : KnowledgeUnit F := createKnowledgeUnit ["api"] plainProposal.insight
    plainProposal.context (plainProposal.tier.getD (defaultKuTier env)) "alice" "ku_1" ""
    with hunit
  -- no unit is there that could have its id
  have hinsert : (Store.empty : Store F).insert unit (some written.1) (some written.2) "" ≠
      none := by
    have hne : normalizeDomains unit.domains ≠ [] := by
      change normalizeDomains plainProposal.domains ≠ []
      rw [hdomains]
      exact List.cons_ne_nil _ _
    unfold Store.insert
    rw [if_neg hne]
    intro hnone
    obtain ⟨r, hr, -⟩ := Store.insertRow_eq_none_iff.mp hnone
  obtain ⟨s', hs'⟩ := Option.ne_none_iff_exists'.mp hinsert
  exact ⟨unit, s', by rw [hs']⟩

/-- **Agreement.** Whatever a user proposes is read back if and only if the tenancy that is
written is that of the user's row. -/
theorem tenancy_agrees_iff (hlower : ∀ s, LowerAscii s → Casing.lower s = s) (env : Environ)
    (user : UserRow) :
    (∀ (s s' : Store F) (username : String) (request : ProposeRequest) (id now : String)
      (embedding : Option Bytes) (unit : KnowledgeUnit F),
        propose s env username user request id now embedding = .ok (unit, s') →
          ReadBack env user unit s') ↔ OwnTenancy env user := by
  constructor
  · intro hread
    refine ownTenancy_iff.mpr fun written hent hgrp hresolve => ?_
    obtain ⟨unit, s', hproposed⟩ := plainProposal_ok (F := F) hlower hent hgrp hresolve
    obtain ⟨ent, grp, r, -, -, hresolve', hr, hrow⟩ := propose_row hproposed
    obtain rfl := Except.ok.inj (hresolve.symm.trans hresolve')
    obtain ⟨vEnt, hvEnt, -⟩ := truthy_iff.mp hent
    obtain ⟨vGrp, hvGrp, -⟩ := truthy_iff.mp hgrp
    have hread' := hread .empty s' "alice" plainProposal "ku_1" "" none unit hproposed
    obtain ⟨rfl, rfl⟩ := own_of_readBack hvEnt hvGrp hr hrow hread'
    exact ⟨hvEnt, hvGrp⟩
  · intro hown s s' username request id now embedding unit hproposed
    obtain ⟨ent, grp, r, hent, hgrp, hresolve, hr, hrow⟩ := propose_row hproposed
    obtain ⟨hent', hgrp'⟩ := ownTenancy_iff.mp hown _ hent hgrp hresolve
    exact readBack_of_own hent' hgrp' hr hrow

end Theorem

end Agreement

/-! ### An L2 that is configured, and a row with the defaults -/

section Sample

local instance agreementCasing : Casing := asciiCasing

theorem asciiCasing_lowerAscii (s : String) (h : LowerAscii s) : Casing.lower s = s := by
  have hkept : ∀ c ∈ s.toList, c.toLower = c := by
    intro c hc
    unfold Char.toLower
    rw [dif_neg]
    have hupper := (Bool.and_eq_true_iff.mp (List.all_eq_true.mp h c hc)).2
    rw [Bool.not_eq_true'] at hupper
    exact of_decide_eq_false hupper
  change String.ofList (s.toList.map Char.toLower) = s
  rw [List.map_congr_left hkept, List.map_id', String.ofList_toList]

/-- `CQ_ENTERPRISE` and `CQ_GROUP` are set. -/
def configuredEnv : Environ where
  lookup name :=
    match name with
    | "CQ_ENTERPRISE" => some "acme"
    | "CQ_GROUP" => some "engineering"
    | _ => none

/-- The row of a user of that L2. -/
def ownUser : UserRow := ⟨some "acme", some "engineering"⟩

/-- A row as the column defaults make it. -/
def defaultUser : UserRow := ⟨some "default-enterprise", some "default-group"⟩

theorem resolveWriteTenancy_own :
    resolveWriteTenancy configuredEnv ownUser = .ok ("acme", "engineering") := by
  decide +kernel

theorem resolveWriteTenancy_default :
    resolveWriteTenancy configuredEnv defaultUser = .ok ("acme", "engineering") := by
  decide +kernel

theorem tenancy_agrees_iff_sample :
    ∃ unit s', propose (.empty : Store ℚ) configuredEnv "alice" ownUser plainProposal "ku_1" ""
      none = .ok (unit, s') ∧ ReadBack configuredEnv ownUser unit s' := by
  have hown : OwnTenancy configuredEnv ownUser := by
    refine ownTenancy_iff.mpr fun written _ _ hresolve => ?_
    obtain rfl := Except.ok.inj (resolveWriteTenancy_own.symm.trans hresolve)
    exact ⟨rfl, rfl⟩
  have hread := (tenancy_agrees_iff (F := ℚ) asciiCasing_lowerAscii configuredEnv ownUser).mpr hown
  have hvalue : truthy ownUser.enterpriseId = true := rfl
  obtain ⟨unit, s', hproposed⟩ := plainProposal_ok (F := ℚ) asciiCasing_lowerAscii hvalue rfl
    resolveWriteTenancy_own
  exact ⟨unit, s', hproposed, hread _ _ _ _ _ _ _ _ hproposed⟩

/-- What a user with the default row proposes there is not read back. -/
theorem default_row_disagrees :
    ∃ unit s', propose (.empty : Store ℚ) configuredEnv "alice" defaultUser plainProposal "ku_1" ""
      none = .ok (unit, s') ∧ ¬ ReadBack configuredEnv defaultUser unit s' := by
  have hvalue : truthy defaultUser.enterpriseId = true := rfl
  obtain ⟨unit, s', hproposed⟩ := plainProposal_ok (F := ℚ) asciiCasing_lowerAscii hvalue rfl
    resolveWriteTenancy_default
  refine ⟨unit, s', hproposed, fun hread => ?_⟩
  obtain ⟨ent, grp, r, -, -, hresolve, hr, hrow⟩ := propose_row hproposed
  obtain ⟨rfl, rfl⟩ := own_of_readBack rfl rfl hr hrow hread
  exact absurd (Except.ok.inj (hresolve.symm.trans resolveWriteTenancy_default)) (by decide)

end Sample

end EighthLayer.Knowledge
