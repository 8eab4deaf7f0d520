import EighthLayer.Knowledge.Query
import EighthLayer.Knowledge.Trust
import Mathlib.Data.Set.Finite.Basic

/-!
# EighthLayer.Knowledge.Isolation

The knowledge endpoints other than the plain query: semantic query, lookup, confirmation,
flag and statistics. None of them looks at the caller's group, and only two numbers of the
statistics are about the caller's Enterprise; so each answers from, and the two that write
write to, units that the caller may not see. `tenant_isolation_iff` says when they do not.

The embedding service and `numpy` are parameters (`Vectors`), and so are the answers of
the peers that a lookup asks and the time it takes (`Surroundings`).
-/

namespace EighthLayer.Knowledge

open Lib

variable {F : Type}

/-! ## Similarity search -/

/-- What the scan finds of a stored embedding. -/
inductive Similarity (F : Type) where
  /-- The embedding is empty or has norm zero. -/
  | skipped
  /-- The embedding is not one, or of another dimension than the query (`ValueError`). -/
  | raises
  | cosine (similarity : F)

/-- The embedding service, and `numpy`. -/
structure Vectors (F : Type) where
  /-- `embed_text`, unpacked; `none` when the service is not available. -/
  embed : String → Option (List F)
  /-- Whether a query has norm zero. -/
  isZero : List F → Bool
  /-- The cosine of a query that has not and a stored embedding. -/
  similarity : List F → Bytes → Similarity F

/-- The loop over the rows; `none` when it raises. -/
def scoreRows (V : Vectors F) (queryVec : List F) :
    List (KnowledgeUnit F × Bytes) → Option (List (KnowledgeUnit F × F))
  | [] => some []
  | (unit, blob) :: rest =>
      match V.similarity queryVec blob with
      | .raises => none
      | .skipped => scoreRows V queryVec rest
      | .cosine sim => (scoreRows V queryVec rest).map fun scored => (unit, sim) :: scored

/-- `_semantic_query_sync` for the approved units; `none` when it raises. -/
def Store.semanticQuery [Floats F] (s : Store F) (V : Vectors F) (queryVec : List F) (limit : Nat) :
    Option (List (KnowledgeUnit F × F)) :=
  let rows := s.units.rows.filterMap fun r =>
    if r.status = .approved then r.embedding.map fun blob => (r.unit, blob) else none
  if rows = [] then some []
  else if V.isZero queryVec then some []
  else (scoreRows V queryVec rows).map fun scored => (sortDesc Prod.snd scored).take limit

/-! ## Lookup -/

/-- `AigrpLookupRequest`, as validated. -/
structure LookupRequest (F : Type) where
  context : String
  trigger : String
  persona : String
  maxResults : Nat
  minConfidence : F
  minSimilarity : F
  excludeSelf : Bool
  context_ne : context ≠ ""
  maxResults_pos : 0 < maxResults
  maxResults_le : maxResults ≤ 20

/-- `AigrpLookupHit`. -/
structure LookupHit (F : Type) where
  kuId : String
  summary : String
  action : String
  domains : List String
  similarity : F
  confidence : F
  createdBy : String

/-- `RemoteHit`, what the lookup reads of it. -/
structure RemoteHit (F : Type) where
  kuId : String
  summary : String
  action : Option String
  domains : List String
  similarity : F
  confidence : F
  createdBy : String

def LookupHit.ofUnit (unit : KnowledgeUnit F) (similarity : F) : LookupHit F where
  kuId := unit.id
  summary := unit.insight.summary
  action := unit.insight.action
  domains := unit.domains
  similarity
  confidence := unit.evidence.confidence
  createdBy := unit.createdBy

def LookupHit.ofRemote (hit : RemoteHit F) : LookupHit F where
  kuId := hit.kuId
  summary := hit.summary
  action := hit.action.getD ""
  domains := hit.domains
  similarity := hit.similarity
  confidence := hit.confidence
  createdBy := hit.createdBy

/-- `AigrpLookupResponse`. -/
structure LookupResponse (F : Type) where
  trigger : String
  results : List (LookupHit F)
  elapsedMs : Nat
  filteredCount : Nat

/-- What a lookup does not take from the store. -/
structure Surroundings (F : Type) where
  /-- What the peers answer, given the domains by which they are chosen; nothing when the
  L2 has no peers. -/
  fanOut : LookupRequest F → List F → List String → List (RemoteHit F)
  elapsedMs : Nat

section Lookup

variable [Floats F]

/-- `by_id`: a candidate takes the place of one of its id with a lower similarity. -/
def byId : List (LookupHit F) → List (LookupHit F) → List (LookupHit F)
  | hits, [] => hits
  | hits, cand :: rest =>
      match hits.find? fun h => h.kuId = cand.kuId with
      | none => byId (hits ++ [cand]) rest
      | some existing =>
          if existing.similarity < cand.similarity then
            byId (hits.map fun h => if h.kuId = cand.kuId then cand else h) rest
          else byId hits rest

/-- Whether a candidate passes the filters. -/
def LookupRequest.keeps (request : LookupRequest F) (cand : LookupHit F) : Bool :=
  !(cand.similarity < request.minSimilarity) && !(cand.confidence < request.minConfidence) &&
    !(request.excludeSelf && request.persona ≠ "" && cand.createdBy = request.persona)

/-- The loop over the candidates, with room for so many: those kept, and how many were
dropped before there was no more room. -/
def filterHits (keeps : LookupHit F → Bool) : Nat → List (LookupHit F) → List (LookupHit F) × Nat
  | _, [] => ([], 0)
  | room, cand :: rest =>
      if keeps cand then
        if room ≤ 1 then ([cand], 0)
        else
          let (filtered, dropped) := filterHits keeps (room - 1) rest
          (cand :: filtered, dropped)
      else
        let (filtered, dropped) := filterHits keeps room rest
        (filtered, dropped + 1)

/-- `aigrp_lookup`; `none` when it raises. -/
def Store.lookup (s : Store F) (V : Vectors F) (E : Surroundings F) (request : LookupRequest F) :
    Option (LookupResponse F) :=
  match V.embed request.context with
  | none => some ⟨request.trigger, [], 0, 0⟩
  | some queryVec =>
      (s.semanticQuery V queryVec (request.maxResults * 3)).map fun rawHits =>
        let queryDomains := (rawHits.flatMap fun hit => hit.1.domains).dedup
        let remoteHits := E.fanOut request queryVec queryDomains
        let candidates := (rawHits.map fun hit => LookupHit.ofUnit hit.1 hit.2) ++
          remoteHits.map LookupHit.ofRemote
        let merged := sortDesc LookupHit.similarity (byId [] candidates)
        let (filtered, dropped) := filterHits request.keeps request.maxResults merged
        ⟨request.trigger, filtered, E.elapsedMs, dropped⟩

end Lookup

/-! ## Statistics -/

/-- `StatsResponse`; what is not a key of a dictionary counts zero. -/
structure StatsResponse where
  totalUnits : Nat
  tiers : Tier → Nat
  domains : String → Nat

/-- `stats`. `counts_by_tier` does not use the Enterprise it is given. -/
def Store.stats (s : Store F) (enterpriseId : String) : StatsResponse where
  totalUnits := s.units.rows.countP fun r => r.enterpriseId = enterpriseId
  tiers := fun tier => s.units.rows.countP fun r => r.status = .approved ∧ r.tier = tier
  domains := fun domain => s.domains.countP fun p => p.2 = domain ∧
    s.units.rows.any fun r => r.id = p.1 ∧ r.status = .approved ∧ r.enterpriseId = enterpriseId

/-! ## The endpoints -/

/-- A request to one of the endpoints, as validated. -/
inductive TenantRequest (F : Type) where
  | semantic (q : String) (limit : Nat) (hlimit : 0 < limit ∧ limit ≤ 50)
  | lookup (request : LookupRequest F)
  | confirm (unitId now : String)
  | flag (unitId : String) (reason : FlagReason) (now : String)
  | stats

/-- The response; `none` in place of a result for status 500. -/
inductive TenantResponse (F : Type) where
  | semantic (hits : Option (List (KnowledgeUnit F × F)))
  | unavailable
  | lookup (response : Option (LookupResponse F))
  | trust (response : TrustResponse F)
  | stats (response : StatsResponse)

section Serving

variable [Floats F]

/-- `query_semantic`. -/
def Store.querySemantic (s : Store F) (V : Vectors F) (q : String) (limit : Nat) :
    TenantResponse F :=
  match V.embed q with
  | none => .unavailable
  | some queryVec => .semantic (s.semanticQuery V queryVec limit)

variable [Casing]

/-- A confirmation or a flag that nothing interferes with. -/
def TrustRequest.served (r : TrustRequest) (unitId : String) (s : Store F) :
    TrustResponse F × Store F :=
  (r.prog unitId).alone s

/-- A request served for a user of a tenancy. -/
def TenantRequest.serve (V : Vectors F) (E : Surroundings F) (t : Tenancy) :
    TenantRequest F → Store F → TenantResponse F × Store F
  | semantic q limit _, s => (s.querySemantic V q limit, s)
  | lookup request, s => (.lookup (s.lookup V E request), s)
  | confirm unitId now, s =>
      let (response, s') := (TrustRequest.confirm now).served unitId s
      (.trust response, s')
  | flag unitId reason now, s =>
      let (response, s') := (TrustRequest.flag reason now).served unitId s
      (.trust response, s')
  | stats, s => (.stats (s.stats t.enterprise), s)

/-! ### Confirmations and flags on their own -/

omit [Floats F] in
theorem Store.update_eq_none_iff {s : Store F} {u : KnowledgeUnit F} :
    s.update u = none ↔ normalizeDomains u.domains = [] ∨ s.units.find u.id = none := by
  unfold Store.update
  dsimp only
  split
  · rename_i h
    simp [h]
  · rename_i h
    rw [Store.replaceUnit_eq_none_iff]
    simp [h]

/-- The response to a confirmation or a flag, given the unit read. -/
def TrustRequest.respond (r : TrustRequest) : Option (KnowledgeUnit F) → TrustResponse F
  | none => .notFound
  | some u =>
      match r.change u with
      | none => .serverError
      | some u' => if normalizeDomains u'.domains = [] then .serverError else .ok u'

theorem TrustRequest.respond_of_change {r : TrustRequest} {u u' : KnowledgeUnit F}
    (h : r.change u = some u') : r.respond (some u) =
      if normalizeDomains u'.domains = [] then .serverError else .ok u' := by
  simp only [respond, h]

theorem TrustRequest.served_eq (r : TrustRequest) (unitId : String) (s : Store F) :
    r.served unitId s =
      (match s.get unitId with
        | none => .done .notFound
        | some u =>
            match r.change u with
            | none => .done .serverError
            | some u' => writeBack u' : Prog (TrustStmt.Answer (F := F)) (TrustResponse F)).alone s :=
  rfl

omit [Floats F] in
/-- What becomes of a changed unit that is written back. -/
theorem writeBack_alone (u : KnowledgeUnit F) (s : Store F) :
    (writeBack u).alone s = ((s.update u).map fun s' => (.ok u, s')).getD (.serverError, s) := by
  have hstmt : (writeBack u).alone s =
      (if (TrustStmt.exec (.update u) s).1 then .done (.ok u) else .done .serverError :
        Prog (TrustStmt.Answer (F := F)) (TrustResponse F)).alone (TrustStmt.exec (.update u) s).2 :=
    rfl
  rw [hstmt]
  cases h : s.update u with
  | none =>
      have hexec : TrustStmt.exec (.update u) s = (false, s) := by
        simp only [TrustStmt.exec, h]
      rw [hexec]
      rfl
  | some s' =>
      have hexec : TrustStmt.exec (.update u) s = (true, s') := by
        simp only [TrustStmt.exec, h]
      rw [hexec]
      rfl

/-- On its own, a request responds to the unit that is stored, and touches nothing else. -/
theorem TrustRequest.served_spec (r : TrustRequest) (unitId : String) (s : Store F) :
    (r.served unitId s).1 = r.respond (s.get unitId) ∧
      ∀ x ∈ s.units, x.id ≠ unitId → x ∈ (r.served unitId s).2.units := by
  rw [r.served_eq]
  cases hget : s.get unitId with
  | none => exact ⟨rfl, fun x hx _ => hx⟩
  | some u =>
      cases hchange : r.change u with
      | none =>
          simp only [hchange, respond]
          exact ⟨rfl, fun x hx _ => hx⟩
      | some u' =>
          have hid : u'.id = unitId := (change_trust hchange).2.trans (get_id hget)
          obtain ⟨row, hrow, -⟩ := Store.get_eq_some_iff.mp hget
          simp only [hchange]
          rw [writeBack_alone, respond_of_change hchange]
          cases hupdate : s.update u' with
          | none =>
              have hempty : normalizeDomains u'.domains = [] := by
                rcases Store.update_eq_none_iff.mp hupdate with h | h
                · exact h
                · rw [hid, hrow] at h
                  cases h
              rw [if_pos hempty]
              exact ⟨rfl, fun x hx _ => hx⟩
          | some s' =>
              have hsome : normalizeDomains u'.domains ≠ [] := by
                intro h
                rw [Store.update_eq_none_iff.mpr (.inl h)] at hupdate
                cases hupdate
              rw [if_neg hsome]
              refine ⟨rfl, fun x hx hne => ?_⟩
              show x ∈ s'.units
              unfold Store.update at hupdate
              rw [if_neg hsome] at hupdate
              have hne' : x.id ≠ u'.id := fun h => hne (h.trans hid)
              have hfind := Store.replaceUnit_find_of_ne hupdate hne'
              rw [Table.find_key hx] at hfind
              exact (Table.find_eq_some_iff.mp hfind).1

/-! ## Isolation -/

/-- Two stores agree on what a tenancy may see. -/
def Agree (t : Tenancy) (s s' : Store F) : Prop :=
  ∀ r : Row F, r.VisibleTo t → (r ∈ s.units ↔ r ∈ s'.units)

/-- A request of a tenancy, on a store: the response is the same on every store that the
tenancy cannot tell from this one, and no row out of its sight changes. -/
def Isolated (V : Vectors F) (E : Surroundings F) (t : Tenancy) (request : TenantRequest F)
    (s : Store F) : Prop :=
  (∀ s', Agree t s s' → (request.serve V E t s').1 = (request.serve V E t s).1) ∧
    ∀ r ∈ s.units, ¬ r.VisibleTo t → r ∈ (request.serve V E t s).2.units

/-- The text that a request has embedded. -/
def TenantRequest.searched : TenantRequest F → Option String
  | semantic q _ _ => some q
  | lookup request => some request.context
  | _ => none

/-- The unit that a request names. -/
def TenantRequest.named : TenantRequest F → Option String
  | confirm unitId _ | flag unitId _ _ => some unitId
  | _ => none

/-- A text no similarity search is made for: it is not embedded, or as zero. -/
def Vectors.Blind (V : Vectors F) (text : String) : Prop :=
  ∀ queryVec, V.embed text = some queryVec → V.isZero queryVec = true

end Serving

/-! ### Stores a tenancy cannot tell apart -/

/-- The store with these rows. -/
def Store.ofTable (units : Table (Row.id (F := F))) : Store F where
  units
  domains := (units.rows.flatMap fun r => domainRows r.unit).dedup
  domains_nodup := List.nodup_dedup _
  mem_domains := by
    intro id d
    rw [List.mem_dedup, List.mem_flatMap]
    exact exists_congr fun r => and_congr_right fun _ => mem_domainRows

/-- The store without the unit of some id. -/
def Store.drop (s : Store F) (id : String) : Store F :=
  .ofTable (s.units.delete fun r => r.id = id)

/-- The store with a row in place of the one of its id. -/
def Store.put (s : Store F) (r : Row F) : Store F :=
  .ofTable
    { rows := r :: (s.drop r.id).units.rows
      nodup := by
        rw [List.map_cons, List.nodup_cons]
        refine ⟨fun hmem => ?_, (s.drop r.id).units.nodup⟩
        obtain ⟨r', hr', hid⟩ := List.mem_map.mp hmem
        have hne := (Table.mem_delete.mp hr').2
        simp [hid] at hne }

theorem Store.agree_drop {s : Store F} {t : Tenancy} {id : String}
    (h : ∀ r ∈ s.units, r.id = id → ¬ r.VisibleTo t) : Agree t s (s.drop id) := by
  intro r hr
  have hdelete : r ∈ (s.drop id).units ↔ r ∈ s.units ∧ decide (r.id = id) = false :=
    Table.mem_delete
  rw [hdelete, decide_eq_false_iff_not]
  exact ⟨fun hmem => ⟨hmem, fun hid => h r hmem hid hr⟩, And.left⟩

theorem Store.agree_put {s : Store F} {t : Tenancy} {r : Row F} (hr : ¬ r.VisibleTo t)
    (h : ∀ x ∈ s.units, x.id = r.id → ¬ x.VisibleTo t) : Agree t s (s.put r) := by
  intro x hx
  have hcons : x ∈ (s.put r).units ↔ x = r ∨ x ∈ (s.drop r.id).units := List.mem_cons
  rw [hcons, Store.agree_drop h x hx]
  constructor
  · exact Or.inr
  · rintro (rfl | hmem)
    · exact absurd hx hr
    · exact hmem

theorem Store.find_put (s : Store F) (r : Row F) : (s.put r).units.find r.id = some r :=
  Table.find_key (t := (s.put r).units) List.mem_cons_self

theorem Store.find_drop (s : Store F) (id : String) : (s.drop id).units.find id = none := by
  rw [Table.find_eq_none_iff]
  intro r hr
  simpa using (Table.mem_delete.mp hr).2

/-- A row of somebody else: approved, with an embedding. -/
def foreignRow [Floats F] (t : Tenancy) (id : String) (embedding : Bytes) : Row F where
  unit :=
    { id, version := 1, domains := ["api"], insight := ⟨"", "", ""⟩, context := ⟨[], [], ""⟩
      evidence := ⟨0.5, 1, none, none⟩, tier := .private, createdBy := "", supersededBy := none
      flags := [] }
  status := .approved
  reviewedBy := none
  reviewedAt := none
  createdAt := "2026-05-01T00:00:00+00:00"
  tier := .private
  enterpriseId := if t.enterprise = "acme" then "globex" else "acme"
  groupId := "eng"
  crossGroupAllowed := 0
  embedding := some embedding
  pendingReviewReason := none
  pendingReviewExpiresAt := none

theorem foreignRow_hidden [Floats F] (t : Tenancy) (id : String) (embedding : Bytes) :
    ¬ (foreignRow t id embedding : Row F).VisibleTo t := by
  rintro ⟨hent, -⟩
  simp only [foreignRow] at hent
  split at hent
  · rename_i h
    rw [h] at hent
    exact absurd hent (by decide)
  · rename_i h
    exact h hent.symm

/-! ### What each endpoint depends on -/

section Endpoints

variable [Floats F] [Casing] {V : Vectors F} {E : Surroundings F} {t : Tenancy}
  {request : TenantRequest F} {s : Store F}

omit [Casing] in
theorem semanticQuery_zero (s : Store F) {queryVec : List F} (h : V.isZero queryVec = true)
    (limit : Nat) : s.semanticQuery V queryVec limit = some [] := by
  unfold Store.semanticQuery
  simp only [h, if_true]
  split <;> rfl

/-- Without a search, the answer does not depend on the store. -/
theorem isolated_of_blind {text : String} (htext : request.searched = some text)
    (hblind : V.Blind text) : Isolated V E t request s := by
  cases request with
  | semantic q limit hlimit =>
      have hq : q = text := Option.some.inj htext
      refine ⟨fun s' _ => ?_, fun r hr _ => hr⟩
      show s'.querySemantic V q limit = s.querySemantic V q limit
      unfold Store.querySemantic
      cases hembed : V.embed q with
      | none => rfl
      | some queryVec =>
          have hzero := hblind queryVec (hq ▸ hembed)
          simp only [semanticQuery_zero _ hzero]
  | lookup request =>
      cases htext
      refine ⟨fun s' _ => ?_, fun r hr _ => hr⟩
      show TenantResponse.lookup (s'.lookup V E request) = .lookup (s.lookup V E request)
      unfold Store.lookup
      cases hembed : V.embed request.context with
      | none => rfl
      | some queryVec =>
          have hzero := hblind queryVec hembed
          simp only [semanticQuery_zero _ hzero]
  | confirm unitId now => cases htext
  | flag unitId reason now => cases htext
  | stats => cases htext

omit [Floats F] [Casing] in
theorem get_of_visible {s' : Store F} (hagree : Agree t s s') {unitId : String} {r : Row F}
    (hr : s.units.find unitId = some r) (hvisible : r.VisibleTo t) :
    s'.get unitId = s.get unitId := by
  obtain ⟨hmem, hid⟩ := Table.find_eq_some_iff.mp hr
  have hr' : s'.units.find unitId = some r :=
    Table.find_eq_some_iff.mpr ⟨(hagree r hvisible).mp hmem, hid⟩
  simp only [Store.get, hr, hr']

/-- A visible unit is confirmed and flagged in isolation. -/
theorem served_of_visible (r : TrustRequest) {unitId : String} {row : Row F}
    (hrow : s.units.find unitId = some row) (hvisible : row.VisibleTo t) :
    (∀ s', Agree t s s' → (r.served unitId s').1 = (r.served unitId s).1) ∧
      ∀ x ∈ s.units, ¬ x.VisibleTo t → x ∈ (r.served unitId s).2.units := by
  refine ⟨fun s' hagree => ?_, fun x hx hhidden => ?_⟩
  · rw [(r.served_spec unitId s').1, (r.served_spec unitId s).1, get_of_visible hagree hrow hvisible]
  · refine (r.served_spec unitId s).2 x hx ?_
    rintro rfl
    rw [Table.find_key hx] at hrow
    cases hrow
    exact hhidden hvisible

theorem respond_ne_notFound (r : TrustRequest) (u : KnowledgeUnit F) :
    r.respond (some u) ≠ .notFound := by
  cases hchange : r.change u with
  | none => simp [TrustRequest.respond, hchange]
  | some u' =>
      rw [TrustRequest.respond_of_change hchange]
      split <;> simp

/-- The response shows whether there is a unit, in sight or not. -/
theorem visible_of_served (r : TrustRequest) {unitId : String}
    (h : ∀ s', Agree t s s' → (r.served unitId s').1 = (r.served unitId s).1) :
    ∃ row, s.units.find unitId = some row ∧ row.VisibleTo t := by
  by_contra hnone
  have hhidden : ∀ x ∈ s.units, x.id = unitId → ¬ x.VisibleTo t := by
    intro x hx hid hvisible
    exact hnone ⟨x, Table.find_eq_some_iff.mpr ⟨hx, hid⟩, hvisible⟩
  -- with a foreign unit of this id, and without any
  have hwith := h _ (Store.agree_put (foreignRow_hidden t unitId []) hhidden)
  have hwithout := h _ (Store.agree_drop hhidden)
  rw [← hwith, (r.served_spec _ _).1, (r.served_spec _ _).1] at hwithout
  have hget : (s.put (foreignRow t unitId [])).get unitId =
      some (foreignRow t unitId [] : Row F).unit :=
    Store.get_eq_some_iff.mpr ⟨_, Store.find_put s _, rfl, rfl⟩
  have hget' : (s.drop unitId).get unitId = none := by
    rw [Store.get, Store.find_drop]
    rfl
  rw [hget, hget'] at hwithout
  exact respond_ne_notFound r _ hwithout.symm

/-! ### What a search shows -/

/-- A store with nothing but one foreign unit. -/
def foreignStore (t : Tenancy) (blob : Bytes) : Store F :=
  Store.empty.put (foreignRow t "ku_1" blob)

omit [Casing] in
theorem agree_foreignStore (t : Tenancy) (blob : Bytes) :
    Agree t .empty (foreignStore t blob : Store F) := by
  refine Store.agree_put (foreignRow_hidden t "ku_1" blob) ?_
  intro x hx
  cases hx

omit [Casing] in
theorem semanticQuery_empty (queryVec : List F) (limit : Nat) :
    (Store.empty : Store F).semanticQuery V queryVec limit = some [] := rfl

omit [Casing] in
/-- The foreign unit is all there is to find. -/
theorem semanticQuery_foreign {queryVec : List F} (hzero : V.isZero queryVec = false) {blob : Bytes}
    {x : F} (hsim : V.similarity queryVec blob = .cosine x) {limit : Nat} (hlimit : 0 < limit) :
    (foreignStore t blob).semanticQuery V queryVec limit =
      some [((foreignRow t "ku_1" blob).unit, x)] := by
  have hrows : ((foreignStore t blob : Store F).units.rows.filterMap fun r =>
      if r.status = .approved then r.embedding.map fun blob => (r.unit, blob) else none) =
      [((foreignRow t "ku_1" blob : Row F).unit, blob)] := rfl
  have hscored : scoreRows V queryVec [((foreignRow t "ku_1" blob : Row F).unit, blob)] =
      some [((foreignRow t "ku_1" blob).unit, x)] := by
    simp only [scoreRows, hsim, Option.map_some]
  unfold Store.semanticQuery
  rw [hrows]
  simp only [hscored, hzero, List.cons_ne_nil, Bool.false_eq_true, if_false, Option.map_some,
    sortDesc_singleton]
  rw [List.take_of_length_le hlimit]

omit [Casing] in
/-- The foreign unit is among the results, or among those dropped. -/
theorem lookup_foreign {request : LookupRequest F} {queryVec : List F}
    (hembed : V.embed request.context = some queryVec) (hzero : V.isZero queryVec = false)
    {blob : Bytes} {x : F} (hsim : V.similarity queryVec blob = .cosine x) :
    (foreignStore t blob).lookup V ⟨fun _ _ _ => [], 0⟩ request ≠
      (Store.empty : Store F).lookup V ⟨fun _ _ _ => [], 0⟩ request := by
  have hempty : (Store.empty : Store F).lookup V ⟨fun _ _ _ => [], 0⟩ request =
      some ⟨request.trigger, [], 0, 0⟩ := by
    simp only [Store.lookup, hembed, semanticQuery_empty, Option.map_some, List.map_nil,
      List.append_nil, byId, sortDesc_nil, filterHits]
  have hlimit : 0 < request.maxResults * 3 := Nat.mul_pos request.maxResults_pos (by decide)
  rw [hempty]
  simp only [Store.lookup, hembed, semanticQuery_foreign hzero hsim hlimit, Option.map_some,
    List.map_cons, List.map_nil, List.append_nil, byId, List.find?_nil, List.nil_append,
    sortDesc_singleton, filterHits]
  intro h
  have hresponse := Option.some.inj h
  have hresults := congrArg LookupResponse.results hresponse
  have hcount := congrArg LookupResponse.filteredCount hresponse
  split at hresults
  · split at hresults <;> cases hresults
  · rename_i hkeeps
    simp only [hkeeps, Bool.false_eq_true, if_false] at hcount
    cases hcount

/-- A search in isolation is none. -/
theorem blind_of_isolated
    (hV : ∀ v, V.isZero v = false → ∃ blob x, V.similarity v blob = .cosine x) {text : String}
    (htext : request.searched = some text) (h : ∀ E s, Isolated V E t request s) :
    V.Blind text := by
  intro queryVec hembed
  by_contra hnonzero
  have hzero : V.isZero queryVec = false := Bool.eq_false_of_not_eq_true hnonzero
  obtain ⟨blob, x, hsim⟩ := hV queryVec hzero
  have hsame := (h ⟨fun _ _ _ => [], 0⟩ .empty).1 _ (agree_foreignStore t blob)
  cases request with
  | semantic q limit hlimit =>
      have hq : q = text := Option.some.inj htext
      rw [← hq] at hembed
      have hresponses : (foreignStore t blob).querySemantic V q limit =
          (Store.empty : Store F).querySemantic V q limit := hsame
      simp only [Store.querySemantic, hembed, semanticQuery_foreign hzero hsim hlimit.1,
        semanticQuery_empty] at hresponses
      cases hresponses
  | lookup request =>
      have hq : request.context = text := Option.some.inj htext
      rw [← hq] at hembed
      have hresponses : TenantResponse.lookup _ = .lookup _ := hsame
      exact lookup_foreign hembed hzero hsim (TenantResponse.lookup.inj hresponses)
  | confirm unitId now => cases htext
  | flag unitId reason now => cases htext
  | stats => cases htext

/-! ### What the statistics show -/

omit [Floats F] [Casing] in
/-- An id that no unit of the store has. -/
theorem exists_fresh (s : Store F) : ∃ id, ∀ r ∈ s.units, r.id ≠ id := by
  obtain ⟨id, hid⟩ := Infinite.exists_notMem_finset (s.units.rows.map Row.id).toFinset
  refine ⟨id, fun r hr heq => hid ?_⟩
  rw [List.mem_toFinset]
  exact List.mem_map.mpr ⟨r, hr, heq⟩

/-- The counts by tier tell a store with another foreign unit from one without. -/
theorem stats_not_isolated : ¬ Isolated V E t .stats s := by
  intro h
  obtain ⟨id, hid⟩ := exists_fresh s
  have hnone : ∀ r ∈ s.units, r.id = id → ¬ r.VisibleTo t := fun r hr heq => absurd heq (hid r hr)
  have hwith := h.1 _ (Store.agree_put (foreignRow_hidden t id []) hnone)
  have hwithout := h.1 _ (Store.agree_drop hnone)
  rw [← hwith] at hwithout
  have hstats := TenantResponse.stats.inj hwithout
  have htiers := congrFun (congrArg StatsResponse.tiers hstats) .private
  have hcount : (s.put (foreignRow t id [])).units.rows =
      foreignRow t id [] :: (s.drop id).units.rows := rfl
  simp only [Store.stats, hcount] at htiers
  rw [List.countP_cons_of_pos (by simp [foreignRow])] at htiers
  omega

/-- **When the endpoints isolate the tenants.** A semantic query or a lookup does, on all
stores, only if no search is made for its text; a confirmation and a flag do on a store if and
only if they name a unit that the caller may see; the statistics never do. -/
theorem tenant_isolation_iff (V : Vectors F)
    (hV : ∀ v, V.isZero v = false → ∃ blob x, V.similarity v blob = .cosine x) (t : Tenancy)
    (request : TenantRequest F) :
    ((∀ E s, Isolated V E t request s) ↔ ∃ text, request.searched = some text ∧ V.Blind text) ∧
    ∀ E s, request.searched = none →
      (Isolated V E t request s ↔
        ∃ unitId r, request.named = some unitId ∧ s.units.find unitId = some r ∧ r.VisibleTo t) := by
  have hnamed : ∀ E s, request.searched = none →
      (Isolated V E t request s ↔
        ∃ unitId r, request.named = some unitId ∧ s.units.find unitId = some r ∧
          r.VisibleTo t) := by
    intro E s hsearched
    cases request with
    | semantic q limit hlimit => cases hsearched
    | lookup request => cases hsearched
    | confirm unitId now =>
        constructor
        · rintro ⟨hresponse, -⟩
          obtain ⟨r, hr, hvisible⟩ := visible_of_served (.confirm now) fun s' hagree =>
            TenantResponse.trust.inj (hresponse s' hagree)
          exact ⟨unitId, r, rfl, hr, hvisible⟩
        · rintro ⟨_, r, hid, hr, hvisible⟩
          cases hid
          obtain ⟨hresponse, hframe⟩ := served_of_visible (.confirm now) hr hvisible
          exact ⟨fun s' hagree => congrArg TenantResponse.trust (hresponse s' hagree), hframe⟩
    | flag unitId reason now =>
        constructor
        · rintro ⟨hresponse, -⟩
          obtain ⟨r, hr, hvisible⟩ := visible_of_served (.flag reason now) fun s' hagree =>
            TenantResponse.trust.inj (hresponse s' hagree)
          exact ⟨unitId, r, rfl, hr, hvisible⟩
        · rintro ⟨_, r, hid, hr, hvisible⟩
          cases hid
          obtain ⟨hresponse, hframe⟩ := served_of_visible (.flag reason now) hr hvisible
          exact ⟨fun s' hagree => congrArg TenantResponse.trust (hresponse s' hagree), hframe⟩
    | stats =>
        refine ⟨fun h => absurd h stats_not_isolated, ?_⟩
        rintro ⟨_, r, hid, -⟩
        cases hid
  refine ⟨⟨fun h => ?_, ?_⟩, hnamed⟩
  · cases hsearched : request.searched with
    | none =>
        -- on the empty store no unit is in sight
        obtain ⟨unitId, r, -, hr, -⟩ := (hnamed ⟨fun _ _ _ => [], 0⟩ .empty hsearched).mp (h _ _)
        cases hr
    | some text => exact ⟨text, rfl, blind_of_isolated hV hsearched h⟩
  · rintro ⟨text, htext, hblind⟩ E s
    exact isolated_of_blind htext hblind

end Endpoints

section Sample

local instance isolationCasing : Casing := asciiCasing

/-- Embeddings of one dimension, where all cosines of positive numbers are one. -/
def sampleVectors : Vectors ℚ where
  embed := fun _ => some [1]
  isZero := fun v => v.all fun x => x = 0
  similarity := fun v blob =>
    if blob = [] then .skipped
    else if blob.length ≠ v.length then .raises
    else .cosine 1

/-- A unit of acme's and one of globex's. -/
def twoTenants : Store ℚ :=
  .ofRows [approvedRow "ku_1" "api" "acme" "eng",
    { approvedRow "ku_2" "api" "globex" "sales" with embedding := some [1] }]

/-- A user of acme confirms acme's unit in isolation, and reads statistics that are not. -/
theorem tenant_isolation_iff_sample :
    Isolated sampleVectors ⟨fun _ _ _ => [], 0⟩ ⟨"acme", "eng"⟩
      (.confirm "ku_1" "2026-06-02T00:00:00+00:00") twoTenants ∧
    ¬ Isolated sampleVectors ⟨fun _ _ _ => [], 0⟩ ⟨"acme", "eng"⟩ .stats twoTenants := by
  have hV : ∀ v, sampleVectors.isZero v = false →
      ∃ blob x, sampleVectors.similarity v blob = .cosine x := by
    intro v hv
    cases v with
    | nil => cases hv
    | cons x v =>
        refine ⟨List.replicate (x :: v).length 1, 1, ?_⟩
        simp [sampleVectors]
  constructor
  · have hiff := (tenant_isolation_iff sampleVectors hV ⟨"acme", "eng"⟩
      (.confirm "ku_1" "2026-06-02T00:00:00+00:00")).2 ⟨fun _ _ _ => [], 0⟩ twoTenants rfl
    exact hiff.mpr ⟨"ku_1", _, rfl, rfl, rfl, .inl rfl⟩
  · have hiff := (tenant_isolation_iff sampleVectors hV ⟨"acme", "eng"⟩ .stats).2
      ⟨fun _ _ _ => [], 0⟩ twoTenants rfl
    rw [hiff]
    rintro ⟨_, _, hnamed, -⟩
    cases hnamed

/-- The user of acme finds the unit of globex, and confirms it. -/
theorem foreign_unit_found_and_confirmed :
    let unit := sampleUnit "ku_2" "api"
    twoTenants.querySemantic sampleVectors "retries" 10 = .semantic (some [(unit, 1)]) ∧
    (∃ r ∈ twoTenants.units, r.unit = unit ∧ ¬ r.VisibleTo ⟨"acme", "eng"⟩) ∧
    ((((TrustRequest.confirm "2026-06-02T00:00:00+00:00").served "ku_2" twoTenants).2.units.find
      "ku_2").map fun r => (r.unit.evidence.confirmations, r.enterpriseId)) =
        some (unit.evidence.confirmations + 1, "globex") := by
  intro unit
  refine ⟨?_, ⟨_, List.mem_cons_of_mem _ List.mem_cons_self, rfl, ?_⟩, rfl⟩
  · have hrows : (twoTenants.units.rows.filterMap fun r =>
        if r.status = .approved then r.embedding.map fun blob => (r.unit, blob) else none) =
        [(unit, [1])] := rfl
    have hscored : scoreRows sampleVectors [1] [(unit, [1])] = some [(unit, 1)] := rfl
    show TenantResponse.semantic (twoTenants.semanticQuery sampleVectors [1] 10) = _
    have hzero : sampleVectors.isZero [1] = false := rfl
    unfold Store.semanticQuery
    rw [hrows]
    simp [hscored, hzero]
  · rintro ⟨hent, -⟩
    exact absurd hent (by decide)

end Sample

end EighthLayer.Knowledge
