import EighthLayer.Knowledge.Store
import EighthLayer.Lib.Ranking

/-!
# EighthLayer.Knowledge.Query

The plain query of `/knowledge`: the approved units about one of the queried domains, those
of the caller's tenancy, ranked by relevance and confidence.

The query is characterised once, as the first elements of a ranking of the units that the
store offers to the caller (`query_eq_take`). That nothing else of the store matters, and
what exactly is returned, both follow from it.
-/

namespace EighthLayer.Knowledge

open Lib

variable {F : Type}

/-! ## Tenancies -/

/-- Where a caller belongs: `enterprise_id` and `group_id` of the user's row. -/
structure Tenancy where
  enterprise : String
  group : String
deriving DecidableEq

/-- What a tenancy may see of its Enterprise: the rows of its own group, and those flagged
for the other groups. -/
def Row.VisibleTo (r : Row F) (t : Tenancy) : Prop :=
  r.enterpriseId = t.enterprise ∧ (r.groupId = t.group ∨ r.crossGroupAllowed ≠ 0)

instance (r : Row F) (t : Tenancy) : Decidable (r.VisibleTo t) :=
  inferInstanceAs (Decidable (_ ∧ _))

/-- The store offers a unit to a tenancy: it is approved and visible. -/
def Store.Offers (s : Store F) (t : Tenancy) (u : KnowledgeUnit F) : Prop :=
  ∃ r ∈ s.units, r.status = .approved ∧ r.VisibleTo t ∧ r.unit = u

/-! ## The query -/

/-- The parameters of a query. -/
structure UnitQuery where
  domains : List String
  languages : Option (List String)
  frameworks : Option (List String)
  pattern : String
  limit : Int

/-- What a unit is ranked by. -/
def UnitQuery.score [Floats F] [Casing] (q : UnitQuery) (u : KnowledgeUnit F) : F :=
  calculateRelevance u (normalizeDomains q.domains) q.languages q.frameworks q.pattern *
    u.evidence.confidence

/-- A unit is about one of the queried domains. -/
def UnitQuery.Matches [Casing] (q : UnitQuery) (u : KnowledgeUnit F) : Prop :=
  ∃ d ∈ u.domains, d ∈ normalizeDomains q.domains

namespace Store

/-- `SELECT_QUERY_UNITS`: `id IN (SELECT DISTINCT unit_id … WHERE domain IN :domains)`. -/
def selectQueryUnits (s : Store F) (domains : List String) : List (KnowledgeUnit F) :=
  let ids := ((s.domains.filter fun p => p.2 ∈ domains).map fun p => p.1).dedup
  (s.units.rows.filter fun r => r.status = .approved ∧ r.id ∈ ids).map fun r => r.unit

/-- `scope_by_id.get(k.id, ("", "", 0))`. -/
def scopeById (s : Store F) (id : String) : String × String × Int :=
  match s.units.find id with
  | some r => (r.enterpriseId, r.groupId, r.crossGroupAllowed)
  | none => ("", "", 0)

/-- `_query_sync`; `none` when it raises `ValueError`. -/
def query [Floats F] [Casing] (s : Store F) (q : UnitQuery) (enterpriseId groupId : Option String) :
    Option (List (KnowledgeUnit F)) :=
  if q.limit ≤ 0 then none
  else
    let normalized := normalizeDomains q.domains
    if normalized = [] then some []
    else
      let kus := s.selectQueryUnits normalized
      let units :=
        match enterpriseId with
        | none => kus
        | some enterpriseId => kus.filter fun k =>
            let (ent, grp, xgrp) := s.scopeById k.id
            ent = enterpriseId && (groupId = none || groupId = some grp || xgrp ≠ 0)
      let scored := units.map fun u => (q.score u, u.id, u)
      -- ties in the score are broken by the id
      let ranked := sortDesc (fun item => toLex (item.1, item.2.1)) scored
      some ((ranked.take q.limit.toNat).map fun item => item.2.2)

/-! ## What is ranked -/

theorem scopeById_of_mem {s : Store F} {r : Row F} (hr : r ∈ s.units) :
    s.scopeById r.unit.id = (r.enterpriseId, r.groupId, r.crossGroupAllowed) := by
  have hfind : s.units.find r.unit.id = some r := Table.find_key hr
  simp only [scopeById, hfind]

theorem mem_selectQueryUnits {s : Store F} {domains : List String} {u : KnowledgeUnit F} :
    u ∈ s.selectQueryUnits domains ↔
      (∃ r ∈ s.units, r.status = .approved ∧ r.unit = u) ∧ ∃ d ∈ u.domains, d ∈ domains := by
  simp only [selectQueryUnits, List.mem_map, List.mem_filter, List.mem_dedup, Prod.exists,
    exists_and_right, exists_eq_right, decide_eq_true_eq]
  constructor
  · rintro ⟨r, ⟨hr, hstatus, d, hd, hdomain⟩, rfl⟩
    obtain ⟨r', hr', hid, hd'⟩ := (s.mem_domains _ _).mp hd
    obtain rfl := Table.eq_of_key_eq hr' hr hid
    exact ⟨⟨r', hr', hstatus, rfl⟩, d, hd', hdomain⟩
  · rintro ⟨⟨r, hr, hstatus, rfl⟩, d, hd, hdomain⟩
    exact ⟨r, ⟨hr, hstatus, d, (s.mem_domains _ _).mpr ⟨r, hr, rfl, hd⟩, hdomain⟩, rfl⟩

/-- However many of its domains match, a unit is selected once. -/
theorem selectQueryUnits_ids_nodup (s : Store F) (domains : List String) :
    ((s.selectQueryUnits domains).map fun u => u.id).Nodup := by
  unfold selectQueryUnits
  rw [List.map_map]
  exact (s.units.nodup.sublist (List.filter_sublist.map _))

/-- The units that a scoped query ranks. -/
def ranked [Casing] (s : Store F) (q : UnitQuery) (t : Tenancy) : List (KnowledgeUnit F) :=
  (s.selectQueryUnits (normalizeDomains q.domains)).filter fun k =>
    let (ent, grp, xgrp) := s.scopeById k.id
    ent = t.enterprise && (some t.group = none || some t.group = some grp || xgrp ≠ 0)

variable [Casing] {s s' : Store F} {q : UnitQuery} {t : Tenancy}

theorem mem_ranked {u : KnowledgeUnit F} :
    u ∈ s.ranked q t ↔ s.Offers t u ∧ q.Matches u := by
  unfold ranked
  rw [List.mem_filter, mem_selectQueryUnits]
  constructor
  · rintro ⟨⟨⟨r, hr, hstatus, rfl⟩, hmatches⟩, hscope⟩
    rw [scopeById_of_mem hr] at hscope
    simp only [Bool.and_eq_true, decide_eq_true_eq, Bool.or_eq_true, reduceCtorEq, false_or,
      Option.some.injEq] at hscope
    refine ⟨⟨r, hr, hstatus, ⟨hscope.1, ?_⟩, rfl⟩, hmatches⟩
    exact hscope.2.imp Eq.symm id
  · rintro ⟨⟨r, hr, hstatus, ⟨hent, hgrp⟩, rfl⟩, hmatches⟩
    refine ⟨⟨⟨r, hr, hstatus, rfl⟩, hmatches⟩, ?_⟩
    rw [scopeById_of_mem hr]
    simp only [Bool.and_eq_true, decide_eq_true_eq, Bool.or_eq_true, reduceCtorEq, false_or,
      Option.some.injEq]
    exact ⟨hent, hgrp.imp Eq.symm id⟩

theorem ranked_ids_nodup (s : Store F) (q : UnitQuery) (t : Tenancy) :
    ((s.ranked q t).map fun u => u.id).Nodup :=
  (s.selectQueryUnits_ids_nodup _).sublist (List.filter_sublist.map _)

theorem ranked_nodup (s : Store F) (q : UnitQuery) (t : Tenancy) : (s.ranked q t).Nodup :=
  (s.ranked_ids_nodup q t).of_map _

theorem eq_of_mem_ranked {u v : KnowledgeUnit F} (hu : u ∈ s.ranked q t) (hv : v ∈ s.ranked q t)
    (hid : u.id = v.id) : u = v :=
  List.inj_on_of_nodup_map (s.ranked_ids_nodup q t) hu hv hid

variable [Floats F]

/-- The ranking that a scoped query returns the beginning of. -/
def ranking (s : Store F) (q : UnitQuery) (t : Tenancy) : List (KnowledgeUnit F) :=
  sortDesc (fun u => toLex (q.score u, u.id)) (s.ranked q t)

/-- A query that does not raise returns the first units of the ranking. -/
theorem query_eq_take (hlimit : 0 < q.limit) :
    s.query q (some t.enterprise) (some t.group) = some ((s.ranking q t).take q.limit.toNat) := by
  have hraises : ¬ q.limit ≤ 0 := not_le.mpr hlimit
  unfold query
  rw [if_neg hraises]
  dsimp only
  split
  · -- no domain is left of the query: nothing matches
    rename_i hnormalized
    have hnone : s.ranked q t = [] := by
      refine List.eq_nil_iff_forall_not_mem.mpr fun u hu => ?_
      obtain ⟨d, -, hd⟩ := (mem_ranked.mp hu).2
      rw [hnormalized] at hd
      exact List.not_mem_nil hd
    rw [ranking, hnone, sortDesc_nil, List.take_nil]
  · rw [sortDesc_map, ← List.map_take, List.map_map]
    simp only [Function.comp_def, List.map_id_fun', id_eq]
    rfl

/-- The ranking is about what the store offers to the tenancy, and nothing else of it. -/
theorem ranking_congr (h : ∀ u, s.Offers t u ↔ s'.Offers t u) : s.ranking q t = s'.ranking q t := by
  have hperm : (s.ranked q t).Perm (s'.ranked q t) := by
    rw [List.perm_ext_iff_of_nodup (s.ranked_nodup q t) (s'.ranked_nodup q t)]
    intro u
    rw [mem_ranked, mem_ranked, h]
  refine sortDesc_congr hperm fun u hu v hv hkey => ?_
  exact eq_of_mem_ranked hu hv (Prod.mk.inj (toLex_inj.mp hkey)).2

theorem ranking_pairwise (s : Store F) (q : UnitQuery) (t : Tenancy) :
    (s.ranking q t).Pairwise fun u v => q.score v ≤ q.score u := by
  refine (sortDesc_pairwise _ _).imp fun {u v} h => ?_
  rcases Prod.Lex.toLex_le_toLex.mp h with hlt | ⟨heq, -⟩
  · exact hlt.le
  · exact heq.le

end Store

/-! ## Noninterference and exactness -/

section Scoped

variable [Floats F] [Casing]

/-- **Scoped query.** Two stores that offer a tenancy the same units answer its queries in
the same way. The answer to a query with a positive limit (any other raises) is the
beginning, of at most that length, of a list in which exactly the units offered to the
tenancy that match the query occur, each once, in an order of non-increasing score. -/
theorem query_scoped (s s' : Store F) (q : UnitQuery) (t : Tenancy) :
    ((∀ u, s.Offers t u ↔ s'.Offers t u) →
      s.query q (some t.enterprise) (some t.group) =
        s'.query q (some t.enterprise) (some t.group)) ∧
    (q.limit ≤ 0 → s.query q (some t.enterprise) (some t.group) = none) ∧
    (0 < q.limit → ∃ ranking : List (KnowledgeUnit F),
      s.query q (some t.enterprise) (some t.group) = some (ranking.take q.limit.toNat) ∧
      ranking.Nodup ∧ (∀ u, u ∈ ranking ↔ s.Offers t u ∧ q.Matches u) ∧
      ranking.Pairwise fun u v => q.score v ≤ q.score u) := by
  have hraises : ∀ s : Store F, q.limit ≤ 0 →
      s.query q (some t.enterprise) (some t.group) = none := by
    intro s hlimit
    unfold Store.query
    rw [if_pos hlimit]
  refine ⟨fun hagree => ?_, hraises s, fun hlimit => ?_⟩
  · rcases le_or_gt q.limit 0 with hlimit | hlimit
    · rw [hraises s hlimit, hraises s' hlimit]
    · rw [Store.query_eq_take hlimit, Store.query_eq_take hlimit, Store.ranking_congr hagree]
  · refine ⟨s.ranking q t, Store.query_eq_take hlimit, ?_, ?_, s.ranking_pairwise q t⟩
    · exact (sortDesc_perm _ _).nodup_iff.mpr (s.ranked_nodup q t)
    · intro u
      rw [Store.ranking, mem_sortDesc, Store.mem_ranked]

end Scoped

section Sample

local instance queryCasing : Casing := asciiCasing

/-- An approved unit of a tenancy. -/
def approvedRow (id domain enterprise group : String) : Row ℚ :=
  { Store.newRow (sampleUnit id domain) "2026-05-01T00:00:00+00:00" enterprise group with
    status := .approved }

/-- Two stores that differ in a unit of another Enterprise give a query the same answer. -/
theorem query_scoped_sample :
    let acme : Store ℚ := .ofRows [approvedRow "ku_1" "api" "acme" "eng"]
    let both : Store ℚ := .ofRows
      [approvedRow "ku_2" "api" "globex" "sales", approvedRow "ku_1" "api" "acme" "eng"]
    let query : UnitQuery := ⟨["API"], none, none, "", 1⟩
    acme.query query (some "acme") (some "eng") = both.query query (some "acme") (some "eng") ∧
      ∃ ranking : List (KnowledgeUnit ℚ), acme.query query (some "acme") (some "eng") =
        some (ranking.take 1) ∧ ranking.Nodup := by
  intro acme both query
  have hagree : ∀ u, acme.Offers ⟨"acme", "eng"⟩ u ↔ both.Offers ⟨"acme", "eng"⟩ u := by
    intro u
    constructor
    · rintro ⟨r, hr, h⟩
      exact ⟨r, List.mem_cons_of_mem _ hr, h⟩
    · rintro ⟨r, hr, hstatus, hvisible, h⟩
      rcases List.mem_cons.mp hr with rfl | hr
      · exact absurd hvisible.1 (by decide)
      · exact ⟨r, hr, hstatus, hvisible, h⟩
  obtain ⟨hsame, -, htake⟩ := query_scoped acme both query ⟨"acme", "eng"⟩
  obtain ⟨ranking, hquery, hnodup, -⟩ := htake (by decide)
  exact ⟨hsame hagree, ranking, hquery, hnodup⟩

end Sample

end EighthLayer.Knowledge
