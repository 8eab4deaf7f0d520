import EighthLayer.Lib.Best
import EighthLayer.Sdk.Compat
import EighthLayer.Sdk.Once

/-!
# EighthLayer.Sdk.Query

The local query of the two SDKs (`store.go`, `query_options.go`, `scoring.go`, `store.py`,
`scoring.py`) and the merge of its result with what the remote returns (`client.go`, `client.py`).

Both gather the units of the queried domains and those that the full-text index finds, score them,
and keep the best. Go keeps them in a map and sorts them in place, so that units of one score come
in any order and any of them may be cut off; Python lists them in the order in which they are found.
On rows that both can read, and terms that both bring to one form, the two return the same scores,
and the same units but for ties at the end (`queries_agree`). The merges differ in what they do about
a unit that the remote returns twice (`Go.mergeResults_eq_iff`).

What the full-text index finds is an input, the rows in the order of SQLite, or nothing where the
query of the index fails.
-/

namespace EighthLayer.Sdk

open Lib
open Knowledge (Floats Casing)
open Aigrp (strip)

/-! ## Gathering -/

/-- `knowledge_units` joined with the rows of some domains. -/
def domainRows (db : LocalDb) (domains : List Bytes) : List UnitRow :=
  db.units.rows.filter fun r => domains.any fun d => (r.id, d) ∈ db.domains.rows

section ById

variable {U κ : Type} [DecidableEq κ]

/-- What a map keeps of some values that are put into it one by one: the last of each key. -/
def lastById (id : U → κ) : List U → List U
  | [] => []
  | u :: us => if id u ∈ us.map id then lastById id us else u :: lastById id us

/-- What a loop keeps that looks up each id among those that it has seen: the first of each. -/
def firstById (id : U → κ) : List κ → List U → List U
  | _, [] => []
  | seen, u :: us =>
      if id u ∈ seen then firstById id seen us else u :: firstById id (id u :: seen) us

end ById

/-! ## Go -/

namespace Go

/-- Texts are compared byte by byte. -/
local instance textLawful : LawfulBEq Text := inferInstance

/-- `strings.EqualFold`, which rests on the tables of the Unicode standard. -/
class Folding where
  equalFold : Text → Text → Bool

def defaultQueryLimit : Int := 5

def maxClientQueryLimit : Int := 50

def maxQueryDomains : Nat := 50

def maxQueryLanguages : Nat := 50

def maxQueryFrameworks : Nat := 50

/-- `QueryParams`. -/
structure QueryParams where
  domains : List Text
  languages : List Text
  frameworks : List Text
  pattern : Text
  limit : Int

/-- `queryOptions`; the keys of a map in the order in which they were put into it. -/
structure QueryOptions where
  domains : List Text
  languages : List Text
  frameworks : List Text
  pattern : Text
  limit : Nat

/-- The limit that `Client.Query` asks for. -/
def clientLimit (limit : Int) : Nat :=
  let limit := if limit ≤ 0 then defaultQueryLimit else limit
  (if maxClientQueryLimit < limit then maxClientQueryLimit else limit).toNat

section Options

variable [Strings]

/-- A tag is added to a map, in its normal form, if there is room; `none` is the error. -/
def withTag (max : Nat) (tags : List Text) (tag : Text) : Option (List Text) :=
  let t := Strings.toLower (Strings.trimSpace tag)
  if t = [] then some tags
  else if t ∈ tags then some tags
  else if max ≤ tags.length then none
  else some (tags ++ [t])

/-- `withDomain`. -/
def withDomain : List Text → Text → Option (List Text) := withTag maxQueryDomains

/-- `withLanguage`. -/
def withLanguage : List Text → Text → Option (List Text) := withTag maxQueryLanguages

/-- `withFramework`. -/
def withFramework : List Text → Text → Option (List Text) := withTag maxQueryFrameworks

/-- `withPattern`, on no pattern. -/
def withPattern (pattern : Text) : Text :=
  if pattern = [] then [] else Strings.toLower (Strings.trimSpace pattern)

/-- `newQueryOptions`, of the options of `Client.Query`. -/
def newQueryOptions (params : QueryParams) : Option QueryOptions := do
  let domains ← params.domains.foldlM withDomain []
  let languages ← params.languages.foldlM withLanguage []
  let frameworks ← params.frameworks.foldlM withFramework []
  some
    { domains, languages, frameworks
      pattern := withPattern params.pattern
      limit := clientLimit params.limit }

end Options

section Score

variable {F : Type} [Floats F] [Folding]

/-- `jaccardSimilarity`. -/
def jaccardSimilarity (a b : List Text) : F :=
  if a.length = 0 ∧ b.length = 0 then 0.0
  else
    let setA := a.dedup
    let setB := b.dedup
    let intersection := (setA.filter (· ∈ setB)).length
    let union := setA.length + setB.length - intersection
    (intersection : F) / (union : F)

/-- `anyMatch`. -/
def anyMatch (items queries : List Text) : Bool := queries.any (· ∈ items)

/-- `relevance`. -/
def relevance (ku : KnowledgeUnit F) (queryDomains queryLanguages queryFrameworks : List Text)
    (queryPattern : Text) : F :=
  let domainScore : F := jaccardSimilarity (ku.domains.getD []) queryDomains
  let languageScore : F :=
    if anyMatch (ku.context.languages.getD []) queryLanguages = true then 1.0 else 0.0
  let frameworkScore : F :=
    if anyMatch (ku.context.frameworks.getD []) queryFrameworks = true then 1.0 else 0.0
  let patternScore : F :=
    if queryPattern ≠ [] ∧ ku.context.pattern ≠ [] ∧
        Folding.equalFold queryPattern ku.context.pattern = true then 1.0 else 0.0
  let score := 0.55 * domainScore + 0.15 * languageScore + 0.15 * frameworkScore +
    0.15 * patternScore
  min (max score 0.0) 1.0

/-- What a unit is ranked by. -/
def QueryOptions.score (opts : QueryOptions) (ku : KnowledgeUnit F) : F :=
  relevance ku opts.domains opts.languages opts.frameworks opts.pattern * ku.evidence.confidence

variable [JsonFloats F] [Strings]

/-- The values of the map of candidates; `none` when a row of a domain cannot be read. -/
def candidates (db : LocalDb) (domains : List Text) (fts : List UnitRow) :
    Option (List (KnowledgeUnit F)) := do
  let found ← (domainRows db domains).mapM fun r => KnowledgeUnit.unmarshal r.data
  some (lastById KnowledgeUnit.id
    (found ++ fts.filterMap fun r => KnowledgeUnit.unmarshal r.data))

/-- What the query of the local store may return; `none` is an error. The candidates come out of
their map in any order, and `sort.Slice` leaves those of one score in any order. -/
def MayReturn (db : LocalDb) (params : QueryParams) (fts : List UnitRow)
    (result : Option (List (KnowledgeUnit F))) : Prop :=
  match newQueryOptions params with
  | none => result = none
  | some opts =>
    if opts.domains = [] then result = some []
    else
      match (candidates db opts.domains fts : Option (List (KnowledgeUnit F))) with
      | none => result = none
      | some found => ∃ units, result = some units ∧ Best opts.score opts.limit found units

omit [Floats F] [Folding] [JsonFloats F] [Strings] in
/-- `mergeResults`. -/
def mergeResults (localUnits remote : List (KnowledgeUnit F)) (limit : Nat) :
    List (KnowledgeUnit F) :=
  (localUnits ++ remote.filter fun u => u.id ∉ localUnits.map KnowledgeUnit.id).take limit

end Score

end Go

/-! ## Python -/

namespace Py

def maxQueryDomains : Nat := 50

section Score

variable {F : Type} [Floats F] [Casing]

/-- `calculate_relevance`. -/
def calculateRelevance (unit : KnowledgeUnit F) (queryDomains : List String)
    (queryLanguages queryFrameworks : Option (List String)) (queryPattern : String) : F :=
  let unitDomains := unit.domains.toFinset
  let queryDomainSet := queryDomains.toFinset
  let domainScore : F :=
    if unitDomains.card = 0 ∧ queryDomainSet.card = 0 then 0.0
    else ((unitDomains ∩ queryDomainSet).card : F) / ((unitDomains ∪ queryDomainSet).card : F)
  let languageScore : F :=
    if (queryLanguages.getD []).any (· ∈ unit.context.languages) = true then 1.0 else 0.0
  let frameworkScore : F :=
    if (queryFrameworks.getD []).any (· ∈ unit.context.frameworks) = true then 1.0 else 0.0
  let patternScore : F :=
    if queryPattern ≠ "" ∧ unit.context.pattern ≠ "" ∧
        Casing.lower queryPattern = Casing.lower unit.context.pattern then 1.0 else 0.0
  let score := 0.55 * domainScore + 0.15 * languageScore + 0.15 * frameworkScore +
    0.15 * patternScore
  min (max score 0.0) 1.0

/-- The arguments of `query`. -/
structure Query where
  domains : List String
  languages : Option (List String)
  frameworks : Option (List String)
  pattern : String
  limit : Int

/-- The queried domains: the first of them, in normal form. -/
def Query.normalized (q : Query) : List String :=
  (Knowledge.normalizeDomains q.domains).take maxQueryDomains

/-- What a unit is ranked by. -/
def Query.score (q : Query) (unit : KnowledgeUnit F) : F :=
  calculateRelevance unit q.normalized q.languages q.frameworks q.pattern * unit.evidence.confidence

variable [JsonFloats F]

/-- The units that are ranked; `none` when one cannot be read. -/
def Query.units (q : Query) (now : Datetime) (db : LocalDb) (fts : List UnitRow) :
    Option (List (KnowledgeUnit F)) :=
  ((domainRows db (q.normalized.map utf8) ++ fts).mapM fun r =>
    KnowledgeUnit.modelValidateJson now r.data).map (firstById KnowledgeUnit.id [])

/-- `query` of the local store; `none` when it raises. -/
def Query.run (q : Query) (now : Datetime) (db : LocalDb) (fts : List UnitRow) :
    Option (List (KnowledgeUnit F)) :=
  if q.limit ≤ 0 then none
  else if q.normalized = [] then some []
  else (q.units now db fts).map fun units => (sortDesc q.score units).take q.limit.toNat

omit [Floats F] [Casing] [JsonFloats F] in
/-- `_merge_results`. -/
def mergeResults (localUnits remote : List (KnowledgeUnit F)) (limit : Nat) :
    List (KnowledgeUnit F) :=
  (firstById KnowledgeUnit.id [] (localUnits ++ remote)).take limit

end Score

end Py

/-! ## What is gathered -/

theorem domainRows_congr {db : LocalDb} {domains domains' : List Bytes}
    (h : ∀ d, d ∈ domains ↔ d ∈ domains') : domainRows db domains = domainRows db domains' := by
  refine List.filter_congr fun r _ => ?_
  rw [Bool.eq_iff_iff]
  simp only [List.any_eq_true, h]

section ById

variable {U κ : Type} [DecidableEq κ] {id : U → κ}

theorem mem_lastById_ids {us : List U} {k : κ} : k ∈ (lastById id us).map id ↔ k ∈ us.map id := by
  induction us with
  | nil => exact Iff.rfl
  | cons u us ih =>
      unfold lastById
      by_cases hu : id u ∈ us.map id
      · rw [if_pos hu, ih, List.map_cons, List.mem_cons]
        refine ⟨.inr, fun h => h.elim (fun heq => ?_) fun h => h⟩
        rw [heq]
        exact hu
      · rw [if_neg hu, List.map_cons, List.map_cons, List.mem_cons, List.mem_cons, ih]

theorem lastById_sublist (us : List U) : (lastById id us).Sublist us := by
  induction us with
  | nil => exact .slnil
  | cons u us ih =>
      unfold lastById
      split
      · exact ih.cons u
      · exact ih.cons_cons u

theorem lastById_nodup (us : List U) : ((lastById id us).map id).Nodup := by
  induction us with
  | nil => exact List.nodup_nil
  | cons u us ih =>
      unfold lastById
      by_cases hu : id u ∈ us.map id
      · rw [if_pos hu]
        exact ih
      · rw [if_neg hu, List.map_cons, List.nodup_cons, mem_lastById_ids]
        exact ⟨hu, ih⟩

theorem firstById_sublist (seen : List κ) (us : List U) : (firstById id seen us).Sublist us := by
  induction us generalizing seen with
  | nil => exact .slnil
  | cons u us ih =>
      unfold firstById
      split
      · exact (ih seen).cons u
      · exact (ih _).cons_cons u

theorem mem_firstById_ids {seen : List κ} {us : List U} {k : κ} :
    k ∈ (firstById id seen us).map id ↔ k ∈ us.map id ∧ k ∉ seen := by
  induction us generalizing seen with
  | nil => simp [firstById]
  | cons u us ih =>
      unfold firstById
      by_cases hu : id u ∈ seen
      · rw [if_pos hu, ih, List.map_cons, List.mem_cons]
        refine ⟨fun h => ⟨.inr h.1, h.2⟩, fun h => ⟨h.1.resolve_left fun heq => ?_, h.2⟩⟩
        rw [heq] at h
        exact h.2 hu
      · rw [if_neg hu, List.map_cons, List.map_cons, List.mem_cons, List.mem_cons, ih]
        by_cases hk : k = id u
        · simp [hk, hu]
        · simp [hk]

theorem firstById_nodup (seen : List κ) (us : List U) :
    ((firstById id seen us).map id).Nodup := by
  induction us generalizing seen with
  | nil => exact List.nodup_nil
  | cons u us ih =>
      unfold firstById
      by_cases hu : id u ∈ seen
      · rw [if_pos hu]
        exact ih seen
      · rw [if_neg hu, List.map_cons, List.nodup_cons, mem_firstById_ids]
        exact ⟨fun h => h.2 List.mem_cons_self, ih _⟩

/-- What is kept begins with what comes first, as long as that repeats nothing. -/
theorem take_firstById {seen : List κ} {us : List U} {n : Nat} (hnodup : ((us.take n).map id).Nodup)
    (hnew : ∀ u ∈ us.take n, id u ∉ seen) : (firstById id seen us).take n = us.take n := by
  induction us generalizing seen n with
  | nil => rfl
  | cons u us ih =>
      cases n with
      | zero => rfl
      | succ n =>
          rw [List.take_succ_cons, List.map_cons, List.nodup_cons] at hnodup
          rw [List.take_succ_cons] at hnew ⊢
          rw [firstById, if_neg (hnew u List.mem_cons_self), List.take_succ_cons,
            ih hnodup.2 fun v hv hseen => ?_]
          rcases List.mem_cons.mp hseen with heq | hseen
          · exact hnodup.1 (heq ▸ List.mem_map_of_mem hv)
          · exact hnew v (List.mem_cons_of_mem _ hv) hseen

/-- What has been seen may as well be left out beforehand. -/
theorem firstById_append_filter {seen : List κ} {us vs : List U} {p : U → Bool}
    (hp : ∀ v ∈ vs, p v = false → id v ∈ seen ∨ id v ∈ us.map id) :
    firstById id seen (us ++ vs.filter p) = firstById id seen (us ++ vs) := by
  induction us generalizing seen with
  | nil =>
      rw [List.nil_append, List.nil_append]
      induction vs generalizing seen with
      | nil => rfl
      | cons v vs ih =>
          have hrest : ∀ w ∈ vs, p w = false → id w ∈ seen ∨ id w ∈ ([] : List U).map id :=
            fun w hw => hp w (List.mem_cons_of_mem _ hw)
          cases hv : p v with
          | false =>
              have hseen : id v ∈ seen :=
                (hp v List.mem_cons_self hv).resolve_right List.not_mem_nil
              rw [List.filter_cons_of_neg (by simp [hv]), ih hrest, firstById, if_pos hseen]
          | true =>
              rw [List.filter_cons_of_pos hv, firstById, firstById, ih hrest,
                ih fun w hw hpw => (hrest w hw hpw).imp (List.mem_cons_of_mem _) fun h => h]
  | cons u us ih =>
      rw [List.cons_append, List.cons_append, firstById, firstById]
      by_cases hu : id u ∈ seen
      · rw [if_pos hu, if_pos hu]
        refine ih fun v hv hpv => (hp v hv hpv).elim .inl fun hmem => ?_
        rw [List.map_cons, List.mem_cons] at hmem
        exact hmem.elim (fun heq => .inl (heq ▸ hu)) .inr
      · rw [if_neg hu, if_neg hu]
        congr 1
        refine ih fun v hv hpv => (hp v hv hpv).elim (fun h => .inl (List.mem_cons_of_mem _ h)) ?_
        intro hmem
        rw [List.map_cons, List.mem_cons] at hmem
        rcases hmem with heq | hmem
        · exact .inl (List.mem_cons.mpr (.inl heq))
        · exact .inr hmem

omit [DecidableEq κ] in
/-- Where an id determines what bears it, nothing is dropped but repetitions. -/
theorem mem_of_ids {us vs : List U} (hunique : ∀ u ∈ us, ∀ v ∈ us, id u = id v → u = v)
    (hsublist : vs.Sublist us) (hids : ∀ k, k ∈ vs.map id ↔ k ∈ us.map id) {u : U} :
    u ∈ vs ↔ u ∈ us := by
  refine ⟨fun h => hsublist.subset h, fun h => ?_⟩
  obtain ⟨v, hv, hid⟩ := List.mem_map.mp ((hids (id u)).mpr (List.mem_map_of_mem h))
  rw [hunique u h v (hsublist.subset hv) hid.symm]
  exact hv

end ById

/-- Some rows, each under an id of its own, that are read as units with these ids. -/
structure ReadRows {U : Type} (rows : List UnitRow) (read : UnitRow → Option U) (unitId : U → Bytes) :
    Prop where
  unique : ∀ r ∈ rows, ∀ r' ∈ rows, r.id = r'.id → r = r'
  read : ∀ r ∈ rows, ∃ u, read r = some u ∧ unitId u = r.id

namespace ReadRows

variable {U : Type} {rows : List UnitRow} {read : UnitRow → Option U} {unitId : U → Bytes}

theorem of_subset {rows' : List UnitRow} (h : ReadRows rows read unitId) (hsub : rows' ⊆ rows) :
    ReadRows rows' read unitId :=
  ⟨fun r hr r' hr' => h.unique r (hsub hr) r' (hsub hr'), fun r hr => h.read r (hsub hr)⟩

theorem mapM_eq (h : ReadRows rows read unitId) : rows.mapM read = some (rows.filterMap read) := by
  induction rows with
  | nil => rfl
  | cons r rows ih =>
      obtain ⟨u, hu, -⟩ := h.read r List.mem_cons_self
      rw [List.mapM_cons, hu, List.filterMap_cons_some hu,
        ih (h.of_subset fun r' hr' => List.mem_cons_of_mem _ hr')]
      rfl

theorem unique_units (h : ReadRows rows read unitId) :
    ∀ u ∈ rows.filterMap read, ∀ v ∈ rows.filterMap read, unitId u = unitId v → u = v := by
  intro u hu v hv hid
  obtain ⟨r, hr, hru⟩ := List.mem_filterMap.mp hu
  obtain ⟨r', hr', hrv⟩ := List.mem_filterMap.mp hv
  obtain ⟨u', hu', hid'⟩ := h.read r hr
  obtain ⟨v', hv', hid''⟩ := h.read r' hr'
  obtain rfl : u' = u := Option.some.inj (hu'.symm.trans hru)
  obtain rfl : v' = v := Option.some.inj (hv'.symm.trans hrv)
  rw [h.unique r hr r' hr' (hid'.symm.trans (hid.trans hid''))] at hru
  exact Option.some.inj (hru.symm.trans hrv)

theorem ids_eq (h : ReadRows rows read unitId) :
    (rows.filterMap read).map unitId = rows.map UnitRow.id := by
  induction rows with
  | nil => rfl
  | cons r rows ih =>
      obtain ⟨u, hu, hid⟩ := h.read r List.mem_cons_self
      rw [List.filterMap_cons_some hu, List.map_cons, List.map_cons, hid,
        ih (h.of_subset fun r' hr' => List.mem_cons_of_mem _ hr')]

/-- The rows, each once. -/
theorem mem_firstById (h : ReadRows rows read unitId) {r : UnitRow} :
    r ∈ firstById UnitRow.id [] rows ↔ r ∈ rows :=
  mem_of_ids h.unique (firstById_sublist [] rows) fun k => by simp [mem_firstById_ids]

/-- The units that are kept, however repetitions are dropped, are those of the rows, each once. -/
theorem perm {vs : List U} {kept : List UnitRow} (h : ReadRows rows read unitId)
    (hkept : ∀ r, r ∈ kept ↔ r ∈ rows) (honce : (kept.map UnitRow.id).Nodup)
    (hsublist : vs.Sublist (rows.filterMap read)) (hnodup : (vs.map unitId).Nodup)
    (hids : ∀ k, k ∈ vs.map unitId ↔ k ∈ (rows.filterMap read).map unitId) :
    vs.Perm (kept.filterMap read) := by
  have hrows : ReadRows kept read unitId := h.of_subset fun r hr => (hkept r).mp hr
  refine (List.perm_ext_iff_of_nodup hnodup.of_map ?_).mpr fun u => ?_
  · exact List.Nodup.of_map unitId (hrows.ids_eq ▸ honce)
  · rw [mem_of_ids h.unique_units hsublist hids]
    simp only [List.mem_filterMap, hkept]

/-- What two readers make of the same rows stands for one another. -/
theorem counterpart {V κ : Type} {kept : List UnitRow} {read' : UnitRow → Option V}
    {unitId' : V → Bytes} {score : U → κ} {score' : V → κ} (h : ReadRows rows read unitId) (h' : ReadRows rows read' unitId')
    (hkept : ∀ r ∈ kept, r ∈ rows)
    (hscores : ∀ r ∈ rows, ∀ u v, read r = some u → read' r = some v → score u = score' v) :
    ∀ v ∈ kept.filterMap read', ∃ u ∈ kept.filterMap read,
      unitId u = unitId' v ∧ score u = score' v := by
  intro v hv
  obtain ⟨r, hr, hrv⟩ := List.mem_filterMap.mp hv
  obtain ⟨u, hu, hid⟩ := h.read r (hkept r hr)
  obtain ⟨v', hv', hid'⟩ := h'.read r (hkept r hr)
  obtain rfl : v' = v := Option.some.inj (hv'.symm.trans hrv)
  exact ⟨u, List.mem_filterMap.mpr ⟨r, hr, hu⟩, hid.trans hid'.symm,
    hscores r (hkept r hr) u v' hu hv'⟩

theorem scores_eq {V κ : Type} {read' : UnitRow → Option V} {unitId' : V → Bytes}
    {score : U → κ} {score' : V → κ} (h : ReadRows rows read unitId) (h' : ReadRows rows read' unitId')
    (hscores : ∀ r ∈ rows, ∀ u v, read r = some u → read' r = some v → score u = score' v) :
    (rows.filterMap read).map score = (rows.filterMap read').map score' := by
  induction rows with
  | nil => rfl
  | cons r rows ih =>
      obtain ⟨u, hu, -⟩ := h.read r List.mem_cons_self
      obtain ⟨v, hv, -⟩ := h'.read r List.mem_cons_self
      have hrest := ih (h.of_subset fun r' hr' => List.mem_cons_of_mem _ hr')
        (h'.of_subset fun r' hr' => List.mem_cons_of_mem _ hr')
        fun r' hr' => hscores r' (List.mem_cons_of_mem _ hr')
      rw [List.filterMap_cons_some hu, List.filterMap_cons_some hv, List.map_cons, List.map_cons,
        hrest, hscores r List.mem_cons_self u v hu hv]

end ReadRows

/-! ## Terms -/

section Terms

variable [Go.Strings]

/-- Tags are put into a map in their normal forms, as long as these are few. -/
theorem Go.foldlM_withTag {max : Nat} {normal : List Go.Text} (hlength : normal.length ≤ max)
    {tags acc : List Go.Text} (hacc : acc.Nodup) (hsub : acc ⊆ normal)
    (htags : ∀ tag ∈ tags, Go.Strings.toLower (Go.Strings.trimSpace tag) ≠ [] →
      Go.Strings.toLower (Go.Strings.trimSpace tag) ∈ normal) :
    ∃ res, tags.foldlM (Go.withTag max) acc = some res ∧ res.Nodup ∧ ∀ t, t ∈ res ↔
      t ∈ acc ∨ (t ≠ [] ∧ ∃ tag ∈ tags, Go.Strings.toLower (Go.Strings.trimSpace tag) = t) := by
  induction tags generalizing acc with
  | nil => exact ⟨acc, rfl, hacc, fun t => by simp⟩
  | cons tag tags ih =>
      have htags' : ∀ tag' ∈ tags, Go.Strings.toLower (Go.Strings.trimSpace tag') ≠ [] →
          Go.Strings.toLower (Go.Strings.trimSpace tag') ∈ normal :=
        fun tag' htag' => htags tag' (List.mem_cons_of_mem _ htag')
      generalize ht : Go.Strings.toLower (Go.Strings.trimSpace tag) = t₀
      have hstep : Go.withTag max acc tag = if t₀ = [] then some acc
          else if t₀ ∈ acc then some acc
          else if max ≤ acc.length then none else some (acc ++ [t₀]) := by
        rw [← ht]
        rfl
      rw [List.foldlM_cons, hstep]
      by_cases hempty : t₀ = []
      · rw [if_pos hempty]
        obtain ⟨res, hres, hnodup, hmem⟩ := ih hacc hsub htags'
        refine ⟨res, hres, hnodup, fun t => ?_⟩
        rw [hmem]
        simp only [List.mem_cons, exists_eq_or_imp, ht, hempty]
        grind
      rw [if_neg hempty]
      by_cases hold : t₀ ∈ acc
      · rw [if_pos hold]
        obtain ⟨res, hres, hnodup, hmem⟩ := ih hacc hsub htags'
        refine ⟨res, hres, hnodup, fun t => ?_⟩
        rw [hmem]
        simp only [List.mem_cons, exists_eq_or_imp, ht]
        grind
      rw [if_neg hold]
      have hnormal : t₀ ∈ normal := by
        rw [← ht]
        exact htags tag List.mem_cons_self (by rw [ht]; exact hempty)
      -- there is room, since the map has not all of the normal forms yet
      have hroom : acc.length < max := by
        have hnodup : (t₀ :: acc).Nodup := List.nodup_cons.mpr ⟨hold, hacc⟩
        have hle := (List.subperm_of_subset hnodup
          (List.cons_subset.mpr ⟨hnormal, hsub⟩)).length_le
        rw [List.length_cons] at hle
        omega
      rw [if_neg (by omega)]
      obtain ⟨res, hres, hnodup, hmem⟩ := @ih (acc ++ [t₀])
        (List.nodup_append.mpr ⟨hacc, List.nodup_singleton _, by grind⟩)
        (List.append_subset.mpr ⟨hsub, by simpa using hnormal⟩) htags'
      refine ⟨res, hres, hnodup, fun t => ?_⟩
      rw [hmem]
      simp only [List.mem_append, List.mem_cons, List.not_mem_nil, or_false, exists_eq_or_imp, ht]
      grind

variable [Casing]

/-- The two SDKs bring a domain to the same form, or both drop it. -/
def SameDomain (d : String) : Prop :=
  Go.Strings.toLower (Go.Strings.trimSpace (utf8 d)) =
    utf8 (if strip d = "" then "" else Casing.lower (strip d)) ∧
  (strip d ≠ "" → Casing.lower (strip d) ≠ "")

/-- A tag that Go leaves as it is. -/
def NormalTag (t : String) : Prop :=
  t ≠ "" ∧ Go.Strings.toLower (Go.Strings.trimSpace (utf8 t)) = utf8 t

/-- The two SDKs agree on whether a pattern is the one that is asked for. -/
def SamePattern [Go.Folding] (queried pattern : String) : Prop :=
  (Go.withPattern (utf8 queried) ≠ [] ∧ utf8 pattern ≠ [] ∧
      Go.Folding.equalFold (Go.withPattern (utf8 queried)) (utf8 pattern) = true) ↔
    (queried ≠ "" ∧ pattern ≠ "" ∧ Casing.lower queried = Casing.lower pattern)

omit [Go.Strings] [Casing] in
theorem utf8_eq_nil_iff {s : String} : utf8 s = [] ↔ s = "" :=
  ⟨fun h => utf8_injective (t := "") h, fun h => h ▸ rfl⟩

omit [Go.Strings] in
theorem mem_normalizeDomains {domains : List String} {t : String} :
    t ∈ Knowledge.normalizeDomains domains ↔
      ∃ d ∈ domains, strip d ≠ "" ∧ Casing.lower (strip d) = t := by
  simp only [Knowledge.normalizeDomains, List.mem_reverse, List.mem_dedup, List.mem_map,
    List.mem_filter, decide_eq_true_eq, and_assoc]

/-- The domains that Go asks for are those that Python asks for. -/
theorem Go.domains_eq {domains : List String} (hsame : ∀ d ∈ domains, SameDomain d)
    (hfew : (Knowledge.normalizeDomains domains).length ≤ Go.maxQueryDomains) :
    ∃ res, (domains.map utf8).foldlM Go.withDomain [] = some res ∧ res.Nodup ∧
      ∀ t, t ∈ res ↔ t ∈ (Knowledge.normalizeDomains domains).map utf8 := by
  have hform : ∀ d ∈ domains, ∀ t, t ≠ [] →
      (Go.Strings.toLower (Go.Strings.trimSpace (utf8 d)) = t ↔
        strip d ≠ "" ∧ utf8 (Casing.lower (strip d)) = t) := by
    intro d hd t ht
    rw [(hsame d hd).1]
    by_cases hblank : strip d = ""
    · rw [if_pos hblank, utf8_eq_nil_iff.mpr rfl]
      exact ⟨fun h => absurd h.symm ht, fun h => absurd hblank h.1⟩
    · rw [if_neg hblank]
      exact ⟨fun h => ⟨hblank, h⟩, fun h => h.2⟩
  have hlength : ((Knowledge.normalizeDomains domains).map utf8).length ≤ Go.maxQueryDomains := by
    rw [List.length_map]
    exact hfew
  obtain ⟨res, hres, hnodup, hmem⟩ := @Go.foldlM_withTag _ Go.maxQueryDomains _ hlength
    (domains.map utf8) [] List.nodup_nil (List.nil_subset _) (by
      intro tag htag hne
      obtain ⟨d, hd, rfl⟩ := List.mem_map.mp htag
      obtain ⟨hblank, heq⟩ := (hform d hd _ hne).mp rfl
      rw [← heq]
      exact List.mem_map_of_mem (mem_normalizeDomains.mpr ⟨d, hd, hblank, rfl⟩))
  refine ⟨res, hres, hnodup, fun t => ?_⟩
  rw [hmem, List.mem_map]
  simp only [List.not_mem_nil, false_or, List.mem_map, exists_exists_and_eq_and,
    mem_normalizeDomains]
  constructor
  · rintro ⟨hne, d, hd, heq⟩
    obtain ⟨hblank, heq⟩ := (hform d hd t hne).mp heq
    exact ⟨_, ⟨d, hd, hblank, rfl⟩, heq⟩
  · rintro ⟨-, ⟨d, hd, hblank, rfl⟩, rfl⟩
    have hne : utf8 (Casing.lower (strip d)) ≠ [] :=
      mt utf8_eq_nil_iff.mp ((hsame d hd).2 hblank)
    exact ⟨hne, d, hd, (hform d hd _ hne).mpr ⟨hblank, rfl⟩⟩

omit [Casing] in
/-- Tags in normal form are asked for as they are. -/
theorem Go.tags_eq {max : Nat} {tags : List String} (hnormal : ∀ t ∈ tags, NormalTag t)
    (hfew : tags.dedup.length ≤ max) :
    ∃ res, (tags.map utf8).foldlM (Go.withTag max) [] = some res ∧
      ∀ t, t ∈ res ↔ t ∈ tags.map utf8 := by
  have hlength : (tags.dedup.map utf8).length ≤ max := by
    rw [List.length_map]
    exact hfew
  obtain ⟨res, hres, -, hmem⟩ := @Go.foldlM_withTag _ max _ hlength
    (tags.map utf8) [] List.nodup_nil (List.nil_subset _) (by
      intro tag htag hne
      obtain ⟨t, ht, rfl⟩ := List.mem_map.mp htag
      rw [(hnormal t ht).2]
      exact List.mem_map_of_mem (List.mem_dedup.mpr ht))
  refine ⟨res, hres, fun t => ?_⟩
  rw [hmem]
  simp only [List.not_mem_nil, false_or, List.mem_map, exists_exists_and_eq_and]
  constructor
  · rintro ⟨-, tag, htag, heq⟩
    exact ⟨tag, htag, (hnormal tag htag).2.symm.trans heq⟩
  · rintro ⟨tag, htag, rfl⟩
    exact ⟨mt utf8_eq_nil_iff.mp (hnormal tag htag).1, tag, htag, (hnormal tag htag).2⟩

end Terms

/-! ## Scores -/

section Score

variable {F : Type} [Floats F]

/-- `jaccardSimilarity` counts in sets. -/
theorem Go.jaccardSimilarity_eq (a b : List Go.Text) :
    (Go.jaccardSimilarity a b : F) =
      if a.toFinset.card = 0 ∧ b.toFinset.card = 0 then 0.0
      else ((a.toFinset ∩ b.toFinset).card : F) / ((a.toFinset ∪ b.toFinset).card : F) := by
  have hempty : ∀ l : List Go.Text, l.length = 0 ↔ l.toFinset.card = 0 := by
    intro l
    rw [List.length_eq_zero_iff, Finset.card_eq_zero, List.toFinset_eq_empty_iff]
  have hinter : (a.dedup.filter (· ∈ b.dedup)).length = (a.toFinset ∩ b.toFinset).card := by
    rw [← List.toFinset_card_of_nodup ((List.nodup_dedup a).filter _)]
    congr 1
    ext t
    simp
  have hunion : a.dedup.length + b.dedup.length - (a.toFinset ∩ b.toFinset).card =
      (a.toFinset ∪ b.toFinset).card := by
    rw [Finset.card_union, List.card_toFinset, List.card_toFinset]
  simp only [Go.jaccardSimilarity, hempty, hinter, hunion]

/-- Sets of texts overlap as the sets of their bytes do. -/
theorem Go.jaccardSimilarity_utf8 {queried : List Go.Text} {queried' : List String}
    (hqueried : ∀ t, t ∈ queried ↔ t ∈ queried'.map utf8) (domains : List String) :
    (Go.jaccardSimilarity (domains.map utf8) queried : F) =
      if domains.toFinset.card = 0 ∧ queried'.toFinset.card = 0 then 0.0
      else ((domains.toFinset ∩ queried'.toFinset).card : F) /
        ((domains.toFinset ∪ queried'.toFinset).card : F) := by
  have hutf8 : Function.Injective utf8 := fun _ _ => utf8_injective
  have hdomains : (domains.map utf8).toFinset = domains.toFinset.image utf8 := by
    ext t
    simp
  have hterms : queried.toFinset = queried'.toFinset.image utf8 := by
    ext t
    rw [List.mem_toFinset, hqueried]
    simp
  rw [Go.jaccardSimilarity_eq, hdomains, hterms, ← Finset.image_inter _ _ hutf8,
    ← Finset.image_union]
  simp only [Finset.card_image_of_injective _ hutf8]

theorem Go.anyMatch_utf8 {queried : List Go.Text} {queried' : List String}
    (hqueried : ∀ t, t ∈ queried ↔ t ∈ queried'.map utf8) (items : List String) :
    Go.anyMatch (items.map utf8) queried = queried'.any (· ∈ items) := by
  have hutf8 : Function.Injective utf8 := fun _ _ => utf8_injective
  rw [Bool.eq_iff_iff]
  simp only [Go.anyMatch, List.any_eq_true, hqueried, List.mem_map, decide_eq_true_eq,
    exists_exists_and_eq_and, hutf8.eq_iff, exists_eq_right]

variable [JsonFloats F]

/-- What Go scores of a document. -/
theorem Go.scored_of_read {d : Document} {ku : Go.KnowledgeUnit F}
    (h : Go.KnowledgeUnit.unmarshal d.json = some ku) :
    ku.domains = d.domains.map (List.map utf8) ∧ ku.context = Go.Context.ofDocument d.context ∧
      JsonFloats.value d.evidence.confidence = some ku.evidence.confidence := by
  rw [Go.KnowledgeUnit.unmarshal_json] at h
  obtain ⟨version, -, h⟩ := Option.bind_eq_some_iff.mp h
  obtain ⟨evidence, hevidence, h⟩ := Option.bind_eq_some_iff.mp h
  obtain ⟨flags, -, h⟩ := Option.bind_eq_some_iff.mp h
  obtain ⟨confidence, hconfidence, hevidence⟩ := Option.bind_eq_some_iff.mp hevidence
  obtain ⟨confirmations, -, hevidence⟩ := Option.bind_eq_some_iff.mp hevidence
  obtain ⟨first, -, hevidence⟩ := Option.bind_eq_some_iff.mp hevidence
  obtain ⟨last, -, hevidence⟩ := Option.bind_eq_some_iff.mp hevidence
  cases hevidence
  cases h
  exact ⟨rfl, rfl, hconfidence⟩

/-- What Python scores of a document. -/
theorem Py.scored_of_read {now : Py.Datetime} {d : Document} {unit : Py.KnowledgeUnit F}
    (h : Py.KnowledgeUnit.modelValidateJson now d.json = some unit) :
    d.domains = some unit.domains ∧ d.context.languages = some unit.context.languages ∧
      d.context.frameworks = some unit.context.frameworks ∧
      d.context.pattern = unit.context.pattern ∧
      JsonFloats.value d.evidence.confidence = some unit.evidence.confidence := by
  rw [Py.KnowledgeUnit.modelValidateJson_json] at h
  obtain ⟨domains, hdomains, h⟩ := Option.bind_eq_some_iff.mp h
  obtain ⟨context, hcontext, h⟩ := Option.bind_eq_some_iff.mp h
  obtain ⟨evidence, hevidence, h⟩ := Option.bind_eq_some_iff.mp h
  obtain ⟨tier, -, h⟩ := Option.bind_eq_some_iff.mp h
  obtain ⟨flags, -, h⟩ := Option.bind_eq_some_iff.mp h
  obtain ⟨-, h⟩ := Option.ite_none_right_eq_some.mp h
  obtain ⟨languages, hlanguages, hcontext⟩ := Option.bind_eq_some_iff.mp hcontext
  obtain ⟨frameworks, hframeworks, hcontext⟩ := Option.bind_eq_some_iff.mp hcontext
  obtain ⟨confidence, hconfidence, hevidence⟩ := Option.bind_eq_some_iff.mp hevidence
  obtain ⟨first, -, hevidence⟩ := Option.bind_eq_some_iff.mp hevidence
  obtain ⟨last, -, hevidence⟩ := Option.bind_eq_some_iff.mp hevidence
  obtain ⟨-, hevidence⟩ := Option.ite_none_right_eq_some.mp hevidence
  cases hcontext
  cases hevidence
  cases h
  exact ⟨hdomains, hlanguages, hframeworks, rfl, hconfidence⟩

end Score

/-! ## The two queries -/

section Queries

variable {F : Type} [Floats F] [JsonFloats F] [Go.Strings] [Go.Folding] [Casing]

/-- The query as Go is asked it. -/
def Py.Query.toGo (q : Py.Query) : Go.QueryParams where
  domains := q.domains.map utf8
  languages := (q.languages.getD []).map utf8
  frameworks := (q.frameworks.getD []).map utf8
  pattern := utf8 q.pattern
  limit := q.limit

/-- A query within the bounds of both SDKs, in terms that both bring to one form. -/
structure Py.Query.Comparable (q : Py.Query) : Prop where
  limit_pos : 0 < q.limit
  limit_le : q.limit ≤ Go.maxClientQueryLimit
  domains : ∀ d ∈ q.domains, SameDomain d
  domains_few : (Knowledge.normalizeDomains q.domains).length ≤ Go.maxQueryDomains
  languages : ∀ t ∈ q.languages.getD [], NormalTag t
  languages_few : (q.languages.getD []).dedup.length ≤ Go.maxQueryLanguages
  frameworks : ∀ t ∈ q.frameworks.getD [], NormalTag t
  frameworks_few : (q.frameworks.getD []).dedup.length ≤ Go.maxQueryFrameworks

/-- A stored row that both SDKs can read, under the id of its unit, and whose pattern both compare
with that of the query alike. -/
def Py.Query.Readable (F : Type) [Floats F] [JsonFloats F] (q : Py.Query) (now : Py.Datetime)
    (r : UnitRow) : Prop :=
  ∃ d : Document, r.data = d.json ∧ utf8 d.id = r.id ∧
    (∃ ku : Go.KnowledgeUnit F, Go.KnowledgeUnit.unmarshal d.json = some ku) ∧
    (∃ unit : Py.KnowledgeUnit F, Py.KnowledgeUnit.modelValidateJson now d.json = some unit) ∧
    SamePattern q.pattern d.context.pattern

/-- Options of Go that ask for what the query asks. -/
structure Go.QueryOptions.For (opts : Go.QueryOptions) (q : Py.Query) : Prop where
  domains : ∀ t, t ∈ opts.domains ↔ t ∈ q.normalized.map utf8
  languages : ∀ t, t ∈ opts.languages ↔ t ∈ (q.languages.getD []).map utf8
  frameworks : ∀ t, t ∈ opts.frameworks ↔ t ∈ (q.frameworks.getD []).map utf8
  pattern : opts.pattern = Go.withPattern (utf8 q.pattern)
  limit : opts.limit = q.limit.toNat

variable {q : Py.Query} {now : Py.Datetime}

omit [Go.Folding] in
theorem Go.newQueryOptions_eq (hq : q.Comparable) :
    ∃ opts, Go.newQueryOptions q.toGo = some opts ∧ opts.For q := by
  obtain ⟨ds, hds, -, hdomains⟩ := Go.domains_eq hq.domains hq.domains_few
  obtain ⟨ls, hls, hlanguages⟩ := Go.tags_eq hq.languages hq.languages_few
  obtain ⟨fs, hfs, hframeworks⟩ := Go.tags_eq hq.frameworks hq.frameworks_few
  refine ⟨⟨ds, ls, fs, Go.withPattern (utf8 q.pattern), Go.clientLimit q.limit⟩, ?_, ?_⟩
  · show ((q.domains.map utf8).foldlM Go.withDomain []).bind _ = _
    rw [hds]
    show (((q.languages.getD []).map utf8).foldlM (Go.withTag Go.maxQueryLanguages) []).bind _ = _
    rw [hls]
    show (((q.frameworks.getD []).map utf8).foldlM (Go.withTag Go.maxQueryFrameworks) []).bind _ = _
    rw [hfs]
    rfl
  · have hall : q.normalized = Knowledge.normalizeDomains q.domains :=
      List.take_of_length_le hq.domains_few
    refine ⟨fun t => ?_, hlanguages, hframeworks, rfl, ?_⟩
    · rw [hdomains, hall]
    · have hpos := hq.limit_pos
      have hle := hq.limit_le
      show Int.toNat _ = q.limit.toNat
      rw [if_neg (by omega), if_neg (by omega)]

/-- **A row has one score.** -/
theorem score_eq {opts : Go.QueryOptions} (hopts : opts.For q) {d : Document}
    {ku : Go.KnowledgeUnit F} {unit : Py.KnowledgeUnit F}
    (hku : Go.KnowledgeUnit.unmarshal d.json = some ku)
    (hunit : Py.KnowledgeUnit.modelValidateJson now d.json = some unit)
    (hpattern : SamePattern q.pattern d.context.pattern) : opts.score ku = q.score unit := by
  obtain ⟨hgoDomains, hgoContext, hgoConfidence⟩ := Go.scored_of_read hku
  obtain ⟨hdomains, hlanguages, hframeworks, hpatternEq, hconfidence⟩ := Py.scored_of_read hunit
  have hsame : ku.evidence.confidence = unit.evidence.confidence :=
    Option.some.inj (hgoConfidence.symm.trans hconfidence)
  have hmatch : (opts.pattern ≠ [] ∧ ku.context.pattern ≠ [] ∧
      Go.Folding.equalFold opts.pattern ku.context.pattern = true) ↔
      (q.pattern ≠ "" ∧ unit.context.pattern ≠ "" ∧
        Casing.lower q.pattern = Casing.lower unit.context.pattern) := by
    rw [hopts.pattern, hgoContext, ← hpatternEq]
    exact hpattern
  have hdomainScore := Go.jaccardSimilarity_utf8 (F := F) hopts.domains unit.domains
  have hlanguageMatch := Go.anyMatch_utf8 hopts.languages unit.context.languages
  have hframeworkMatch := Go.anyMatch_utf8 hopts.frameworks unit.context.frameworks
  unfold Go.QueryOptions.score Py.Query.score Go.relevance Py.calculateRelevance
  rw [hgoDomains, hdomains, hsame, hgoContext] at *
  simp only [Go.Context.ofDocument, hlanguages, hframeworks, Option.map_some, Option.getD_some,
    hdomainScore, hlanguageMatch, hframeworkMatch] at hmatch ⊢
  simp only [hmatch]

/-- The rows that a query finds. -/
def Py.Query.rows (q : Py.Query) (db : LocalDb) (fts : List UnitRow) : List UnitRow :=
  domainRows db (q.normalized.map utf8) ++ fts

omit [Go.Strings] [Go.Folding] in
theorem Py.Query.rows_unique {db : LocalDb} {fts : List UnitRow}
    (hfts : ∀ r ∈ fts, r ∈ db.units.rows) :
    ∀ r ∈ q.rows db fts, ∀ r' ∈ q.rows db fts, r.id = r'.id → r = r' := by
  have hstored : ∀ r ∈ q.rows db fts, r ∈ db.units.rows := by
    intro r hr
    rcases List.mem_append.mp hr with hr | hr
    · exact List.mem_of_mem_filter hr
    · exact hfts r hr
  exact fun r hr r' hr' hid => db.units.eq_of_key_eq (hstored r hr) (hstored r' hr') hid

theorem Py.Query.go_reads {db : LocalDb} {fts : List UnitRow} (hfts : ∀ r ∈ fts, r ∈ db.units.rows)
    (hrows : ∀ r ∈ q.rows db fts, q.Readable F now r) :
    ReadRows (q.rows db fts)
      (fun r => (Go.KnowledgeUnit.unmarshal r.data : Option (Go.KnowledgeUnit F)))
      Go.KnowledgeUnit.id where
  unique := q.rows_unique hfts
  read := by
    intro r hr
    obtain ⟨d, hdata, hid, ⟨ku, hku⟩, -, -⟩ := hrows r hr
    rw [hdata]
    exact ⟨ku, hku, (Go.id_of_read hku).trans hid⟩

theorem Py.Query.py_reads {db : LocalDb} {fts : List UnitRow} (hfts : ∀ r ∈ fts, r ∈ db.units.rows)
    (hrows : ∀ r ∈ q.rows db fts, q.Readable F now r) :
    ReadRows (q.rows db fts)
      (fun r => (Py.KnowledgeUnit.modelValidateJson now r.data : Option (Py.KnowledgeUnit F)))
      (fun unit => utf8 unit.id) where
  unique := q.rows_unique hfts
  read := by
    intro r hr
    obtain ⟨d, hdata, hid, -, ⟨unit, hunit⟩, -⟩ := hrows r hr
    rw [hdata]
    exact ⟨unit, hunit, (congrArg utf8 (Py.id_of_read hunit)).trans hid⟩

/-- Go's candidates are what the rows are read as. -/
theorem Go.candidates_eq {opts : Go.QueryOptions} (hopts : opts.For q) {db : LocalDb}
    {fts : List UnitRow} (hfts : ∀ r ∈ fts, r ∈ db.units.rows)
    (hrows : ∀ r ∈ q.rows db fts, q.Readable F now r) :
    Go.candidates db opts.domains fts = some (lastById Go.KnowledgeUnit.id
      ((q.rows db fts).filterMap fun r =>
        (Go.KnowledgeUnit.unmarshal r.data : Option (Go.KnowledgeUnit F)))) := by
  have hreads := q.go_reads hfts hrows
  have hdomains := hreads.of_subset (List.subset_append_left _ fts)
  unfold Go.candidates
  rw [domainRows_congr hopts.domains, hdomains.mapM_eq, Py.Query.rows, List.filterMap_append]
  rfl

/-- Python's candidates are what the rows are read as. -/
theorem Py.Query.units_eq {db : LocalDb} {fts : List UnitRow} (hfts : ∀ r ∈ fts, r ∈ db.units.rows)
    (hrows : ∀ r ∈ q.rows db fts, q.Readable F now r) :
    q.units now db fts = some (firstById Py.KnowledgeUnit.id [] ((q.rows db fts).filterMap fun r =>
      (Py.KnowledgeUnit.modelValidateJson now r.data : Option (Py.KnowledgeUnit F)))) := by
  unfold Py.Query.units
  rw [← Py.Query.rows, (q.py_reads hfts hrows).mapM_eq, Option.map_some]

omit [Floats F] [JsonFloats F] [Go.Strings] [Go.Folding] [Casing] in
theorem Py.Query.units_perm {rows kept : List UnitRow}
    {read : UnitRow → Option (Py.KnowledgeUnit F)}
    (h : ReadRows rows read fun unit => utf8 unit.id) (hkept : ∀ r, r ∈ kept ↔ r ∈ rows)
    (honce : (kept.map UnitRow.id).Nodup) :
    (firstById Py.KnowledgeUnit.id [] (rows.filterMap read)).Perm (kept.filterMap read) := by
  have hids : ∀ units : List (Py.KnowledgeUnit F),
      units.map (fun unit => utf8 unit.id) = (units.map Py.KnowledgeUnit.id).map utf8 := by
    intro units
    rw [List.map_map]
    rfl
  refine h.perm hkept honce (firstById_sublist [] _) ?_ fun k => ?_
  · rw [hids]
    exact (firstById_nodup [] _).map fun _ _ => utf8_injective
  · rw [hids, hids, List.mem_map, List.mem_map]
    simp only [mem_firstById_ids, List.not_mem_nil, not_false_eq_true, and_true]

/-- **The two SDKs answer a query alike**: the units that they return have the same scores, and one
that only one of the two returns is no better than any that the other returns. -/
theorem queries_agree (hq : q.Comparable) {db : LocalDb} {fts fts' : List UnitRow}
    (hfts : ∀ r ∈ fts, r ∈ db.units.rows) (hfts' : ∀ r, r ∈ fts' ↔ r ∈ fts)
    (hrows : ∀ r ∈ q.rows db fts, q.Readable F now r) {result : Option (List (Go.KnowledgeUnit F))}
    (hgo : Go.MayReturn db q.toGo fts result) :
    ∃ (opts : Go.QueryOptions) (kus : List (Go.KnowledgeUnit F))
      (units : List (Py.KnowledgeUnit F)),
      Go.newQueryOptions q.toGo = some opts ∧ result = some kus ∧
      q.run now db fts' = some units ∧ kus.map opts.score = units.map q.score ∧
      (∀ ku ∈ kus, ku.id ∉ units.map (fun unit => utf8 unit.id) →
        ∀ unit ∈ units, opts.score ku ≤ q.score unit) ∧
      ∀ unit ∈ units, utf8 unit.id ∉ kus.map Go.KnowledgeUnit.id →
        ∀ ku ∈ kus, q.score unit ≤ opts.score ku := by
  obtain ⟨opts, hnew, hopts⟩ := Go.newQueryOptions_eq hq
  have hdomains : opts.domains = [] ↔ q.normalized = [] := by
    rw [List.eq_nil_iff_forall_not_mem, ← List.map_eq_nil_iff (f := utf8),
      List.eq_nil_iff_forall_not_mem]
    exact forall_congr' fun t => not_congr (hopts.domains t)
  have hlimit : ¬ q.limit ≤ 0 := not_le.mpr hq.limit_pos
  unfold Go.MayReturn at hgo
  rw [hnew] at hgo
  unfold Py.Query.run
  rw [if_neg hlimit]
  by_cases hnone : q.normalized = []
  · rw [if_pos hnone]
    simp only [if_pos (hdomains.mpr hnone)] at hgo
    exact ⟨opts, [], [], hnew, hgo, rfl, rfl, by simp, by simp⟩
  have hmem : ∀ r, r ∈ q.rows db fts' ↔ r ∈ q.rows db fts := by
    intro r
    simp only [Py.Query.rows, List.mem_append, hfts']
  have hfound' : ∀ r ∈ fts', r ∈ db.units.rows := fun r hr => hfts r ((hfts' r).mp hr)
  have hrows' : ∀ r ∈ q.rows db fts', q.Readable F now r := fun r hr => hrows r ((hmem r).mp hr)
  rw [if_neg hnone, Py.Query.units_eq hfound' hrows', Option.map_some]
  simp only [if_neg (mt hdomains.mp hnone), Go.candidates_eq hopts hfts hrows] at hgo
  obtain ⟨kus, rfl, hbest⟩ := hgo
  have hreads := q.go_reads hfts hrows
  have hreads' := q.py_reads hfts hrows
  have hscores : ∀ r ∈ q.rows db fts, ∀ (ku : Go.KnowledgeUnit F) (unit : Py.KnowledgeUnit F),
      Go.KnowledgeUnit.unmarshal r.data = some ku →
      Py.KnowledgeUnit.modelValidateJson now r.data = some unit →
      opts.score ku = q.score unit := by
    intro r hr ku unit hku hunit
    obtain ⟨d, hdata, -, -, -, hpattern⟩ := hrows r hr
    rw [hdata] at hku hunit
    exact score_eq hopts hku hunit hpattern
  -- both rank what they read of each row that they find, each row once
  have hkept : ∀ r, r ∈ firstById UnitRow.id [] (q.rows db fts) ↔ r ∈ q.rows db fts :=
    fun r => hreads.mem_firstById
  have honce : ((firstById UnitRow.id [] (q.rows db fts)).map UnitRow.id).Nodup :=
    firstById_nodup [] _
  generalize firstById UnitRow.id [] (q.rows db fts) = kept at hkept honce
  have hgoKept := hreads.perm hkept honce (lastById_sublist _) (lastById_nodup _)
    fun k => mem_lastById_ids
  have hpyKept := Py.Query.units_perm (q.py_reads hfound' hrows')
    (fun r => (hkept r).trans (hmem r).symm) honce
  have hbest' := (best_sortDesc q.score q.limit.toNat _).of_perm hpyKept
  have hbest := hopts.limit ▸ hbest.of_perm hgoKept
  have hsub : kept ⊆ q.rows db fts := fun r hr => (hkept r).mp hr
  have hkeys := (hreads.of_subset hsub).scores_eq (hreads'.of_subset hsub)
    fun r hr => hscores r (hsub hr)
  refine ⟨opts, kus, _, hnew, rfl, rfl, hbest.keys_eq hbest' (hkeys ▸ List.Perm.refl _), ?_, ?_⟩
  · intro ku hku hout unit hunit
    have hcounterpart := hreads'.counterpart hreads hsub fun r hr unit ku hunit hku =>
      (hscores r hr ku unit hku hunit).symm
    exact hbest'.le_of_counterpart hbest hcounterpart hku hout hunit
  · intro unit hunit hout ku hku
    exact hbest.le_of_counterpart hbest' (hreads.counterpart hreads' hsub hscores) hunit hout hku

end Queries

/-! ## The merges -/

section Merge

variable {F : Type}

/-- Python returns a unit once. -/
theorem Py.mergeResults_nodup (localUnits remote : List (Py.KnowledgeUnit F)) (limit : Nat) :
    ((Py.mergeResults localUnits remote limit).map Py.KnowledgeUnit.id).Nodup := by
  have hnodup : ((firstById Py.KnowledgeUnit.id [] (localUnits ++ remote)).map
      Py.KnowledgeUnit.id).Nodup := firstById_nodup [] _
  exact hnodup.sublist ((List.take_sublist _ _).map _)

/-- **Go merges as Python does where it returns a unit once**: it does not look whether the remote
has returned one twice. -/
theorem Go.mergeResults_eq_iff (localUnits remote : List (Go.KnowledgeUnit F)) (limit : Nat) :
    Go.mergeResults localUnits remote limit =
        (firstById Go.KnowledgeUnit.id [] (localUnits ++ remote)).take limit ↔
      ((Go.mergeResults localUnits remote limit).map Go.KnowledgeUnit.id).Nodup := by
  constructor
  · intro h
    have hnodup : ((firstById Go.KnowledgeUnit.id [] (localUnits ++ remote)).map
        Go.KnowledgeUnit.id).Nodup := firstById_nodup [] _
    rw [h]
    exact hnodup.sublist ((List.take_sublist _ _).map _)
  · intro hnodup
    have hknown : ∀ u ∈ remote, decide (u.id ∉ localUnits.map Go.KnowledgeUnit.id) = false →
        u.id ∈ ([] : List Bytes) ∨ u.id ∈ localUnits.map Go.KnowledgeUnit.id := by
      intro u _ hu
      exact .inr (by simpa using hu)
    rw [← firstById_append_filter hknown]
    exact (take_firstById hnodup fun _ _ => List.not_mem_nil).symm

end Merge

/-! ## A query of both -/

section Sample

local instance queryStrings : Go.Strings := Go.asciiStrings

local instance queryCasing : Casing := Knowledge.asciiCasing

/-- Letters are compared without regard to case. -/
local instance queryFolding : Go.Folding where
  equalFold s t := Go.Strings.toLower s = Go.Strings.toLower t

def sampleQuery : Py.Query where
  domains := ["API "]
  languages := some ["python"]
  frameworks := none
  pattern := ""
  limit := 5

theorem sampleQuery_comparable : sampleQuery.Comparable where
  limit_pos := by decide
  limit_le := by decide
  domains := by
    intro d hd
    rw [List.mem_singleton.mp hd]
    exact ⟨by decide +kernel, fun _ => by decide +kernel⟩
  domains_few := by decide +kernel
  languages := by
    intro t ht
    rw [List.mem_singleton.mp ht]
    exact ⟨by decide, by decide +kernel⟩
  languages_few := by decide
  frameworks := by
    intro t ht
    exact absurd ht List.not_mem_nil
  frameworks_few := by decide

/-- The row of a unit that Python has proposed. -/
def sampleRow : UnitRow := ⟨utf8 pyProposal.id, pyProposal.modelDumpJson⟩

def sampleDb : LocalDb :=
  ⟨.single sampleRow, .single (utf8 pyProposal.id, utf8 "api"), []⟩

theorem sampleRow_go : Go.KnowledgeUnit.unmarshal sampleRow.data = some (pyProposal.toGo 1 1) := by
  show Go.KnowledgeUnit.unmarshal pyProposal.modelDumpJson = _
  rw [pyProposal.modelDumpJson_eq, Go.KnowledgeUnit.unmarshal_json, Go.read_py]
  rfl

theorem sampleRow_readable : sampleQuery.Readable Decimal sampleTime sampleRow := by
  refine ⟨pyProposal.document, pyProposal.modelDumpJson_eq, rfl, ⟨pyProposal.toGo 1 1, ?_⟩, ?_, ?_⟩
  · rw [← pyProposal.modelDumpJson_eq]
    exact sampleRow_go
  · rw [Py.KnowledgeUnit.modelValidateJson_json]
    exact Option.isSome_iff_exists.mp (by decide +kernel)
  · exact iff_of_false (fun h => h.1 rfl) (fun h => h.1 rfl)

theorem sampleDb_rows {r : UnitRow} (h : r ∈ sampleQuery.rows sampleDb []) : r = sampleRow := by
  rcases List.mem_append.mp h with h | h
  · exact List.mem_singleton.mp (List.mem_of_mem_filter h)
  · exact absurd h List.not_mem_nil

theorem sampleDb_goReturns : Go.MayReturn sampleDb sampleQuery.toGo []
    (some [(pyProposal.toGo 1 1 : Go.KnowledgeUnit Decimal)]) := by
  have hnew : Go.newQueryOptions sampleQuery.toGo =
      some ⟨[utf8 "api"], [utf8 "python"], [], [], 5⟩ := rfl
  have hrows : domainRows sampleDb [utf8 "api"] = [sampleRow] := rfl
  have hfound : Go.candidates sampleDb [utf8 "api"] [] =
      some [(pyProposal.toGo 1 1 : Go.KnowledgeUnit Decimal)] := by
    unfold Go.candidates
    rw [hrows, List.mapM_cons, sampleRow_go]
    rfl
  unfold Go.MayReturn
  rw [hnew]
  show ite _ _ _
  rw [if_neg (List.cons_ne_nil _ _)]
  simp only [hfound]
  exact ⟨_, rfl, [pyProposal.toGo 1 1], .refl _, List.pairwise_singleton _ _, rfl⟩

theorem queries_agree_sample : ∃ (opts : Go.QueryOptions) (kus : List (Go.KnowledgeUnit Decimal))
    (units : List (Py.KnowledgeUnit Decimal)),
    Go.newQueryOptions sampleQuery.toGo = some opts ∧
    some [(pyProposal.toGo 1 1 : Go.KnowledgeUnit Decimal)] = some kus ∧
    sampleQuery.run sampleTime sampleDb [] = some units ∧
    kus.map opts.score = units.map sampleQuery.score ∧
    (∀ ku ∈ kus, ku.id ∉ units.map (fun unit => utf8 unit.id) →
      ∀ unit ∈ units, opts.score ku ≤ sampleQuery.score unit) ∧
    ∀ unit ∈ units, utf8 unit.id ∉ kus.map Go.KnowledgeUnit.id →
      ∀ ku ∈ kus, sampleQuery.score unit ≤ opts.score ku :=
  queries_agree sampleQuery_comparable (fun _ hr => absurd hr List.not_mem_nil) (fun _ => Iff.rfl)
    (fun _ hr => sampleDb_rows hr ▸ sampleRow_readable) sampleDb_goReturns

end Sample

end EighthLayer.Sdk
