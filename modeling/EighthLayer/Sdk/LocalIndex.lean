import EighthLayer.Knowledge.Index
import EighthLayer.Sdk.LocalStore

/-!
# EighthLayer.Sdk.LocalIndex

The domain rows and the full-text index of the local store are those of the stored units
(`Indexed`), after every run of operations of the two SDKs, faults included.

What a row is compared with is the stored JSON. Go puts the summary, the detail and the action
into the index as they are and into the JSON as UTF-8, so a unit with other bytes there is not
indexed under what it says.
-/

namespace EighthLayer.Sdk

open Lib
open Knowledge (Casing)

/-! ## What the stored JSON says -/

/-- The domains of a stored unit. -/
def jsonDomains : Json → Option (List String) :=
  Json.object fun ms => Json.required (Json.array Json.text) ms "domains"

/-- A text of the insight of a stored unit. -/
def jsonInsight (key : String) : Json → Option String :=
  Json.object fun ms =>
    Json.required (Json.object fun ms => Json.required Json.text ms key) ms "insight"

theorem jsonDomains_json (d : Document) : jsonDomains d.json = d.domains := by
  obtain ⟨-, -, hdomains, -⟩ := d.lookup_members
  show Json.required (Json.array Json.text) d.members "domains" = _
  rw [Json.required_of_lookup hdomains, Py.array_texts]

theorem jsonInsight_json (d : Document) :
    jsonInsight "summary" d.json = some d.insight.summary ∧
      jsonInsight "detail" d.json = some d.insight.detail ∧
      jsonInsight "action" d.json = some d.insight.action := by
  obtain ⟨-, -, -, hinsight, -⟩ := d.lookup_members
  have hread : ∀ key, jsonInsight key d.json =
      Json.object (fun ms => Json.required Json.text ms key) (Py.dumpInsight d.insight) := by
    intro key
    show Json.required (Json.object fun ms => Json.required Json.text ms key) d.members "insight" =
      _
    rw [Json.required_of_lookup hinsight]
  refine ⟨?_, ?_, ?_⟩
  · rw [hread]
    rfl
  · rw [hread]
    rfl
  · rw [hread]
    rfl

/-! ## The invariant -/

section Index

variable [Go.Strings] [Casing]

/-- Domains as one of the SDKs leaves them when it brings them to normal form: there is one, none
is empty, and none stands there twice. -/
structure NormalForm (ds : List String) : Prop where
  some_left : ds ≠ []
  none_empty : "" ∉ ds
  nodup : ds.Nodup
  normal : (∃ given, ds.map utf8 = Go.normalizeDomains given) ∨
    ∃ given, ds = Knowledge.normalizeDomains given

/-- **A stored unit is indexed**: its domain rows are the domains of its JSON, and it has one
full-text row, with the texts of its JSON. -/
structure RowIndexed (db : LocalDb) (r : UnitRow) : Prop where
  domains : ∃ ds, jsonDomains r.data = some ds ∧ NormalForm ds ∧
    ∀ b, (r.id, b) ∈ db.domains ↔ b ∈ ds.map utf8
  fts : ∃ summary detail action, jsonInsight "summary" r.data = some summary ∧
    jsonInsight "detail" r.data = some detail ∧ jsonInsight "action" r.data = some action ∧
    (db.fts.filter fun f => f.id = r.id) = [⟨r.id, utf8 summary, utf8 detail, utf8 action⟩]

/-- Every stored unit is indexed, and nothing else. -/
structure Indexed (db : LocalDb) : Prop where
  rows : ∀ r ∈ db.units, RowIndexed db r
  domains_owned : ∀ p ∈ db.domains, ∃ r ∈ db.units, r.id = p.1
  fts_owned : ∀ f ∈ db.fts, ∃ r ∈ db.units, r.id = f.id

theorem indexed_empty : Indexed .empty where
  rows := fun r hr => absurd hr (Table.not_mem_empty r)
  domains_owned := fun p hp => absurd hp (Table.not_mem_empty p)
  fts_owned := fun _ hf => (nomatch hf)

/-- What is written of a unit is indexed by what is written with it. -/
structure Entry.Consistent (e : Entry) : Prop where
  domains : ∃ ds, jsonDomains e.row.data = some ds ∧ NormalForm ds ∧ e.domains = ds.map utf8
  fts : ∃ summary detail action, jsonInsight "summary" e.row.data = some summary ∧
    jsonInsight "detail" e.row.data = some detail ∧
    jsonInsight "action" e.row.data = some action ∧
    e.fts = ⟨e.row.id, utf8 summary, utf8 detail, utf8 action⟩

/-! ## The statements -/

omit [Go.Strings] [Casing] in
/-- The loop over the domains of a unit adds their rows and nothing else. -/
theorem executes_insertDomains {id : Bytes} {ds : List Bytes} {db db' : LocalDb}
    (h : Executes (ds.map (LocalDb.insertDomain id)) db db') :
    db'.units = db.units ∧ db'.fts = db.fts ∧
      ∀ p, p ∈ db'.domains ↔ p ∈ db.domains ∨ (p.1 = id ∧ p.2 ∈ ds) := by
  induction ds generalizing db with
  | nil =>
      cases executes_nil_iff.mp h
      exact ⟨rfl, rfl, fun p => by simp⟩
  | cons d ds ih =>
      obtain ⟨db₁, hinsert, hrest⟩ := executes_cons_iff.mp h
      unfold LocalDb.insertDomain at hinsert
      split at hinsert
      · cases hinsert
      · split at hinsert
        · cases hinsert
        · rename_i domains hdomains
          cases hinsert
          obtain ⟨hunits, hfts, hmem⟩ := ih hrest
          refine ⟨hunits, hfts, ?_⟩
          rintro ⟨a, b⟩
          rw [hmem, Table.mem_insert hdomains]
          simp only [Prod.mk.injEq, List.mem_cons]
          tauto

/-- A unit is indexed by rows that say what was written of it. -/
theorem Entry.Consistent.rowIndexed {e : Entry} (he : e.Consistent) {db : LocalDb} {r : UnitRow}
    (hr : r = e.row) (hdomains : ∀ b, (r.id, b) ∈ db.domains ↔ b ∈ e.domains)
    (hfts : (db.fts.filter fun f => f.id = r.id) = [e.fts]) : RowIndexed db r := by
  subst hr
  obtain ⟨ds, hjson, hnormal, heq⟩ := he.domains
  obtain ⟨summary, detail, action, hsummary, hdetail, haction, hrow⟩ := he.fts
  exact ⟨⟨ds, hjson, hnormal, fun b => by rw [hdomains, heq]⟩,
    ⟨summary, detail, action, hsummary, hdetail, haction, by rw [hfts, hrow]⟩⟩

/-- A unit stays indexed when the rows under its id stay. -/
theorem RowIndexed.of_same {db db' : LocalDb} {r : UnitRow} (h : RowIndexed db r)
    (hdomains : ∀ b, (r.id, b) ∈ db'.domains ↔ (r.id, b) ∈ db.domains)
    (hfts : (db'.fts.filter fun f => f.id = r.id) = db.fts.filter fun f => f.id = r.id) :
    RowIndexed db' r := by
  obtain ⟨ds, hjson, hnormal, hrows⟩ := h.domains
  obtain ⟨summary, detail, action, hsummary, hdetail, haction, hrow⟩ := h.fts
  exact ⟨⟨ds, hjson, hnormal, fun b => by rw [hdomains, hrows]⟩,
    ⟨summary, detail, action, hsummary, hdetail, haction, by rw [hfts, hrow]⟩⟩

omit [Go.Strings] [Casing] in
theorem filter_append_of_ne {fts : List FtsRow} {f : FtsRow} {id : Bytes} (h : f.id ≠ id) :
    ((fts ++ [f]).filter fun f => f.id = id) = fts.filter fun f => f.id = id := by
  rw [List.filter_append, List.filter_cons_of_neg (by simpa using h), List.filter_nil,
    List.append_nil]

omit [Go.Strings] [Casing] in
theorem filter_append_self {fts : List FtsRow} {f : FtsRow} {id : Bytes} (h : f.id = id)
    (hnone : ∀ g ∈ fts, g.id ≠ id) : ((fts ++ [f]).filter fun f => f.id = id) = [f] := by
  rw [List.filter_append, List.filter_cons_of_pos (by simpa using h), List.filter_nil,
    List.filter_eq_nil_iff.mpr fun g hg => by simpa using hnone g hg, List.nil_append]

omit [Go.Strings] [Casing] in
theorem filter_filter_ne {fts : List FtsRow} {id id' : Bytes} (h : id' ≠ id) :
    ((fts.filter fun f => f.id ≠ id').filter fun f => f.id = id) = fts.filter fun f => f.id = id := by
  rw [List.filter_filter]
  refine List.filter_congr fun f _ => ?_
  by_cases hid : f.id = id
  · simp [hid, Ne.symm h]
  · simp [hid]

/-! ## The operations -/

/-- The full-text row stands under the id of the unit. -/
theorem Entry.Consistent.fts_id {e : Entry} (he : e.Consistent) : e.fts.id = e.row.id := by
  obtain ⟨summary, detail, action, -, -, -, hrow⟩ := he.fts
  rw [hrow]

theorem Indexed.insert {db db' : LocalDb} (h : Indexed db) {e : Entry} (he : e.Consistent)
    (hexec : Executes (insertStatements e) db db') : Indexed db' := by
  obtain ⟨_, ⟨rfl⟩, hexec⟩ := executes_cons_iff.mp hexec
  obtain ⟨db₁, hunit, hexec⟩ := executes_cons_iff.mp hexec
  obtain ⟨db₂, hloop, hexec⟩ := executes_append_iff.mp hexec
  obtain ⟨_, ⟨rfl⟩, hexec⟩ := executes_cons_iff.mp hexec
  cases executes_nil_iff.mp hexec
  unfold LocalDb.insertUnit at hunit
  split at hunit
  · cases hunit
  rename_i units hunits
  cases hunit
  obtain ⟨hsame, hfts, hmem⟩ := executes_insertDomains hloop
  -- the id was free
  have hfree : ∀ r ∈ db.units, r.id ≠ e.row.id :=
    Table.find_eq_none_iff.mp (Table.find_none_of_insert hunits)
  refine ⟨?_, ?_, ?_⟩
  · intro r hr
    rw [hsame, Table.mem_insert hunits] at hr
    rcases hr with hold | hnew
    · refine (h.rows r hold).of_same ?_ ?_
      · intro b
        rw [hmem]
        simp [hfree r hold]
      · rw [hfts]
        exact filter_append_of_ne (by rw [he.fts_id]; exact (hfree r hold).symm)
    · refine he.rowIndexed hnew ?_ ?_
      · intro b
        rw [hmem, hnew]
        constructor
        · rintro (hold | ⟨-, hb⟩)
          · obtain ⟨r', hr', hid⟩ := h.domains_owned _ hold
            exact absurd hid (hfree r' hr')
          · exact hb
        · intro hb
          exact .inr ⟨rfl, hb⟩
      · rw [hfts]
        refine filter_append_self (by rw [he.fts_id, hnew]) fun g hg hid => ?_
        obtain ⟨r', hr', hid'⟩ := h.fts_owned g hg
        exact hfree r' hr' (hid'.trans (hid.trans (congrArg UnitRow.id hnew)))
  · intro p hp
    rw [hmem] at hp
    simp only [hsame, Table.mem_insert hunits]
    rcases hp with hold | ⟨hid, -⟩
    · obtain ⟨r, hr, hid⟩ := h.domains_owned p hold
      exact ⟨r, .inl hr, hid⟩
    · exact ⟨e.row, .inr rfl, hid.symm⟩
  · intro f hf
    simp only [hsame, Table.mem_insert hunits]
    rw [hfts] at hf
    rcases List.mem_append.mp hf with hold | hnew
    · obtain ⟨r, hr, hid⟩ := h.fts_owned f hold
      exact ⟨r, .inl hr, hid⟩
    · rw [List.mem_singleton.mp hnew]
      exact ⟨e.row, .inr rfl, he.fts_id.symm⟩

theorem Indexed.update {db db' : LocalDb} (h : Indexed db) {e : Entry} (he : e.Consistent)
    (hexec : Executes (updateStatements e) db db') : Indexed db' := by
  obtain ⟨_, ⟨rfl⟩, hexec⟩ := executes_cons_iff.mp hexec
  obtain ⟨db₁, hunit, hexec⟩ := executes_cons_iff.mp hexec
  obtain ⟨_, ⟨rfl⟩, hexec⟩ := executes_cons_iff.mp hexec
  obtain ⟨db₂, hloop, hexec⟩ := executes_append_iff.mp hexec
  obtain ⟨_, ⟨rfl⟩, hexec⟩ := executes_cons_iff.mp hexec
  obtain ⟨_, ⟨rfl⟩, hexec⟩ := executes_cons_iff.mp hexec
  cases executes_nil_iff.mp hexec
  unfold LocalDb.updateUnit at hunit
  split at hunit
  · cases hunit
  rename_i old hold
  cases hunit
  obtain ⟨hsame, hfts, hmem⟩ := executes_insertDomains hloop
  obtain ⟨holdmem, holdid⟩ := Table.find_eq_some_iff.mp hold
  have hmem' : ∀ p, p ∈ db₂.domains ↔
      (p ∈ db.domains ∧ p.1 ≠ e.row.id) ∨ (p.1 = e.row.id ∧ p.2 ∈ e.domains) := by
    intro p
    rw [hmem]
    simp only [Table.mem_delete, decide_eq_false_iff_not, ne_eq]
  have hrow : ∀ r, r ∈ db₂.units ↔ (r ∈ db.units ∧ r.id ≠ e.row.id) ∨ r = e.row := by
    intro r
    rw [hsame, Table.mem_update]
    constructor
    · rintro ⟨r', hr', rfl⟩
      by_cases hid : r'.id = e.row.id
      · rw [if_pos (by simpa using hid)]
        exact .inr (by rw [hid])
      · rw [if_neg (by simpa using hid)]
        exact .inl ⟨hr', hid⟩
    · rintro (⟨hr, hid⟩ | rfl)
      · exact ⟨r, hr, if_neg (by simpa using hid)⟩
      · refine ⟨old, holdmem, ?_⟩
        rw [if_pos (by simpa using holdid), holdid]
  refine ⟨?_, ?_, ?_⟩
  · intro r hr
    rcases (hrow r).mp hr with ⟨hr, hne⟩ | hnew
    · refine (h.rows r hr).of_same ?_ ?_
      · intro b
        rw [hmem']
        simp [hne]
      · rw [hfts]
        exact (filter_append_of_ne (by rw [he.fts_id]; exact Ne.symm hne)).trans
          (filter_filter_ne (Ne.symm hne))
    · refine he.rowIndexed hnew ?_ ?_
      · intro b
        rw [hmem', hnew]
        simp
      · rw [hfts]
        refine filter_append_self (by rw [he.fts_id, hnew]) fun g hg => ?_
        rw [hnew]
        simpa using (List.mem_filter.mp hg).2
  · intro p hp
    rcases (hmem' p).mp hp with ⟨hp, hne⟩ | ⟨hid, -⟩
    · obtain ⟨r, hr, hid⟩ := h.domains_owned p hp
      exact ⟨r, (hrow r).mpr (.inl ⟨hr, fun heq => hne (hid.symm.trans heq)⟩), hid⟩
    · exact ⟨e.row, (hrow e.row).mpr (.inr rfl), hid.symm⟩
  · intro f hf
    rw [hfts] at hf
    rcases List.mem_append.mp hf with hf | hnew
    · obtain ⟨hf, hne⟩ := List.mem_filter.mp hf
      obtain ⟨r, hr, hid⟩ := h.fts_owned f hf
      have hne' : f.id ≠ e.row.id := by simpa using hne
      exact ⟨r, (hrow r).mpr (.inl ⟨hr, fun heq => hne' (hid.symm.trans heq)⟩), hid⟩
    · rw [List.mem_singleton.mp hnew]
      exact ⟨e.row, (hrow e.row).mpr (.inr rfl), he.fts_id.symm⟩

theorem Indexed.delete {db db' : LocalDb} (h : Indexed db) {id : Bytes}
    (hexec : Executes (deleteStatements id) db db') : Indexed db' := by
  obtain ⟨_, ⟨rfl⟩, hexec⟩ := executes_cons_iff.mp hexec
  obtain ⟨_, ⟨rfl⟩, hexec⟩ := executes_cons_iff.mp hexec
  obtain ⟨db₁, hunit, hexec⟩ := executes_cons_iff.mp hexec
  cases executes_nil_iff.mp hexec
  unfold LocalDb.deleteUnit at hunit
  split at hunit
  · cases hunit
  cases hunit
  have hrow : ∀ r, r ∈ db.units.delete (fun r => r.id = id) ↔ r ∈ db.units ∧ r.id ≠ id := by
    intro r
    rw [Table.mem_delete]
    simp
  have hdomain : ∀ p, p ∈ db.domains.delete (fun p => p.1 = id) ↔ p ∈ db.domains ∧ p.1 ≠ id := by
    intro p
    rw [Table.mem_delete]
    simp
  refine ⟨?_, ?_, ?_⟩
  · intro r hr
    obtain ⟨hr, hne⟩ := (hrow r).mp hr
    refine (h.rows r hr).of_same ?_ (filter_filter_ne (Ne.symm hne))
    intro b
    rw [hdomain]
    exact and_iff_left hne
  · intro p hp
    obtain ⟨hp, hne⟩ := (hdomain p).mp hp
    obtain ⟨r, hr, hid⟩ := h.domains_owned p hp
    exact ⟨r, (hrow r).mpr ⟨hr, fun heq => hne (hid.symm.trans heq)⟩, hid⟩
  · intro f hf
    obtain ⟨hf, hne⟩ := List.mem_filter.mp hf
    obtain ⟨r, hr, hid⟩ := h.fts_owned f hf
    have hne' : f.id ≠ id := by simpa using hne
    exact ⟨r, (hrow r).mpr ⟨hr, fun heq => hne' (hid.symm.trans heq)⟩, hid⟩

/-! ## What each SDK writes -/

section Entries

variable {F : Type} [JsonFloats F]

/-- The bytes of the insight are UTF-8. -/
def Go.Insight.Plain (i : Go.Insight) : Prop :=
  IsUtf8 i.summary ∧ IsUtf8 i.detail ∧ IsUtf8 i.action

omit [Casing] [JsonFloats F] in
theorem Go.stored_eq_some {ku stored : Go.KnowledgeUnit F} (h : Go.stored ku = some stored) :
    Go.normalizeDomains (ku.domains.getD []) ≠ [] ∧
      stored = { ku with domains := some (Go.normalizeDomains (ku.domains.getD [])) } := by
  unfold Go.stored at h
  obtain ⟨hne, heq⟩ := Option.ite_none_left_eq_some.mp h
  exact ⟨hne, (Option.some.inj heq).symm⟩

omit [Casing] in
theorem Go.normalizeDomains_spec (given : List Go.Text) :
    (Go.normalizeDomains given).Nodup ∧ ∀ d ∈ Go.normalizeDomains given,
      d ≠ [] ∧ ∃ t, d = Go.Strings.toLower t := by
  refine ⟨List.nodup_reverse.mpr (List.nodup_dedup _), fun d hd => ?_⟩
  simp only [Go.normalizeDomains, List.mem_reverse, List.mem_dedup, List.mem_filter, List.mem_map,
    decide_eq_true_eq] at hd
  obtain ⟨⟨t, -, rfl⟩, hne⟩ := hd
  exact ⟨hne, _, rfl⟩

/-- Go indexes a unit under what its JSON says if its insight is UTF-8; its domains are, since
`ToLower` writes U+FFFD for what is no UTF-8. -/
theorem Go.entry_consistent (hlower : ∀ t, IsUtf8 (Go.Strings.toLower t))
    {ku stored : Go.KnowledgeUnit F} (hstored : Go.stored ku = some stored)
    (hplain : ku.insight.Plain) : (Go.entry stored).Consistent := by
  obtain ⟨hne, rfl⟩ := Go.stored_eq_some hstored
  obtain ⟨hnodup, hmem⟩ := Go.normalizeDomains_spec (ku.domains.getD [])
  have hutf8 : ((Go.normalizeDomains (ku.domains.getD [])).map lossyText).map utf8 =
      Go.normalizeDomains (ku.domains.getD []) := by
    rw [map_utf8_iff]
    intro d hd
    obtain ⟨-, t, rfl⟩ := hmem d hd
    exact hlower t
  obtain ⟨hsummary, hdetail, haction⟩ := jsonInsight_json
    { ku with domains := some (Go.normalizeDomains (ku.domains.getD [])) }.document
  refine ⟨⟨(Go.normalizeDomains (ku.domains.getD [])).map lossyText, ?_, ⟨?_, ?_, ?_, ?_⟩,
    hutf8.symm⟩, ⟨lossyText ku.insight.summary, lossyText ku.insight.detail,
    lossyText ku.insight.action, ?_, ?_, ?_, ?_⟩⟩
  · show jsonDomains (Go.KnowledgeUnit.marshal _) = _
    rw [Go.KnowledgeUnit.marshal_eq, jsonDomains_json]
    rfl
  · simpa using hne
  · intro hempty
    obtain ⟨d, hd, hread⟩ := List.mem_map.mp hempty
    exact (hmem d hd).1 (eq_utf8_of_lossyText hread (by decide))
  · exact List.Nodup.of_map utf8 (by rw [hutf8]; exact hnodup)
  · exact .inl ⟨_, hutf8⟩
  · show jsonInsight "summary" (Go.KnowledgeUnit.marshal _) = _
    rw [Go.KnowledgeUnit.marshal_eq, hsummary]
    rfl
  · show jsonInsight "detail" (Go.KnowledgeUnit.marshal _) = _
    rw [Go.KnowledgeUnit.marshal_eq, hdetail]
    rfl
  · show jsonInsight "action" (Go.KnowledgeUnit.marshal _) = _
    rw [Go.KnowledgeUnit.marshal_eq, haction]
    rfl
  · have hsummary' : utf8 (lossyText ku.insight.summary) = ku.insight.summary := hplain.1
    have hdetail' : utf8 (lossyText ku.insight.detail) = ku.insight.detail := hplain.2.1
    have haction' : utf8 (lossyText ku.insight.action) = ku.insight.action := hplain.2.2
    rw [hsummary', hdetail', haction']
    rfl

/-- Python indexes every unit under what its JSON says. -/
theorem Py.entry_consistent (hlower : ∀ s, Casing.lower s = "" → s = "")
    {unit stored : Py.KnowledgeUnit F} (hstored : Py.stored unit = some stored) :
    (Py.entry stored).Consistent := by
  unfold Py.stored at hstored
  obtain ⟨hne, heq⟩ := Option.ite_none_left_eq_some.mp hstored
  cases heq
  have hnormal : Knowledge.NormalDomains (Knowledge.normalizeDomains unit.domains) :=
    ⟨hne, _, rfl⟩
  obtain ⟨hsummary, hdetail, haction⟩ := jsonInsight_json
    { unit with domains := Knowledge.normalizeDomains unit.domains }.document
  refine ⟨⟨Knowledge.normalizeDomains unit.domains, ?_, ⟨hne, ?_, hnormal.nodup, .inr ⟨_, rfl⟩⟩,
    rfl⟩, ⟨unit.insight.summary, unit.insight.detail, unit.insight.action, ?_, ?_, ?_, rfl⟩⟩
  · show jsonDomains (Py.KnowledgeUnit.modelDumpJson _) = _
    rw [Py.KnowledgeUnit.modelDumpJson_eq, jsonDomains_json]
    rfl
  · exact fun hempty => hnormal.ne_empty hlower _ hempty rfl
  · show jsonInsight "summary" (Py.KnowledgeUnit.modelDumpJson _) = _
    rw [Py.KnowledgeUnit.modelDumpJson_eq, hsummary]
    rfl
  · show jsonInsight "detail" (Py.KnowledgeUnit.modelDumpJson _) = _
    rw [Py.KnowledgeUnit.modelDumpJson_eq, hdetail]
    rfl
  · show jsonInsight "action" (Py.KnowledgeUnit.modelDumpJson _) = _
    rw [Py.KnowledgeUnit.modelDumpJson_eq, haction]
    rfl

/-! ## Runs -/

/-- The operation writes no insight that is no UTF-8. -/
def LocalOp.Plain : LocalOp F → Prop
  | goInsert ku | goUpdate ku => ku.insight.Plain
  | _ => True

/-- **An operation that raises** leaves the three tables as they were, wherever it was struck. -/
theorem LocalStep.exec_raised {st : LocalStep F}
    {db : LocalDb} {e : LocalError} (h : (st.exec db).1 = some e) : (st.exec db).2 = db := by
  unfold LocalStep.exec at h ⊢
  split at h
  · rfl
  · exact transact_raised h

theorem Indexed.exec (hgo : ∀ t, IsUtf8 (Go.Strings.toLower t))
    (hpy : ∀ s, Casing.lower s = "" → s = "") {db : LocalDb} (h : Indexed db) {st : LocalStep F}
    (hplain : st.op.Plain) : Indexed (st.exec db).2 := by
  obtain ⟨op, faults⟩ := st
  unfold LocalStep.exec
  split
  · exact h
  · rename_i ss hss
    refine transact_invariant h fun db' hexec => ?_
    cases op with
    | goInsert ku =>
        obtain ⟨stored, hstored, rfl⟩ := Option.map_eq_some_iff.mp hss
        exact h.insert (Go.entry_consistent hgo hstored hplain) hexec
    | goUpdate ku =>
        obtain ⟨stored, hstored, rfl⟩ := Option.map_eq_some_iff.mp hss
        exact h.update (Go.entry_consistent hgo hstored hplain) hexec
    | goDelete unitId =>
        cases hss
        exact h.delete hexec
    | pyInsert unit =>
        obtain ⟨stored, hstored, rfl⟩ := Option.map_eq_some_iff.mp hss
        exact h.insert (Py.entry_consistent hpy hstored) hexec
    | pyUpdate unit =>
        obtain ⟨stored, hstored, rfl⟩ := Option.map_eq_some_iff.mp hss
        exact h.update (Py.entry_consistent hpy hstored) hexec
    | pyDelete unitId =>
        cases hss
        exact h.delete hexec

/-- **The local store is indexed** after every run of plain operations of the two SDKs, and an
operation that raises then leaves all three tables as they are. -/
theorem local_store_run (hgo : ∀ t, IsUtf8 (Go.Strings.toLower t))
    (hpy : ∀ s, Casing.lower s = "" → s = "") (steps : List (LocalStep F))
    (hplain : ∀ st ∈ steps, st.op.Plain) :
    Indexed (runLocal .empty steps) ∧
      ∀ (st : LocalStep F) e, (st.exec (runLocal .empty steps)).1 = some e →
        (st.exec (runLocal .empty steps)).2 = runLocal .empty steps := by
  refine ⟨?_, fun st e h => LocalStep.exec_raised h⟩
  have hrun : (∀ st ∈ steps, st.op.Plain) → Indexed (runLocal .empty steps) := by
    refine run_invariant (P := fun done db => (∀ st ∈ done, st.op.Plain) → Indexed db)
      (fun _ => indexed_empty) (fun done db st h hdone => ?_) steps
    have hbefore : Indexed db := h fun st' hst' => hdone st' (List.mem_append_left _ hst')
    exact hbefore.exec hgo hpy (hdone st (List.mem_append_right _ (List.mem_singleton_self st)))
  exact hrun hplain

end Entries

end Index

/-! ## Two stores -/

section Sample

local instance indexStrings : Go.Strings := Go.asciiStrings

local instance indexCasing : Casing := Knowledge.asciiCasing

/-- A unit of Go with this summary. -/
def goUnit (summary : Go.Text) : Go.KnowledgeUnit Decimal where
  id := utf8 "ku_0123456789abcdef0123456789abcdef"
  version := 1
  domains := some [utf8 " API ", utf8 "api", utf8 "Ops"]
  insight := ⟨summary, utf8 "The API throttles", utf8 "Back off"⟩
  context := ⟨none, none, []⟩
  evidence := ⟨0.5, 1, none, none⟩
  tier := utf8 "local"
  createdBy := []
  supersededBy := []
  flags := none

/-- A unit is inserted, a second insertion is refused, an update is struck by a fault before its
last statement, and a unit that is not there is deleted. -/
def sampleSteps : List (LocalStep Decimal) :=
  [⟨.goInsert (goUnit (utf8 "Retry on 429")), fun _ => false⟩,
    ⟨.goInsert (goUnit (utf8 "Retry")), fun _ => false⟩,
    ⟨.goUpdate { goUnit (utf8 "Retry") with domains := some [utf8 "web"] }, fun n => n = 5⟩,
    ⟨.pyDelete "ku_fedcba9876543210fedcba9876543210", fun _ => false⟩]

theorem local_store_run_sample :
    (runLocal .empty sampleSteps).domains.rows =
        [(utf8 "ku_0123456789abcdef0123456789abcdef", utf8 "api"),
          (utf8 "ku_0123456789abcdef0123456789abcdef", utf8 "ops")] ∧
      Indexed (runLocal .empty sampleSteps) := by
  refine ⟨by decide +kernel, ?_⟩
  exact (local_store_run (fun _ => isUtf8_utf8 _) Knowledge.asciiCasing_lower sampleSteps
    (by
      intro st hst
      simp only [sampleSteps, List.mem_cons, List.not_mem_nil, or_false] at hst
      rcases hst with rfl | rfl | rfl | rfl
      · exact ⟨isUtf8_utf8 _, isUtf8_utf8 _, isUtf8_utf8 _⟩
      · exact ⟨isUtf8_utf8 _, isUtf8_utf8 _, isUtf8_utf8 _⟩
      · exact ⟨isUtf8_utf8 _, isUtf8_utf8 _, isUtf8_utf8 _⟩
      · trivial)).1

/-- A summary that is no UTF-8: the JSON has U+FFFD for its byte, the index the byte itself. -/
def garbledSteps : List (LocalStep Decimal) := [⟨.goInsert (goUnit [0xFF]), fun _ => false⟩]

theorem garbled_not_indexed : ¬ Indexed (runLocal .empty garbledSteps) := by
  intro h
  have hfts : (runLocal .empty garbledSteps).fts =
      [⟨utf8 "ku_0123456789abcdef0123456789abcdef", [0xFF], utf8 "The API throttles",
        utf8 "Back off"⟩] := by decide +kernel
  obtain ⟨r, hr, hid⟩ := h.fts_owned _ (by rw [hfts]; exact List.mem_singleton_self _)
  obtain ⟨summary, detail, action, -, -, -, hrow⟩ := (h.rows r hr).fts
  rw [hfts, List.filter_cons_of_pos (by simpa using hid.symm), List.filter_nil] at hrow
  have hsummary : [0xFF] = utf8 summary := congrArg FtsRow.summary (List.singleton_inj.mp hrow)
  have hutf8 : IsUtf8 [0xFF] := hsummary ▸ isUtf8_utf8 summary
  exact absurd hutf8 (by decide +kernel)

end Sample

end EighthLayer.Sdk
