import EighthLayer.Knowledge.Store

/-!
# EighthLayer.Knowledge.Index

The operations of the store that insert, update and delete units, statement by statement
over the two tables as the schema declares them, and the index of the domains: the rows of
`knowledge_unit_domains` are those of the units' documents after every operation, those that
raise included (`Indexed`).

`Store` carries the index in its type. What `_update_sync` and `_insert_sync` do to the two
tables is what `Store` says they do (`updateSync_store`, `insertSync_store`).
-/

namespace EighthLayer.Knowledge

open Lib

/-! ## The tables and the statements -/

/-- `knowledge_units` and `knowledge_unit_domains`, whose primary key is the whole row. -/
structure Tables (F : Type) where
  units : Table (Row.id (F := F))
  domains : Table fun p : String × String => p

/-- What an operation raises. -/
inductive StoreError where
  | valueError
  | keyError
  | integrityError
deriving DecidableEq

namespace Tables

variable {F : Type}

@[ext] theorem ext {db db' : Tables F} (hunits : db.units = db'.units)
    (hdomains : db.domains = db'.domains) : db = db' := by
  cases db
  cases db'
  cases hunits
  cases hdomains
  rfl

/-- No units. -/
def empty : Tables F := ⟨.empty, .empty⟩

/-- `INSERT_UNIT` and `INSERT_UNIT_WITH_TENANCY`. -/
def insertUnit (db : Tables F) (r : Row F) : Except StoreError (Tables F) :=
  match db.units.insert r with
  | none => .error .integrityError
  | some units => .ok { db with units }

/-- `INSERT_UNIT_DOMAIN`; the unit has to be there (`FOREIGN KEY`). -/
def insertDomain (db : Tables F) (unitId domain : String) : Except StoreError (Tables F) :=
  match db.units.find unitId with
  | none => .error .integrityError
  | some _ =>
    match db.domains.insert (unitId, domain) with
    | none => .error .integrityError
    | some domains => .ok { db with domains }

/-- `UPDATE_UNIT_DATA`, with the number of rows it has reached. -/
def updateData (db : Tables F) (unit : KnowledgeUnit F) : Nat × Tables F :=
  ((db.units.rows.filter fun r => r.id = unit.id).length,
    { db with
      units := db.units.update (fun r => r.id = unit.id) (fun r => r.withUnit unit)
        fun r => r.withUnit_id unit })

/-- `UPDATE knowledge_units SET embedding = …`. -/
def setEmbedding (db : Tables F) (unitId : String) (embedding : Bytes) : Tables F :=
  { db with
    units := db.units.update (fun r => r.id = unitId)
      (fun r => { r with embedding := some embedding }) fun _ => rfl }

/-- `DELETE_UNIT_DOMAINS`; no row is that of `NULL`. -/
def deleteDomains (db : Tables F) (unitId : Option String) : Tables F :=
  { db with domains := db.domains.delete fun p => some p.1 = unitId }

/-- `DELETE FROM knowledge_units`, with the number of rows it has reached; domain rows go with
their unit (`ON DELETE CASCADE`). -/
def deleteUnit (db : Tables F) (unitId : Option String) : Nat × Tables F :=
  ((db.units.rows.filter fun r => some r.id = unitId).length,
    { units := db.units.delete fun r => some r.id = unitId
      domains := db.domains.delete fun p => some p.1 = unitId })

end Tables

/-! ## The operations -/

section Operations

variable {F : Type} [Casing]

/-- `with engine.begin()`: what has been done is undone when the body raises. -/
def begin {α : Type} (db : Tables F) (body : Except StoreError (α × Tables F)) :
    Except StoreError α × Tables F :=
  match body with
  | .ok (a, db') => (.ok a, db')
  | .error e => (.error e, db)

/-- `for d in domains: conn.execute(INSERT_UNIT_DOMAIN, …)`. -/
def insertDomains (unitId : String) : List String → Tables F → Except StoreError (Tables F)
  | [], db => .ok db
  | d :: domains, db => do insertDomains unitId domains (← db.insertDomain unitId d)

/-- The tenancy of a new unit: both values, or the defaults of the columns. -/
def newTenancy (enterpriseId groupId : Option String) : String × String :=
  match enterpriseId, groupId with
  | some ent, some grp => (ent, grp)
  | _, _ => ("default-enterprise", "default-group")

/-- The embedding of a new unit, when it and its model are given. -/
def persistEmbedding (unitId : String) (embedding : Option Bytes) (embeddingModel : Option String)
    (db : Tables F) : Tables F :=
  match embedding, embeddingModel with
  | some embedding, some _ => db.setEmbedding unitId embedding
  | _, _ => db

/-- `_insert_sync`. -/
def insertSync (db : Tables F) (unit : KnowledgeUnit F) (embedding : Option Bytes)
    (embeddingModel enterpriseId groupId : Option String) (now : String) :
    Except StoreError Unit × Tables F :=
  let domains := normalizeDomains unit.domains
  if domains = [] then (.error .valueError, db)
  else
    let unit := { unit with domains }
    let (ent, grp) := newTenancy enterpriseId groupId
    begin db do
      let db ← db.insertUnit (Store.newRow unit (unit.evidence.firstObserved.getD now) ent grp)
      let db ← insertDomains unit.id domains db
      .ok ((), persistEmbedding unit.id embedding embeddingModel db)

/-- `_update_sync`. -/
def updateSync (db : Tables F) (unit : KnowledgeUnit F) : Except StoreError Unit × Tables F :=
  let domains := normalizeDomains unit.domains
  if domains = [] then (.error .valueError, db)
  else
    let unit := { unit with domains }
    begin db do
      let (rowcount, db) := db.updateData unit
      if rowcount = 0 then .error .keyError
      else
        let db ← insertDomains unit.id domains (db.deleteDomains (some unit.id))
        .ok ((), db)

/-- Whether a deletion is asked for within a tenancy that the unit is not in. -/
def outOfScope (db : Tables F) (unitId enterpriseId groupId : Option String) : Bool :=
  match enterpriseId, groupId with
  | some ent, some grp =>
      !db.units.rows.any fun r => some r.id = unitId && r.enterpriseId = ent && r.groupId = grp
  | some ent, none => !db.units.rows.any fun r => some r.id = unitId && r.enterpriseId = ent
  | none, _ => false

/-- `_delete_sync`. -/
def deleteSync (db : Tables F) (unitId enterpriseId groupId : Option String) :
    Except StoreError Bool × Tables F :=
  begin db <|
    if outOfScope db unitId enterpriseId groupId then .ok (false, db)
    else
      let (rowcount, db) := (db.deleteDomains unitId).deleteUnit unitId
      .ok (0 < rowcount, db)

/-- An operation on units. -/
inductive UnitOp (F : Type) where
  | insert (unit : KnowledgeUnit F) (embedding : Option Bytes)
      (embeddingModel enterpriseId groupId : Option String) (now : String)
  | update (unit : KnowledgeUnit F)
  | delete (unitId enterpriseId groupId : Option String)

/-- What an operation raises, if it does, and the tables after it. -/
def UnitOp.exec (db : Tables F) : UnitOp F → Option StoreError × Tables F
  | insert unit embedding embeddingModel enterpriseId groupId now =>
      raised (insertSync db unit embedding embeddingModel enterpriseId groupId now)
  | update unit => raised (updateSync db unit)
  | delete unitId enterpriseId groupId => raised (deleteSync db unitId enterpriseId groupId)
where
  raised {α : Type} (r : Except StoreError α × Tables F) : Option StoreError × Tables F :=
    match r with
    | (.ok _, db) => (none, db)
    | (.error e, db) => (some e, db)

/-- Operations one after the other. -/
def runOps (db : Tables F) : List (UnitOp F) → Tables F
  | [] => db
  | op :: ops => runOps (op.exec db).2 ops

end Operations

/-! ## The invariant -/

section Index

variable {F : Type} [Casing]

/-- Domains as `normalize_domains` leaves them, with something left. -/
def NormalDomains (domains : List String) : Prop :=
  domains ≠ [] ∧ ∃ given, domains = normalizeDomains given

/-- The domain rows are those of the units' documents, whose domains are in normal form. -/
structure Indexed (db : Tables F) : Prop where
  index : ∀ id d, (id, d) ∈ db.domains ↔ ∃ r ∈ db.units, r.id = id ∧ d ∈ r.unit.domains
  normal : ∀ r ∈ db.units, NormalDomains r.unit.domains

variable {db db' : Tables F}

theorem NormalDomains.nodup {domains : List String} (h : NormalDomains domains) :
    domains.Nodup := by
  obtain ⟨-, given, rfl⟩ := h
  exact normalizeDomains_nodup given

/-- No domain is empty: what is left after stripping is not, nor is it in lower case. -/
theorem NormalDomains.ne_empty (hlower : ∀ s, Casing.lower s = "" → s = "")
    {domains : List String} (h : NormalDomains domains) : ∀ d ∈ domains, d ≠ "" := by
  obtain ⟨-, given, rfl⟩ := h
  intro d hd hempty
  simp only [normalizeDomains, List.mem_reverse, List.mem_dedup, List.mem_map, List.mem_filter,
    decide_eq_true_eq] at hd
  obtain ⟨raw, ⟨-, hne⟩, rfl⟩ := hd
  exact hne (hlower _ hempty)

/-- A unit that is not there has no domain rows. -/
theorem Indexed.not_mem_of_find (h : Indexed db) {id : String} (hnone : db.units.find id = none)
    (d : String) : (id, d) ∉ db.domains := by
  intro hmem
  obtain ⟨r, hr, hid, -⟩ := (h.index id d).mp hmem
  exact Table.find_eq_none_iff.mp hnone r hr hid

omit [Casing] in
/-- The loop: new domain rows of a unit that is there are appended. -/
theorem insertDomains_ok {unitId : String} {domains : List String} (hnodup : domains.Nodup)
    (db : Tables F) (hunit : db.units.find unitId ≠ none)
    (hnew : ∀ d ∈ domains, (unitId, d) ∉ db.domains) :
    ∃ db', insertDomains unitId domains db = .ok db' ∧ db'.units = db.units ∧
      db'.domains.rows = db.domains.rows ++ domains.map fun d => (unitId, d) := by
  induction domains generalizing db with
  | nil => exact ⟨db, rfl, rfl, (List.append_nil _).symm⟩
  | cons d domains ih =>
      obtain ⟨hd, hnodup⟩ := List.nodup_cons.mp hnodup
      obtain ⟨r, hr⟩ := Option.ne_none_iff_exists'.mp hunit
      have hfree : db.domains.find (unitId, d) = none := by
        refine Table.find_eq_none_iff.mpr ?_
        rintro p hp rfl
        exact hnew d List.mem_cons_self hp
      obtain ⟨table, htable⟩ : ∃ table, db.domains.insert (unitId, d) = some table := by
        refine Option.ne_none_iff_exists'.mp fun hnone => ?_
        obtain ⟨p, hp, rfl⟩ := Table.insert_eq_none_iff.mp hnone
        exact hnew d List.mem_cons_self hp
      have hrows := (Table.insert_eq_some_iff.mp htable).2
      have hstep : db.insertDomain unitId d = .ok { db with domains := table } := by
        unfold Tables.insertDomain
        rw [hr]
        dsimp only
        rw [htable]
      obtain ⟨db', hdb', hunits, hdomains⟩ := ih hnodup { db with domains := table } hunit
        (fun d' hd' hmem => by
          rcases (Table.mem_insert htable).mp hmem with hmem | heq
          · exact hnew d' (List.mem_cons_of_mem _ hd') hmem
          · cases heq
            exact hd hd')
      refine ⟨db', ?_, hunits, ?_⟩
      · unfold insertDomains
        rw [hstep]
        exact hdb'
      · rw [hdomains, hrows, List.append_assoc]
        rfl

/-! ## The two tables as a store -/

/-- The two tables are those of a store. -/
structure Represents (db : Tables F) (s : Store F) : Prop where
  units : db.units = s.units
  domains : db.domains.rows = s.domains

omit [Casing] in
theorem Represents.index {s : Store F} (h : Represents db s) (id d : String) :
    (id, d) ∈ db.domains ↔ ∃ r ∈ db.units, r.id = id ∧ d ∈ r.unit.domains := by
  rw [Table.mem_def, h.domains, s.mem_domains, h.units]

/-- Indexed tables are those of a store. -/
theorem Indexed.represents (h : Indexed db) : ∃ s, Represents db s :=
  ⟨{ units := db.units
     domains := db.domains.rows
     domains_nodup := by
      have hnodup := db.domains.nodup
      rwa [List.map_id' db.domains.rows] at hnodup
     mem_domains := h.index }, rfl, rfl⟩

omit [Casing] in
/-- The statements that insert a unit, and `Store.insertRow`. -/
theorem insert_represents {s : Store F} (h : Represents db s) {r : Row F}
    (hd : r.unit.domains.Nodup) :
    (db.insertUnit r >>= insertDomains r.unit.id r.unit.domains) = .error .integrityError ∧
        s.insertRow r hd = none ∨
      ∃ db' s', (db.insertUnit r >>= insertDomains r.unit.id r.unit.domains) = .ok db' ∧
        s.insertRow r hd = some s' ∧ Represents db' s' := by
  cases hins : db.units.insert r with
  | none =>
      refine .inl ⟨?_, Store.insertRow_eq_none_iff.mpr (h.units ▸ hins)⟩
      unfold Tables.insertUnit
      rw [hins]
      rfl
  | some units =>
      obtain ⟨s', hs'⟩ : ∃ s', s.insertRow r hd = some s' := by
        refine Option.ne_none_iff_exists'.mp fun hnone => ?_
        rw [h.units, Store.insertRow_eq_none_iff.mp hnone] at hins
        cases hins
      have hunits : s'.units = units := by
        have hs := Store.insertRow_eq_some hs'
        rw [← h.units, hins] at hs
        exact (Option.some.inj hs).symm
      have hthere : units.find r.unit.id ≠ none := by
        have hself := Table.find_insert_self hins
        change units.find r.unit.id = some r at hself
        simp [hself]
      have hnew : ∀ d ∈ r.unit.domains, (r.unit.id, d) ∉ db.domains := by
        intro d _ hmem
        obtain ⟨r', hr', hid, -⟩ := (h.index _ _).mp hmem
        exact Table.find_eq_none_iff.mp (Table.find_none_of_insert hins) r' hr' hid
      obtain ⟨db', hdb', hsame, hrows⟩ :=
        insertDomains_ok hd { db with units } hthere hnew
      refine .inr ⟨db', s', ?_, hs', hsame.trans hunits.symm, ?_⟩
      · unfold Tables.insertUnit
        rw [hins]
        exact hdb'
      · rw [hrows, Store.insertRow_domains hs', h.domains]
        rfl

omit [Casing] in
/-- The statements that write a unit back, and `Store.replaceUnit`. -/
theorem replace_represents {s : Store F} (h : Represents db s) (unit : KnowledgeUnit F)
    (hd : unit.domains.Nodup) :
    ((db.updateData unit).1 = 0 ∧ s.replaceUnit unit hd = none) ∨
      ∃ db' s', (db.updateData unit).1 ≠ 0 ∧ s.replaceUnit unit hd = some s' ∧
        insertDomains unit.id unit.domains ((db.updateData unit).2.deleteDomains (some unit.id)) =
          .ok db' ∧ Represents db' s' := by
  have hcount : (db.updateData unit).1 = 0 ↔ db.units.find unit.id = none := by
    unfold Tables.updateData
    rw [List.length_eq_zero_iff, List.filter_eq_nil_iff, Table.find_eq_none_iff]
    simp [Table.mem_def]
  cases hfind : s.units.find unit.id with
  | none =>
      refine .inl ⟨hcount.mpr (h.units ▸ hfind), ?_⟩
      exact Store.replaceUnit_eq_none_iff.mpr hfind
  | some old =>
      obtain ⟨s', hs'⟩ : ∃ s', s.replaceUnit unit hd = some s' := by
        refine Option.ne_none_iff_exists'.mp fun hnone => ?_
        rw [Store.replaceUnit_eq_none_iff.mp hnone] at hfind
        cases hfind
      obtain ⟨hunits, hdomains⟩ := Store.replaceUnit_eq_some hs'
      have hnot : (db.updateData unit).1 ≠ 0 := by
        rw [Ne, hcount, h.units, hfind]
        exact Option.some_ne_none _
      have hwritten : (db.updateData unit).2.units = s'.units := by
        rw [hunits, ← h.units]
        rfl
      have hthere : (db.updateData unit).2.units.find unit.id ≠ none := by
        rw [hwritten, Store.replaceUnit_find_self hs' hfind]
        exact Option.some_ne_none _
      have hnew : ∀ d ∈ unit.domains,
          (unit.id, d) ∉ ((db.updateData unit).2.deleteDomains (some unit.id)).domains := by
        intro d _ hmem
        have hkept := (Table.mem_delete.mp hmem).2
        simp at hkept
      obtain ⟨db', hdb', hsame, hrows⟩ := insertDomains_ok hd
        ((db.updateData unit).2.deleteDomains (some unit.id)) hthere hnew
      refine .inr ⟨db', s', hnot, hs', hdb', ?_, ?_⟩
      · exact hsame.trans hwritten
      · rw [hrows, hdomains, ← h.domains]
        congr 1
        refine List.filter_congr fun p _ => ?_
        simp

omit [Casing] in
/-- An embedding is no part of a unit. -/
theorem persistEmbedding_represents {s : Store F} (h : Represents db s) (unitId : String)
    (embedding : Option Bytes) (embeddingModel : Option String) :
    ∃ s', Represents (persistEmbedding unitId embedding embeddingModel db) s' ∧
      ∀ r ∈ s'.units, ∃ r' ∈ s.units, r.unit = r'.unit := by
  unfold persistEmbedding
  split
  · rename_i e _
    refine ⟨s.updateColumns (fun r => r.id = unitId) (fun r => { r with embedding := some e })
      fun _ => rfl, ⟨?_, h.domains⟩, fun r hr => Store.updateColumns_unit hr⟩
    exact congrArg (fun t : Table (Row.id (F := F)) => t.update (fun r => r.id = unitId)
      (fun r => { r with embedding := some e }) fun _ => rfl) h.units
  · exact ⟨s, h, fun r hr => ⟨r, hr, rfl⟩⟩

/-! ## What an operation does -/

omit [Casing] in
/-- An operation that raises has done nothing. -/
theorem begin_raised {α : Type} {body : Except StoreError (α × Tables F)} {e : StoreError}
    (h : (begin db body).1 = .error e) : (begin db body).2 = db := by
  unfold begin at h ⊢
  cases body with
  | ok r => cases h
  | error e => rfl

/-- A unit with its domains in normal form. -/
def normalized (unit : KnowledgeUnit F) : KnowledgeUnit F :=
  { unit with domains := normalizeDomains unit.domains }

/-- The row that `_insert_sync` writes. -/
def insertedRow (unit : KnowledgeUnit F) (enterpriseId groupId : Option String) (now : String) :
    Row F :=
  Store.newRow (normalized unit) (unit.evidence.firstObserved.getD now)
    (newTenancy enterpriseId groupId).1 (newTenancy enterpriseId groupId).2

theorem insertSync_eq (unit : KnowledgeUnit F) (embedding : Option Bytes)
    (embeddingModel enterpriseId groupId : Option String) (now : String)
    (hne : normalizeDomains unit.domains ≠ []) :
    insertSync db unit embedding embeddingModel enterpriseId groupId now =
      begin db ((db.insertUnit (insertedRow unit enterpriseId groupId now) >>=
        insertDomains (insertedRow unit enterpriseId groupId now).unit.id
          (insertedRow unit enterpriseId groupId now).unit.domains) >>= fun db =>
            .ok ((), persistEmbedding unit.id embedding embeddingModel db)) := by
  unfold insertSync
  rw [if_neg hne, bind_assoc]
  rfl

/-- **`_insert_sync`** does to the two tables what `Store.insertRow` does to a store, or
raises. -/
theorem insertSync_store {s : Store F} (h : Represents db s) (unit : KnowledgeUnit F)
    (embedding : Option Bytes) (embeddingModel enterpriseId groupId : Option String)
    (now : String) :
    (∃ e, insertSync db unit embedding embeddingModel enterpriseId groupId now = (.error e, db) ∧
      (normalizeDomains unit.domains = [] ∨
        s.insertRow (insertedRow unit enterpriseId groupId now)
          (normalizeDomains_nodup unit.domains) = none)) ∨
      ∃ db' s' s'', normalizeDomains unit.domains ≠ [] ∧
        insertSync db unit embedding embeddingModel enterpriseId groupId now = (.ok (), db') ∧
          s.insertRow (insertedRow unit enterpriseId groupId now)
            (normalizeDomains_nodup unit.domains) = some s' ∧ Represents db' s'' ∧
              ∀ r ∈ s''.units, ∃ r' ∈ s'.units, r.unit = r'.unit := by
  by_cases hne : normalizeDomains unit.domains = []
  · refine .inl ⟨.valueError, ?_, .inl hne⟩
    unfold insertSync
    exact if_pos hne
  rw [insertSync_eq unit embedding embeddingModel enterpriseId groupId now hne]
  rcases insert_represents h (r := insertedRow unit enterpriseId groupId now)
    (normalizeDomains_nodup unit.domains) with ⟨hbody, hnone⟩ | ⟨db', s', hbody, hsome, hrep⟩
  · refine .inl ⟨.integrityError, ?_, .inr hnone⟩
    rw [hbody]
    rfl
  · obtain ⟨s'', hrep', hunits⟩ :=
      persistEmbedding_represents hrep unit.id embedding embeddingModel
    refine .inr ⟨_, s', s'', hne, ?_, hsome, hrep', hunits⟩
    rw [hbody]
    rfl

theorem updateSync_eq (unit : KnowledgeUnit F) (hne : normalizeDomains unit.domains ≠ []) :
    updateSync db unit =
      begin db (if (db.updateData (normalized unit)).1 = 0 then .error .keyError
        else insertDomains (normalized unit).id (normalized unit).domains
          ((db.updateData (normalized unit)).2.deleteDomains (some (normalized unit).id)) >>=
            fun db => .ok ((), db)) := by
  unfold updateSync
  exact if_neg hne

/-- **`_update_sync`** does to the two tables what `Store.update` does to a store. -/
theorem updateSync_store {s : Store F} (h : Represents db s) (unit : KnowledgeUnit F) :
    (∃ e, updateSync db unit = (.error e, db) ∧ s.update unit = none) ∨
      ∃ db' s', normalizeDomains unit.domains ≠ [] ∧ updateSync db unit = (.ok (), db') ∧
        s.update unit = some s' ∧ Represents db' s' := by
  by_cases hne : normalizeDomains unit.domains = []
  · refine .inl ⟨.valueError, ?_, ?_⟩
    · unfold updateSync
      exact if_pos hne
    · unfold Store.update
      exact if_pos hne
  have hupdate : s.update unit =
      s.replaceUnit (normalized unit) (normalizeDomains_nodup unit.domains) := by
    unfold Store.update
    exact if_neg hne
  rw [hupdate]
  rcases replace_represents h (normalized unit) (normalizeDomains_nodup unit.domains) with
    ⟨hzero, hnone⟩ | ⟨db', s', hsome, hs', hbody, hrep⟩
  · refine .inl ⟨.keyError, ?_, hnone⟩
    rw [updateSync_eq unit hne, if_pos hzero]
    rfl
  · refine .inr ⟨db', s', hne, ?_, hs', hrep⟩
    rw [updateSync_eq unit hne, if_neg hsome, hbody]
    rfl

omit [Casing] in
/-- **`_delete_sync`** takes a unit with its domain rows, or nothing. -/
theorem deleteSync_cases (db : Tables F) (unitId enterpriseId groupId : Option String) :
    deleteSync db unitId enterpriseId groupId = (.ok false, db) ∨
      ∃ deleted, deleteSync db unitId enterpriseId groupId =
        (.ok deleted, ((db.deleteDomains unitId).deleteUnit unitId).2) := by
  unfold deleteSync
  split
  · exact .inl rfl
  · exact .inr ⟨_, rfl⟩

/-! ## The invariant along a run -/

theorem indexed_empty : Indexed (F := F) .empty where
  index id d := by simp [Tables.empty]
  normal r hr := absurd hr (Table.not_mem_empty r)

theorem Represents.indexed {s : Store F} (h : Represents db s)
    (hnormal : ∀ r ∈ s.units, NormalDomains r.unit.domains) : Indexed db :=
  ⟨h.index, h.units ▸ hnormal⟩

theorem Indexed.insert (h : Indexed db) (unit : KnowledgeUnit F) (embedding : Option Bytes)
    (embeddingModel enterpriseId groupId : Option String) (now : String) :
    Indexed (insertSync db unit embedding embeddingModel enterpriseId groupId now).2 := by
  obtain ⟨s, hrep⟩ := h.represents
  rcases insertSync_store hrep unit embedding embeddingModel enterpriseId groupId now with
    ⟨e, heq, -⟩ | ⟨db', s', s'', hne, heq, hs', hrep', hunits⟩
  · rw [heq]
    exact h
  · rw [heq]
    refine hrep'.indexed fun r hr => ?_
    obtain ⟨r', hr', hunit⟩ := hunits r hr
    rw [hunit]
    rcases (Table.mem_insert (Store.insertRow_eq_some hs')).mp hr' with hr' | rfl
    · exact h.normal r' (hrep.units ▸ hr')
    · exact ⟨hne, unit.domains, rfl⟩

theorem Indexed.update (h : Indexed db) (unit : KnowledgeUnit F) :
    Indexed (updateSync db unit).2 := by
  obtain ⟨s, hrep⟩ := h.represents
  rcases updateSync_store hrep unit with ⟨e, heq, -⟩ |
    ⟨db', s', hne, heq, hs', hrep'⟩
  · rw [heq]
    exact h
  · rw [heq]
    have hreplace : s.replaceUnit (normalized unit) (normalizeDomains_nodup unit.domains) =
        some s' := by
      unfold Store.update at hs'
      exact (if_neg hne).symm.trans hs'
    refine hrep'.indexed fun r hr => ?_
    have hfind : s'.units.find r.id = some r := Table.find_key hr
    rw [Store.replaceUnit_find hreplace] at hfind
    obtain ⟨r', hr', rfl⟩ := Option.map_eq_some_iff.mp hfind
    unfold Row.withUnit
    split
    · exact ⟨hne, unit.domains, rfl⟩
    · exact h.normal r' (hrep.units ▸ (Table.find_eq_some_iff.mp hr').1)

theorem Indexed.delete (h : Indexed db) (unitId enterpriseId groupId : Option String) :
    Indexed (deleteSync db unitId enterpriseId groupId).2 := by
  rcases deleteSync_cases db unitId enterpriseId groupId with heq | ⟨deleted, heq⟩
  · rw [heq]
    exact h
  · rw [heq]
    constructor
    · intro id d
      simp only [Tables.deleteUnit, Tables.deleteDomains, Table.mem_delete, h.index]
      constructor
      · rintro ⟨⟨⟨r, hr, rfl, hd⟩, hkept⟩, -⟩
        exact ⟨r, ⟨hr, hkept⟩, rfl, hd⟩
      · rintro ⟨r, ⟨hr, hkept⟩, rfl, hd⟩
        exact ⟨⟨⟨r, hr, rfl, hd⟩, hkept⟩, hkept⟩
    · intro r hr
      exact h.normal r (Table.mem_delete.mp hr).1

/-- The step lemma. -/
theorem Indexed.exec (h : Indexed db) (op : UnitOp F) : Indexed (op.exec db).2 := by
  have hraised : ∀ {α : Type} (r : Except StoreError α × Tables F),
      (UnitOp.exec.raised r).2 = r.2 := by
    rintro α ⟨a | e, db⟩
    · rfl
    · rfl
  cases op with
  | insert unit embedding embeddingModel enterpriseId groupId now =>
      rw [UnitOp.exec, hraised]
      exact h.insert unit embedding embeddingModel enterpriseId groupId now
  | update unit =>
      rw [UnitOp.exec, hraised]
      exact h.update unit
  | delete unitId enterpriseId groupId =>
      rw [UnitOp.exec, hraised]
      exact h.delete unitId enterpriseId groupId

/-- The run lemma. -/
theorem Indexed.run (h : Indexed db) (ops : List (UnitOp F)) : Indexed (runOps db ops) := by
  induction ops generalizing db with
  | nil => exact h
  | cons op ops ih => exact ih (h.exec op)

/-- An operation that raises leaves the tables as they are, whatever they are. -/
theorem UnitOp.exec_raised {op : UnitOp F} {e : StoreError} (h : (op.exec db).1 = some e) :
    (op.exec db).2 = db := by
  have hraised : ∀ {α : Type} {r : Except StoreError α × Tables F},
      (UnitOp.exec.raised r).1 = some e → r.1 = .error e ∧ (UnitOp.exec.raised r).2 = r.2 := by
    rintro α ⟨a | e', db⟩ h
    · cases h
      exact ⟨rfl, rfl⟩
    · cases h
  cases op with
  | insert unit embedding embeddingModel enterpriseId groupId now =>
      obtain ⟨herr, heq⟩ := hraised h
      refine heq.trans ?_
      by_cases hne : normalizeDomains unit.domains = []
      · unfold insertSync
        rw [if_pos hne]
      · rw [insertSync_eq unit embedding embeddingModel enterpriseId groupId now hne] at herr ⊢
        exact begin_raised herr
  | update unit =>
      obtain ⟨herr, heq⟩ := hraised h
      refine heq.trans ?_
      by_cases hne : normalizeDomains unit.domains = []
      · unfold updateSync
        rw [if_pos hne]
      · rw [updateSync_eq unit hne] at herr ⊢
        exact begin_raised herr
  | delete unitId enterpriseId groupId =>
      obtain ⟨herr, heq⟩ := hraised h
      exact heq.trans (begin_raised herr)

/-- What the claim of an index is. -/
structure DomainIndex (db : Tables F) : Prop where
  /-- The domain rows of a unit are the domains in its document. -/
  rows : ∀ r ∈ db.units, ∀ d, (r.id, d) ∈ db.domains ↔ d ∈ r.unit.domains
  /-- Those are normalised, not empty and without duplicates, and there is one. -/
  normalized : ∀ r ∈ db.units, (∃ given, r.unit.domains = normalizeDomains given) ∧
    r.unit.domains ≠ [] ∧ r.unit.domains.Nodup ∧ ∀ d ∈ r.unit.domains, d ≠ ""
  /-- No domain row is of a unit that is not there. -/
  units : ∀ id d, (id, d) ∈ db.domains → ∃ r ∈ db.units, r.id = id

theorem Indexed.domainIndex (hlower : ∀ s, Casing.lower s = "" → s = "") (h : Indexed db) :
    DomainIndex db where
  rows r hr d := by
    rw [h.index]
    constructor
    · rintro ⟨r', hr', hid, hd⟩
      rwa [← Table.eq_of_key_eq hr' hr hid]
    · exact fun hd => ⟨r, hr, rfl, hd⟩
  normalized r hr := by
    have hnormal := h.normal r hr
    exact ⟨hnormal.2, hnormal.1, hnormal.nodup, hnormal.ne_empty hlower⟩
  units id d hmem := by
    obtain ⟨r, hr, hid, -⟩ := (h.index id d).mp hmem
    exact ⟨r, hr, hid⟩

/-- **The index of the domains.** After every run of operations the domain rows are the
normalised domains in the units' documents, and an operation that raises then leaves both
tables as they are. -/
theorem domain_index_run (hlower : ∀ s, Casing.lower s = "" → s = "") (ops : List (UnitOp F)) :
    DomainIndex (runOps .empty ops) ∧
      ∀ (op : UnitOp F) e, (op.exec (runOps .empty ops)).1 = some e →
        (op.exec (runOps .empty ops)).2 = runOps .empty ops :=
  ⟨(indexed_empty.run ops).domainIndex hlower, fun _ _ h => UnitOp.exec_raised h⟩

end Index

/-! ## A closed instance -/

section Sample

local instance indexCasing : Casing := asciiCasing

/-- No text becomes empty in lower case. -/
theorem asciiCasing_lower (s : String) (h : Casing.lower s = "") : s = "" := by
  have hlist : s.toList.map Char.toLower = [] := by
    rw [← String.toList_ofList (l := s.toList.map Char.toLower)]
    exact congrArg String.toList h
  exact String.toList_injective (List.map_eq_nil_iff.mp hlist)

/-- Two units are inserted, one of them a second time, which fails; one is written back with
other domains and the other is deleted. -/
def sampleOps : List (UnitOp ℚ) :=
  [.insert { sampleUnit "ku_1" "" with domains := [" API ", "api", "Ops"] } none none none none
      "2026-06-01T00:00:00+00:00",
    .insert (sampleUnit "ku_2" "db") none none (some "acme") (some "engineering")
      "2026-06-01T00:00:00+00:00",
    .insert (sampleUnit "ku_2" "web") none none none none "2026-06-01T00:00:00+00:00",
    .update { sampleUnit "ku_1" "" with domains := ["Web", "web "] },
    .delete (some "ku_2") (some "acme") none]

theorem domain_index_run_sample :
    (runOps (.empty : Tables ℚ) sampleOps).domains.rows = [("ku_1", "web")] ∧
      DomainIndex (runOps (.empty : Tables ℚ) sampleOps) :=
  ⟨by decide +kernel, (domain_index_run asciiCasing_lower sampleOps).1⟩

end Sample

end EighthLayer.Knowledge
