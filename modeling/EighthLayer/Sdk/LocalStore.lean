import EighthLayer.Lib.Runs
import EighthLayer.Lib.Table
import EighthLayer.Lib.Transaction
import EighthLayer.Sdk.Document

/-!
# EighthLayer.Sdk.LocalStore

The local store of the two SDKs: one file with a table of units, a table of their domains and a
full-text index, which has no constraints of its own. Both SDKs insert, update and delete a unit
in one transaction of the same statements; what they write differs (`Entry`).
-/

namespace EighthLayer.Sdk

open Lib
open Knowledge (Casing)

/-! ## The tables -/

/-- A row of `knowledge_units`. -/
structure UnitRow where
  id : Bytes
  data : Json

/-- A row of `knowledge_units_fts`. -/
structure FtsRow where
  id : Bytes
  summary : Bytes
  detail : Bytes
  action : Bytes
deriving DecidableEq

/-- The local database; the primary key of a domain row is the whole row. -/
structure LocalDb where
  units : Table UnitRow.id
  domains : Table fun p : Bytes × Bytes => p
  fts : List FtsRow

/-- What an operation raises. -/
inductive LocalError where
  /-- "At least one non-empty domain is required". -/
  | noDomains
  /-- There is no unit with this id. -/
  | notFound
  /-- A constraint of the schema. -/
  | constraint
  /-- Anything else that goes wrong at a statement. -/
  | fault
deriving DecidableEq

namespace LocalDb

def empty : LocalDb := ⟨.empty, .empty, []⟩

/-- `INSERT INTO knowledge_units`. -/
def insertUnit (r : UnitRow) : Statement LocalError LocalDb := fun db =>
  match db.units.insert r with
  | none => .error .constraint
  | some units => .ok { db with units }

/-- `UPDATE knowledge_units SET data = …`; with no row reached the operation gives up. -/
def updateUnit (r : UnitRow) : Statement LocalError LocalDb := fun db =>
  match db.units.find r.id with
  | none => .error .notFound
  | some _ => .ok
      { db with
        units := db.units.update (fun r' => r'.id = r.id) (fun r' => { r' with data := r.data })
          fun _ => rfl }

/-- `DELETE FROM knowledge_units`; domain rows go with their unit (`ON DELETE CASCADE`), and with
no row reached the operation gives up. -/
def deleteUnit (id : Bytes) : Statement LocalError LocalDb := fun db =>
  match db.units.find id with
  | none => .error .notFound
  | some _ => .ok
      { db with
        units := db.units.delete fun r => r.id = id
        domains := db.domains.delete fun p => p.1 = id }

/-- `INSERT INTO knowledge_unit_domains`; the unit has to be there. -/
def insertDomain (id domain : Bytes) : Statement LocalError LocalDb := fun db =>
  match db.units.find id with
  | none => .error .constraint
  | some _ =>
    match db.domains.insert (id, domain) with
    | none => .error .constraint
    | some domains => .ok { db with domains }

/-- `DELETE FROM knowledge_unit_domains`. -/
def deleteDomains (id : Bytes) : Statement LocalError LocalDb := fun db =>
  .ok { db with domains := db.domains.delete fun p => p.1 = id }

/-- `INSERT INTO knowledge_units_fts`. -/
def insertFts (r : FtsRow) : Statement LocalError LocalDb := fun db =>
  .ok { db with fts := db.fts ++ [r] }

/-- `DELETE FROM knowledge_units_fts`. -/
def deleteFts (id : Bytes) : Statement LocalError LocalDb := fun db =>
  .ok { db with fts := db.fts.filter fun r => r.id ≠ id }

end LocalDb

/-! ## The operations -/

/-- What is written of a unit. -/
structure Entry where
  row : UnitRow
  domains : List Bytes
  fts : FtsRow

/-- The statements of `insert`; `BEGIN` is the first. -/
def insertStatements (e : Entry) : List (Statement LocalError LocalDb) :=
  .ok :: LocalDb.insertUnit e.row :: (e.domains.map (LocalDb.insertDomain e.row.id) ++
    [LocalDb.insertFts e.fts])

/-- The statements of `update`. -/
def updateStatements (e : Entry) : List (Statement LocalError LocalDb) :=
  .ok :: LocalDb.updateUnit e.row :: LocalDb.deleteDomains e.row.id ::
    (e.domains.map (LocalDb.insertDomain e.row.id) ++
      [LocalDb.deleteFts e.row.id, LocalDb.insertFts e.fts])

/-- The statements of `delete`. -/
def deleteStatements (id : Bytes) : List (Statement LocalError LocalDb) :=
  [.ok, LocalDb.deleteFts id, LocalDb.deleteUnit id]

variable {F : Type} [JsonFloats F]

/-- What Go writes: the texts of the unit as they are, in the index as in the id. -/
def Go.entry (stored : Go.KnowledgeUnit F) : Entry where
  row := ⟨stored.id, stored.marshal⟩
  domains := stored.domains.getD []
  fts := ⟨stored.id, stored.insight.summary, stored.insight.detail, stored.insight.action⟩

/-- What Python writes. -/
def Py.entry (unit : Py.KnowledgeUnit F) : Entry where
  row := ⟨utf8 unit.id, unit.modelDumpJson⟩
  domains := unit.domains.map utf8
  fts := ⟨utf8 unit.id, utf8 unit.insight.summary, utf8 unit.insight.detail,
    utf8 unit.insight.action⟩

/-- An operation of one of the two SDKs. -/
inductive LocalOp (F : Type) where
  | goInsert (ku : Go.KnowledgeUnit F)
  | goUpdate (ku : Go.KnowledgeUnit F)
  | goDelete (unitId : Go.Text)
  | pyInsert (unit : Py.KnowledgeUnit F)
  | pyUpdate (unit : Py.KnowledgeUnit F)
  | pyDelete (unitId : String)

variable [Go.Strings] [Casing]

/-- The statements of an operation; `none` when nothing is left of the domains. -/
def LocalOp.statements : LocalOp F → Option (List (Statement LocalError LocalDb))
  | goInsert ku => (Go.stored ku).map fun stored => insertStatements (Go.entry stored)
  | goUpdate ku => (Go.stored ku).map fun stored => updateStatements (Go.entry stored)
  | goDelete unitId => some (deleteStatements unitId)
  | pyInsert unit => (Py.stored unit).map fun stored => insertStatements (Py.entry stored)
  | pyUpdate unit => (Py.stored unit).map fun stored => updateStatements (Py.entry stored)
  | pyDelete unitId => some (deleteStatements (utf8 unitId))

/-- An operation, and where a fault strikes it. -/
structure LocalStep (F : Type) where
  op : LocalOp F
  faults : Nat → Bool

/-- What an operation raises, if it does, and the database after it. -/
def LocalStep.exec (st : LocalStep F) (db : LocalDb) : Option LocalError × LocalDb :=
  match st.op.statements with
  | none => (some .noDomains, db)
  | some ss => transact (fun n => if st.faults n then some .fault else none) ss db

/-- Operations one after the other. -/
def runLocal (db : LocalDb) (steps : List (LocalStep F)) : LocalDb :=
  steps.foldl (fun db st => (st.exec db).2) db

end EighthLayer.Sdk
