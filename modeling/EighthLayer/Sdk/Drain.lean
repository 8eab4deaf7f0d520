import EighthLayer.Lib.Unwinding
import EighthLayer.Sdk.Clients
import EighthLayer.Sdk.LocalIndex

/-!
# EighthLayer.Sdk.Drain

What becomes of the units that clients propose, confirm, flag and drain at the same time.

A unit is in the local store (`Held`) or has copies at the remote (`copies`). What a step does to
these two is all that its answer says (`held_exec`, `copies_exec`). A unit leaves the local store
only by a drain, which has heard before that the remote has taken it; so whatever the clients do and
whichever request or statement fails, no unit that was proposed is lost (`nothing_lost`).
-/

namespace EighthLayer.Sdk

open Lib
open Knowledge (Floats Casing FlagReason Tier)

/-! ## Where a unit is -/

/-- The unit is in the local store. -/
def Shared.Held (s : Shared) (id : Bytes) : Prop := ∃ r ∈ s.store.units, r.id = id

/-- How many units of the remote are copies of a local one. -/
def Shared.copies (s : Shared) (id : Bytes) : Nat := s.remote.countP fun u => u.origin = id

section Rows

variable {F : Type}

/-- The unit that an operation inserts. -/
def LocalOp.inserts : LocalOp F → Option Bytes
  | goInsert ku => some ku.id
  | pyInsert unit => some (utf8 unit.id)
  | goUpdate _ | goDelete _ | pyUpdate _ | pyDelete _ => none

/-- The unit that an operation deletes. -/
def LocalOp.deletes : LocalOp F → Option Bytes
  | goDelete unitId => some unitId
  | pyDelete unitId => some (utf8 unitId)
  | goInsert _ | goUpdate _ | pyInsert _ | pyUpdate _ => none

variable [JsonFloats F] [Go.Strings] [Casing]

/-- What an operation writes of a unit, with its domains in normal form. -/
def LocalOp.writes : LocalOp F → UnitRow → Prop
  | goInsert ku, r | goUpdate ku, r => ∃ stored, Go.stored ku = some stored ∧ r = (Go.entry stored).row
  | pyInsert unit, r | pyUpdate unit, r =>
      ∃ stored, Py.stored unit = some stored ∧ r = (Py.entry stored).row
  | goDelete _, _ | pyDelete _, _ => False

omit [JsonFloats F] [Go.Strings] [Casing] in
theorem executes_insert_units {e : Entry} {db db' : LocalDb}
    (h : Executes (insertStatements e) db db') (r : UnitRow) :
    r ∈ db'.units ↔ r ∈ db.units ∨ r = e.row := by
  obtain ⟨_, ⟨rfl⟩, h⟩ := executes_cons_iff.mp h
  obtain ⟨db₁, hunit, h⟩ := executes_cons_iff.mp h
  obtain ⟨db₂, hloop, h⟩ := executes_append_iff.mp h
  obtain ⟨_, ⟨rfl⟩, h⟩ := executes_cons_iff.mp h
  cases executes_nil_iff.mp h
  unfold LocalDb.insertUnit at hunit
  cases hinsert : db.units.insert e.row with
  | none =>
      rw [hinsert] at hunit
      cases hunit
  | some units =>
      rw [hinsert] at hunit
      cases hunit
      rw [(executes_insertDomains hloop).1]
      exact Table.mem_insert hinsert

omit [JsonFloats F] [Go.Strings] [Casing] in
theorem executes_update_units {e : Entry} {db db' : LocalDb}
    (h : Executes (updateStatements e) db db') :
    (∃ old ∈ db.units, old.id = e.row.id) ∧
      ∀ r, r ∈ db'.units ↔ (r ∈ db.units ∧ r.id ≠ e.row.id) ∨ r = e.row := by
  obtain ⟨_, ⟨rfl⟩, h⟩ := executes_cons_iff.mp h
  obtain ⟨db₁, hunit, h⟩ := executes_cons_iff.mp h
  obtain ⟨_, ⟨rfl⟩, h⟩ := executes_cons_iff.mp h
  obtain ⟨db₂, hloop, h⟩ := executes_append_iff.mp h
  obtain ⟨_, ⟨rfl⟩, h⟩ := executes_cons_iff.mp h
  obtain ⟨_, ⟨rfl⟩, h⟩ := executes_cons_iff.mp h
  cases executes_nil_iff.mp h
  unfold LocalDb.updateUnit at hunit
  cases hfind : db.units.find e.row.id with
  | none =>
      rw [hfind] at hunit
      cases hunit
  | some old =>
      rw [hfind] at hunit
      cases hunit
      obtain ⟨hold, hid⟩ := Table.find_eq_some_iff.mp hfind
      refine ⟨⟨old, hold, hid⟩, fun r => ?_⟩
      show r ∈ db₂.units ↔ _
      rw [(executes_insertDomains hloop).1, Table.mem_update]
      constructor
      · rintro ⟨r', hr', rfl⟩
        by_cases hid' : r'.id = e.row.id
        · rw [if_pos (by simpa using hid')]
          exact .inr (by rw [hid'])
        · rw [if_neg (by simpa using hid')]
          exact .inl ⟨hr', hid'⟩
      · rintro (⟨hr, hne⟩ | rfl)
        · exact ⟨r, hr, if_neg (by simpa using hne)⟩
        · exact ⟨old, hold, by rw [if_pos (by simpa using hid), hid]⟩

omit [JsonFloats F] [Go.Strings] [Casing] in
theorem executes_delete_units {id : Bytes} {db db' : LocalDb}
    (h : Executes (deleteStatements id) db db') (r : UnitRow) :
    r ∈ db'.units ↔ r ∈ db.units ∧ r.id ≠ id := by
  obtain ⟨_, ⟨rfl⟩, h⟩ := executes_cons_iff.mp h
  obtain ⟨_, ⟨rfl⟩, h⟩ := executes_cons_iff.mp h
  obtain ⟨db₁, hunit, h⟩ := executes_cons_iff.mp h
  cases executes_nil_iff.mp h
  unfold LocalDb.deleteUnit at hunit
  cases hfind : db.units.find id with
  | none =>
      simp only [hfind] at hunit
      cases hunit
  | some old =>
      simp only [hfind] at hunit
      cases hunit
      show r ∈ Table.delete _ _ ↔ _
      rw [Table.mem_delete]
      simp

/-- What an operation that does not raise leaves of the units. -/
structure LocalOp.After (op : LocalOp F) (db db' : LocalDb) : Prop where
  rows : ∀ r ∈ db'.units, r ∈ db.units ∨ op.writes r
  held : ∀ id, (∃ r ∈ db'.units, r.id = id) ↔
    ((∃ r ∈ db.units, r.id = id) ∧ op.deletes ≠ some id) ∨ op.inserts = some id

omit [JsonFloats F] [Go.Strings] [Casing] in
/-- An insert that leaves the units so. -/
theorem held_insert {units units' : Table UnitRow.id} {row : UnitRow}
    (h : ∀ r, r ∈ units' ↔ r ∈ units ∨ r = row) (id : Bytes) :
    (∃ r ∈ units', r.id = id) ↔ (∃ r ∈ units, r.id = id) ∨ row.id = id := by
  simp only [h]
  constructor
  · rintro ⟨r, hr | rfl, hid⟩
    · exact .inl ⟨r, hr, hid⟩
    · exact .inr hid
  · rintro (⟨r, hr, hid⟩ | hid)
    · exact ⟨r, .inl hr, hid⟩
    · exact ⟨row, .inr rfl, hid⟩

omit [JsonFloats F] [Go.Strings] [Casing] in
/-- An update that leaves the units so. -/
theorem held_update {units units' : Table UnitRow.id} {row : UnitRow}
    (hold : ∃ old ∈ units, old.id = row.id)
    (h : ∀ r, r ∈ units' ↔ (r ∈ units ∧ r.id ≠ row.id) ∨ r = row) (id : Bytes) :
    (∃ r ∈ units', r.id = id) ↔ ∃ r ∈ units, r.id = id := by
  simp only [h]
  constructor
  · rintro ⟨r, ⟨hr, -⟩ | rfl, hid⟩
    · exact ⟨r, hr, hid⟩
    · rw [← hid]
      exact hold
  · rintro ⟨r, hr, hid⟩
    by_cases hrow : r.id = row.id
    · exact ⟨row, .inr rfl, hrow.symm.trans hid⟩
    · exact ⟨r, .inl ⟨hr, hrow⟩, hid⟩

/-- **What a write does to the units.** It raises and leaves them as they were, or it does what its
operation says. -/
theorem write_cases (op : LocalOp F) (faults : Nat → Bool) (db : LocalDb) :
    (∃ e, LocalStep.exec ⟨op, faults⟩ db = (some e, db)) ∨
      ∃ db', LocalStep.exec ⟨op, faults⟩ db = (none, db') ∧ op.After db db' := by
  unfold LocalStep.exec
  cases hss : op.statements with
  | none => exact .inl ⟨.noDomains, rfl⟩
  | some ss =>
      rcases transact_cases (fun n => if faults n then some .fault else none) ss db with
        ⟨e, heq⟩ | ⟨db', heq, hexec⟩
      · exact .inl ⟨e, heq⟩
      refine .inr ⟨db', heq, ?_⟩
      cases op with
      | goInsert ku =>
          obtain ⟨stored, hstored, rfl⟩ := Option.map_eq_some_iff.mp hss
          have hunits := executes_insert_units hexec
          refine ⟨fun r hr => ((hunits r).mp hr).imp_right fun h => ⟨stored, hstored, h⟩, ?_⟩
          have hid : (Go.entry stored).row.id = ku.id := by
            rw [(Go.stored_eq_some hstored).2]
            rfl
          intro id
          rw [held_insert hunits, hid]
          simp [LocalOp.inserts, LocalOp.deletes]
      | pyInsert unit =>
          obtain ⟨stored, hstored, rfl⟩ := Option.map_eq_some_iff.mp hss
          have hunits := executes_insert_units hexec
          refine ⟨fun r hr => ((hunits r).mp hr).imp_right fun h => ⟨stored, hstored, h⟩, ?_⟩
          have hid : (Py.entry stored).row.id = utf8 unit.id := by
            obtain ⟨-, heq⟩ := Option.ite_none_left_eq_some.mp hstored
            cases heq
            rfl
          intro id
          rw [held_insert hunits, hid]
          simp [LocalOp.inserts, LocalOp.deletes]
      | goUpdate ku =>
          obtain ⟨stored, hstored, rfl⟩ := Option.map_eq_some_iff.mp hss
          obtain ⟨hold, hunits⟩ := executes_update_units hexec
          refine ⟨fun r hr => ((hunits r).mp hr).imp And.left fun h => ⟨stored, hstored, h⟩, ?_⟩
          intro id
          rw [held_update hold hunits]
          simp [LocalOp.inserts, LocalOp.deletes]
      | pyUpdate unit =>
          obtain ⟨stored, hstored, rfl⟩ := Option.map_eq_some_iff.mp hss
          obtain ⟨hold, hunits⟩ := executes_update_units hexec
          refine ⟨fun r hr => ((hunits r).mp hr).imp And.left fun h => ⟨stored, hstored, h⟩, ?_⟩
          intro id
          rw [held_update hold hunits]
          simp [LocalOp.inserts, LocalOp.deletes]
      | goDelete unitId =>
          cases hss
          have hunits := executes_delete_units hexec
          refine ⟨fun r hr => .inl ((hunits r).mp hr).1, fun id => ?_⟩
          simp only [hunits, LocalOp.inserts, LocalOp.deletes]
          grind
      | pyDelete unitId =>
          cases hss
          have hunits := executes_delete_units hexec
          refine ⟨fun r hr => .inl ((hunits r).mp hr).1, fun id => ?_⟩
          simp only [hunits, LocalOp.inserts, LocalOp.deletes]
          grind

end Rows

/-! ## What steps say -/

abbrev ClientEvent (F : Type) : Type := Event (Stmt.Answer (F := F))

section Events

variable {F : Type}

/-- The remote has taken a unit, and the client has heard so. -/
def Stmt.pushes : (q : Stmt F) → q.Answer → Option Bytes
  | .send (.propose origin _) _, heard => if heard = .success then some origin else none
  | .send (.confirm _) _, _ | .send (.flag _ _) _, _ | .select _, _ | .selectAll, _
  | .write _ _ _, _ => none

/-- A unit has been put into the local store, or the client has heard that the remote has taken it.
-/
def Stmt.puts : (q : Stmt F) → q.Answer → Option Bytes
  | .write op _ _, none => op.inserts
  | .write _ _ _, some _ => none
  | .send (.propose origin _) _, heard => if heard = .success then some origin else none
  | .send (.confirm _) _, _ | .send (.flag _ _) _, _ | .select _, _ | .selectAll, _ => none

/-- The unit that the next statement of a program is to delete. -/
def dropsNext : ClientProg F → Option Bytes
  | .call (.write op _ _) _ => op.deletes
  | .call (.select _) _ | .call .selectAll _ | .call (.send _ _) _ | .done _ => none

/-- What a request adds to the copies of a unit. -/
def Request.adds (id : Bytes) (outcome : Outcome) : Request → Nat
  | propose origin _ => if origin = id ∧ outcome.served ≠ none then 1 else 0
  | confirm _ | flag _ _ => 0

theorem heard_success {outcome : Outcome} (h : outcome.heard = .success) : outcome.served ≠ none := by
  cases outcome with
  | accepted serverId => exact nofun
  | _ => cases h

variable [JsonFloats F] [Go.Strings] [Casing]

@[simp] theorem exec_select (id : Bytes) (s : Shared) :
    (Stmt.exec (.select id : Stmt F) s).2 = s := rfl

@[simp] theorem exec_selectAll (s : Shared) : (Stmt.exec (.selectAll : Stmt F) s).2 = s := rfl

@[simp] theorem held_send (request : Request) (outcome : Outcome) (s : Shared) (id : Bytes) :
    (Stmt.exec (.send request outcome : Stmt F) s).2.Held id ↔ s.Held id := by
  simp only [Stmt.exec]
  cases outcome.served with
  | none => exact Iff.rfl
  | some serverId => exact Iff.rfl

omit [JsonFloats F] [Go.Strings] [Casing] in
/-- What becomes of a unit of the remote leaves it the copy that it is. -/
theorem countP_origin_map {remote : List RemoteUnit} {f : RemoteUnit → RemoteUnit}
    (hf : ∀ u, (f u).origin = u.origin) (id : Bytes) :
    (remote.map f).countP (fun u => u.origin = id) = remote.countP fun u => u.origin = id := by
  rw [List.countP_map]
  refine List.countP_congr fun u _ => ?_
  simp [hf]

omit [JsonFloats F] [Go.Strings] [Casing] in
theorem origin_flag (body : Json) (u : RemoteUnit) : (u.flag body).origin = u.origin := by
  unfold RemoteUnit.flag
  cases flagRequest body with
  | none => rfl
  | some reason => rfl

/-- A request adds the copy that it proposes. -/
theorem copies_send (request : Request) (outcome : Outcome) (s : Shared) (id : Bytes) :
    (Stmt.exec (.send request outcome : Stmt F) s).2.copies id =
      s.copies id + request.adds id outcome := by
  simp only [Stmt.exec, Shared.copies]
  cases hserved : outcome.served with
  | none =>
      cases request with
      | propose origin body => simp [Request.adds, hserved]
      | confirm id' => rfl
      | flag id' body => rfl
  | some serverId =>
      cases request with
      | propose origin body =>
          simp only [Request.serve, Request.adds, hserved, List.countP_append, List.countP_singleton]
          simp
      | confirm id' =>
          refine countP_origin_map (fun u => ?_) id
          by_cases h : u.id = id'
          · rw [if_pos h]
            rfl
          · rw [if_neg h]
      | flag id' body =>
          refine countP_origin_map (fun u => ?_) id
          by_cases h : u.id = id'
          · rw [if_pos h]
            exact origin_flag body u
          · rw [if_neg h]

/-- A write does nothing at the remote. -/
@[simp] theorem copies_write (op : LocalOp F) (mark : Option Mark) (faults : Nat → Bool) (s : Shared)
    (id : Bytes) : (Stmt.exec (.write op mark faults) s).2.copies id = s.copies id := rfl

/-- A write that has been answered so. -/
theorem held_write (op : LocalOp F) (mark : Option Mark) (faults : Nat → Bool) (s : Shared)
    (id : Bytes) :
    (Stmt.exec (.write op mark faults) s).2.Held id ↔
      if (Stmt.exec (.write op mark faults) s).1 = none then
        (s.Held id ∧ op.deletes ≠ some id) ∨ op.inserts = some id
      else s.Held id := by
  simp only [Stmt.exec, Shared.Held]
  rcases write_cases op faults s.store with ⟨e, heq⟩ | ⟨db', heq, hafter⟩
  · simp only [heq, reduceCtorEq, if_false]
  · simp only [heq, if_true]
    exact hafter.held id

end Events

/-! ## What a program deletes -/

section Lost

variable {F : Type}

/-- The unit is in the local store or at the remote. -/
def Shared.Kept (s : Shared) (id : Bytes) : Prop := s.Held id ∨ 0 < s.copies id

/-- A program deletes only what it has heard that the remote has taken. -/
def DropsPushed (past : List (ClientEvent F)) (p : ClientProg F) : Prop :=
  ∀ id, dropsNext p = some id → ∃ e ∈ past, e.stmt.pushes e.answer = some id

/-- What a program that deletes nothing does. -/
theorem dropsPushed_of_issues {i : Nat} {p : ClientProg F}
    (h : p.Issues fun q => ∀ op mark faults, q = .write op mark faults → op.deletes = none)
    (past : List (ClientEvent F)) : p.Always DropsPushed i past := by
  induction h generalizing past with
  | done => exact .done fun id hid => by cases hid
  | @call q k hq hrest ih =>
      refine .call ?_ fun a => ih a _
      intro id hid
      cases q with
      | write op mark faults =>
          have hnone := hq op mark faults rfl
          rw [show dropsNext (Prog.call (Stmt.write op mark faults) k) = op.deletes from rfl, hnone]
            at hid
          cases hid
      | _ => cases hid

/-- A drain. -/
theorem dropsPushed_loop {U : Type} {D : Drainer F U}
    (hdelete : ∀ u, (D.delete u).deletes = some (D.unitId u)) {i : Nat} (outcomes : Nat → Outcome)
    (faults : Nat → Nat → Bool) (expired : Nat → Bool) (units : List U) (n pushed : Nat)
    (warnings : List Bytes) (past : List (ClientEvent F)) :
    (D.loop outcomes faults expired n units pushed warnings).Always DropsPushed i past := by
  induction units generalizing n pushed warnings past with
  | nil => exact .done fun id hid => by cases hid
  | cons unit units ih =>
      unfold Drainer.loop
      by_cases hexpired : expired n = true
      · rw [if_pos hexpired]
        exact .done fun id hid => by cases hid
      rw [if_neg hexpired]
      by_cases hlocal : D.isLocal unit = true
      · rw [if_pos hlocal]
        refine .call (fun id hid => by cases hid) fun (heard : Heard) => ?_
        cases heard with
        | success =>
            refine .call ?_ fun (e : Option LocalError) => ?_
            · -- the unit that it deletes is the one that it has proposed
              intro id hid
              obtain rfl : D.unitId unit = id := Option.some.inj ((hdelete unit).symm.trans hid)
              exact ⟨_, List.mem_cons_self, rfl⟩
            · cases e with
              | none => exact ih _ _ _ _
              | some e =>
                  by_cases hgoes : D.goesOn = true
                  · simp only [if_pos hgoes]
                    exact ih _ _ _ _
                  · simp only [if_neg hgoes]
                    exact .done fun id hid => by cases hid
        | nothing => exact ih _ _ _ _
        | status status => exact ih _ _ _ _
      · rw [if_neg hlocal]
        exact ih _ _ _ _

theorem dropsPushed_drain {U : Type} {D : Drainer F U}
    (hdelete : ∀ u, (D.delete u).deletes = some (D.unitId u)) {i : Nat} (read : Json → Option U)
    (hasRemote : Bool) (outcomes : Nat → Outcome) (faults : Nat → Nat → Bool)
    (expired : Nat → Bool) :
    (D.drain read hasRemote outcomes faults expired).Always DropsPushed i [] := by
  unfold Drainer.drain
  by_cases hremote : hasRemote = true
  · rw [if_pos hremote]
    refine .call (fun id hid => by cases hid) fun (rows : List Json) => ?_
    cases hread : rows.mapM read with
    | none => exact .done fun id hid => by cases hid
    | some units => exact dropsPushed_loop hdelete outcomes faults expired units 0 0 [] _
  · rw [if_neg hremote]
    exact .done fun id hid => by cases hid

end Lost

/-! ## What calls do -/

section Calls

variable {F : Type} [JsonFloats F] [Go.Strings] [Casing]

/-- A row whose document has the id that it stands under. -/
def RowNamed (r : UnitRow) : Prop := ∃ d : Document, r.data = d.json ∧ utf8 d.id = r.id

/-- What an operation writes has the id that it stands under. -/
def LocalOp.Named (op : LocalOp F) : Prop := ∀ r, op.writes r → RowNamed r

/-- A statement of a call that changes a unit in its place. -/
def Stmt.Changes : Stmt F → Prop
  | .select _ => True
  | .write op _ _ => op.inserts = none ∧ op.deletes = none ∧ op.Named
  | .send (.confirm _) _ | .send (.flag _ _) _ => True
  | .send (.propose _ _) _ | .selectAll => False

/-- A statement of a call that proposes a unit. -/
def Stmt.Proposes (id : Bytes) : Stmt F → Prop
  | .write op _ _ => op.inserts = some id ∧ op.deletes = none ∧ op.Named
  | .send (.propose origin _) _ => origin = id
  | .send (.confirm _) _ | .send (.flag _ _) _ | .select _ | .selectAll => False

omit [Casing] in
theorem rowNamed_go {ku stored : Go.KnowledgeUnit F} (hstored : Go.stored ku = some stored)
    (hid : IsUtf8 ku.id) : RowNamed (Go.entry stored).row := by
  refine ⟨stored.document, stored.marshal_eq, ?_⟩
  rw [(Go.stored_eq_some hstored).2]
  exact hid

omit [Go.Strings] [Casing] in
theorem rowNamed_py (stored : Py.KnowledgeUnit F) : RowNamed (Py.entry stored).row :=
  ⟨stored.document, stored.modelDumpJson_eq, rfl⟩

theorem named_goInsert {ku : Go.KnowledgeUnit F} (hid : IsUtf8 ku.id) :
    (LocalOp.goInsert ku).Named := by
  rintro r ⟨stored, hstored, rfl⟩
  exact rowNamed_go hstored hid

theorem named_goUpdate {ku : Go.KnowledgeUnit F} (hid : IsUtf8 ku.id) :
    (LocalOp.goUpdate ku).Named := by
  rintro r ⟨stored, hstored, rfl⟩
  exact rowNamed_go hstored hid

theorem named_pyInsert (unit : Py.KnowledgeUnit F) : (LocalOp.pyInsert unit).Named := by
  rintro r ⟨stored, -, rfl⟩
  exact rowNamed_py stored

theorem named_pyUpdate (unit : Py.KnowledgeUnit F) : (LocalOp.pyUpdate unit).Named := by
  rintro r ⟨stored, -, rfl⟩
  exact rowNamed_py stored

omit [JsonFloats F] [Go.Strings] [Casing] in
theorem generateId_eq (uuid : Bytes) : Go.generateId uuid = utf8 (Py.generateKuId uuid) :=
  (utf8_append _ _).symm

omit [Go.Strings] [Casing] in
/-- The id that Go reads of a unit is UTF-8, whatever the document. -/
theorem Go.isUtf8_of_unmarshal [Floats F] {j : Json} {ku : Go.KnowledgeUnit F}
    (h : Go.KnowledgeUnit.unmarshal j = some ku) : IsUtf8 ku.id := by
  cases j with
  | obj ms =>
      obtain ⟨id, hid, h⟩ := Option.bind_eq_some_iff.mp h
      obtain ⟨version, -, h⟩ := Option.bind_eq_some_iff.mp h
      obtain ⟨domains, -, h⟩ := Option.bind_eq_some_iff.mp h
      obtain ⟨insight, -, h⟩ := Option.bind_eq_some_iff.mp h
      obtain ⟨context, -, h⟩ := Option.bind_eq_some_iff.mp h
      obtain ⟨evidence, -, h⟩ := Option.bind_eq_some_iff.mp h
      obtain ⟨tier, -, h⟩ := Option.bind_eq_some_iff.mp h
      obtain ⟨createdBy, -, h⟩ := Option.bind_eq_some_iff.mp h
      obtain ⟨supersededBy, -, h⟩ := Option.bind_eq_some_iff.mp h
      obtain ⟨flags, -, h⟩ := Option.bind_eq_some_iff.mp h
      cases h
      show IsUtf8 id
      obtain ⟨read, hread, rfl⟩ := Option.map_eq_some_iff.mp hid
      cases read with
      | none => exact isUtf8_utf8 ""
      | some t =>
          unfold Json.nullable at hread
          cases hv : ms.lookup "id" with
          | none =>
              rw [hv] at hread
              cases hread
          | some v =>
              rw [hv] at hread
              cases v with
              | null => cases hread
              | _ =>
                  obtain ⟨t', ht', heq⟩ := Option.map_eq_some_iff.mp hread
                  obtain ⟨s, -, rfl⟩ := Option.map_eq_some_iff.mp ht'
                  cases heq
                  exact isUtf8_utf8 s
  | _ => cases h

/-! ### Proposals -/

omit [JsonFloats F] [Go.Strings] [Casing] in
/-- A proposal that is returned has been put somewhere. -/
def ReturnedPut (id : Bytes) (past : List (ClientEvent F)) (p : ClientProg F) : Prop :=
  ∀ fallback, p.result = some (.returned fallback) →
    ∃ e ∈ past, e.stmt.puts e.answer = some id

theorem issues_proposeOrInsert {id : Bytes} {insert : LocalOp F} (hinserts : insert.inserts = some id)
    (hdeletes : insert.deletes = none) (hnamed : insert.Named) (body : Json)
    (fallsBack : Nat → Bool) (remote : Option Outcome) (faults : Nat → Bool) :
    (proposeOrInsert id body insert fallsBack remote faults).Issues (Stmt.Proposes id) := by
  have hinsert : ∀ fallback, (insertUnit insert faults fallback).Issues (Stmt.Proposes id) := by
    intro fallback
    refine .call ⟨hinserts, hdeletes, hnamed⟩ fun (e : Option LocalError) => ?_
    cases e with
    | none => exact .done
    | some e => exact .done
  cases remote with
  | none => exact hinsert false
  | some outcome =>
      refine .call rfl fun (heard : Heard) => ?_
      cases heard with
      | success => exact .done
      | nothing => exact hinsert true
      | status status =>
          by_cases hfalls : fallsBack status = true
          · simp only [if_pos hfalls]
            exact hinsert true
          · simp only [if_neg hfalls]
            exact .done

omit [JsonFloats F] [Go.Strings] [Casing] in
theorem returned_proposeOrInsert {id : Bytes} {insert : LocalOp F}
    (hinserts : insert.inserts = some id) (body : Json) (fallsBack : Nat → Bool)
    (remote : Option Outcome) (faults : Nat → Bool) (i : Nat) :
    (proposeOrInsert id body insert fallsBack remote faults).Always (ReturnedPut id) i [] := by
  have hinsert : ∀ fallback past,
      (insertUnit insert faults fallback).Always (ReturnedPut id) i past := by
    intro fallback past
    refine .call (fun _ h => by cases h) fun (e : Option LocalError) => ?_
    cases e with
    | none => exact .done fun _ _ => ⟨_, List.mem_cons_self, hinserts⟩
    | some e => exact .done fun _ h => by cases h
  cases remote with
  | none => exact hinsert false []
  | some outcome =>
      refine .call (fun _ h => by cases h) fun (heard : Heard) => ?_
      cases heard with
      | success => exact .done fun _ _ => ⟨_, List.mem_cons_self, rfl⟩
      | nothing => exact hinsert true _
      | status status =>
          by_cases hfalls : fallsBack status = true
          · simp only [if_pos hfalls]
            exact hinsert true _
          · simp only [if_neg hfalls]
            exact .done fun _ h => by cases h

/-! ### Changes -/

theorem issues_changeStored {U : Type} {id : Bytes} {read : Json → Option U} {change : U → Option U}
    {update : U → LocalOp F} {mark : Mark} {faults : Nat → Bool} {rest : ClientProg F}
    (hupdate : ∀ data u changed, read data = some u → change u = some changed →
      (update changed).inserts = none ∧ (update changed).deletes = none ∧ (update changed).Named)
    (hrest : rest.Issues Stmt.Changes) :
    (changeStored id read change update mark faults rest).Issues Stmt.Changes := by
  refine .call trivial fun (data : Option Json) => ?_
  cases data with
  | none => exact .done
  | some data =>
      cases hchanged : (read data).bind change with
      | none =>
          simp only [hchanged]
          exact .done
      | some changed =>
          simp only [hchanged]
          obtain ⟨u, hread, hchange⟩ := Option.bind_eq_some_iff.mp hchanged
          refine .call (hupdate data u changed hread hchange) fun (e : Option LocalError) => ?_
          cases e with
          | none => exact hrest
          | some e => exact .done

theorem issues_changeRemote {request : Request} (remote : Option Outcome)
    (h : ∀ outcome, (Stmt.send request outcome : Stmt F).Changes) :
    (changeRemote request remote : ClientProg F).Issues Stmt.Changes := by
  cases remote with
  | none => exact .done
  | some outcome =>
      refine .call (h outcome) fun (heard : Heard) => ?_
      cases heard with
      | _ => exact .done

theorem issues_forward {request : Request} (remote : Option Outcome)
    (h : ∀ outcome, (Stmt.send request outcome : Stmt F).Changes) :
    (forward request remote : ClientProg F).Issues Stmt.Changes := by
  cases remote with
  | none => exact .done
  | some outcome => exact .call (h outcome) fun _ => .done

variable [Floats F]

/-- What a call that proposes a unit does. -/
theorem issues_propose {call : Call} {id : Bytes} (h : call.proposes = some id) :
    (call.prog : ClientProg F).Issues (Stmt.Proposes id) := by
  cases call with
  | goPropose params uuid now remote faults =>
      cases h
      refine issues_proposeOrInsert rfl rfl (named_goInsert ?_) _ _ _ _
      show IsUtf8 (Go.generateId uuid)
      rw [generateId_eq]
      exact isUtf8_utf8 _
  | pyPropose domains insight context createdBy uuid now remote faults =>
      cases h
      show (Py.propose domains insight context createdBy uuid now remote faults).Issues _
      unfold Py.propose Py.createKnowledgeUnit
      by_cases hdomains : domains = []
      · rw [if_pos hdomains]
        exact .done
      · rw [if_neg hdomains, generateId_eq]
        exact issues_proposeOrInsert rfl rfl (named_pyInsert _) _ _ _ _
  | _ => cases h

omit [Go.Strings] [Casing] in
theorem returned_propose {call : Call} {id : Bytes} (h : call.proposes = some id) (i : Nat) :
    (call.prog : ClientProg F).Always (ReturnedPut id) i [] := by
  cases call with
  | goPropose params uuid now remote faults =>
      cases h
      exact returned_proposeOrInsert rfl _ _ _ _ i
  | pyPropose domains insight context createdBy uuid now remote faults =>
      cases h
      show (Py.propose domains insight context createdBy uuid now remote faults).Always _ _ _
      unfold Py.propose Py.createKnowledgeUnit
      by_cases hdomains : domains = []
      · rw [if_pos hdomains]
        exact .done fun _ h => by cases h
      · rw [if_neg hdomains, generateId_eq]
        exact returned_proposeOrInsert rfl _ _ _ _ i
  | _ => cases h

/-- What a call that confirms or flags a unit does. -/
theorem issues_change {call : Call} (hproposes : call.proposes = none) (hdrains : call.drains = false) :
    (call.prog : ClientProg F).Issues Stmt.Changes := by
  cases call with
  | goConfirm unitId tier now remote faults =>
      show (Go.confirm unitId tier now remote faults).Issues _
      unfold Go.confirm
      by_cases htier : Go.isRemote tier = true
      · rw [if_pos htier]
        exact issues_changeRemote remote fun _ => trivial
      · rw [if_neg htier]
        refine issues_changeStored (fun data u changed hread hchange => ?_) .done
        cases hchange
        have hid : IsUtf8 u.id := Go.isUtf8_of_unmarshal hread
        exact ⟨rfl, rfl, named_goUpdate hid⟩
  | goFlag unitId tier reason detail duplicateOf now remote faults =>
      show (Go.flag unitId tier reason detail duplicateOf now remote faults).Issues _
      unfold Go.flag
      by_cases haccepted : Go.flagAccepted reason duplicateOf = true
      · rw [if_pos haccepted]
        by_cases htier : Go.isRemote tier = true
        · rw [if_pos htier]
          exact issues_changeRemote remote fun _ => trivial
        · rw [if_neg htier]
          refine issues_changeStored (fun data u changed hread hchange => ?_) .done
          cases hchange
          have hid : IsUtf8 u.id := Go.isUtf8_of_unmarshal hread
          exact ⟨rfl, rfl, named_goUpdate hid⟩
      · rw [if_neg haccepted]
        exact .done
  | pyConfirm unitId tier now remote faults =>
      show (Py.confirm unitId tier now remote faults).Issues _
      unfold Py.confirm
      by_cases htier : tier = .local
      · rw [if_pos htier]
        exact issues_changeStored (fun _ _ _ _ _ => ⟨rfl, rfl, named_pyUpdate _⟩)
          (issues_forward remote fun _ => trivial)
      · rw [if_neg htier]
        exact issues_changeRemote remote fun _ => trivial
  | pyFlag unitId reason tier now remote faults =>
      show (Py.flag unitId reason tier now remote faults).Issues _
      unfold Py.flag
      by_cases htier : tier = .local
      · rw [if_pos htier]
        exact issues_changeStored (fun _ _ _ _ _ => ⟨rfl, rfl, named_pyUpdate _⟩)
          (issues_forward remote fun _ => trivial)
      · rw [if_neg htier]
        exact issues_changeRemote remote fun _ => trivial
  | goPropose | pyPropose => cases hproposes
  | goDrain | pyDrain => cases hdrains

/-- **No call deletes what it has not pushed.** -/
theorem dropsPushed_call (call : Call) (i : Nat) :
    (call.prog : ClientProg F).Always DropsPushed i [] := by
  cases hproposes : call.proposes with
  | some id =>
      refine dropsPushed_of_issues ((issues_propose hproposes).imp fun q hq op mark faults heq => ?_) []
      subst heq
      exact hq.2.1
  | none =>
      by_cases hdrains : call.drains = true
      · cases call with
        | goDrain hasRemote outcomes faults expired =>
            show (Go.drain hasRemote outcomes faults expired).Always _ _ _
            exact dropsPushed_drain (fun _ => rfl) _ _ _ _ _
        | pyDrain now hasRemote outcomes faults =>
            show (Py.drain now hasRemote outcomes faults).Always _ _ _
            exact dropsPushed_drain (fun _ => rfl) _ _ _ _ _
        | _ => cases hdrains
      · refine dropsPushed_of_issues
          ((issues_change hproposes (by simpa using hdrains)).imp fun q hq op mark faults heq => ?_) []
        subst heq
        exact hq.2.1

end Calls

/-! ## Nothing is lost -/

section Run

variable {F : Type} [JsonFloats F] [Go.Strings] [Casing]

/-- What the log of a run says of the units: what was pushed has copies, and what was put anywhere
is kept. -/
structure Accounted (w : World Shared (Stmt.Answer (F := F))) : Prop where
  pushed : ∀ e ∈ w.log, ∀ id, e.stmt.pushes e.answer = some id → 0 < w.db.copies id
  kept : ∀ e ∈ w.log, ∀ id, e.stmt.puts e.answer = some id → w.db.Kept id

omit [JsonFloats F] [Go.Strings] [Casing] in
theorem puts_of_pushes {q : Stmt F} {a : q.Answer} {id : Bytes} (h : q.pushes a = some id) :
    q.puts a = some id := by
  cases q with
  | send request outcome =>
      cases request with
      | propose origin body => exact h
      | _ => cases h
  | _ => cases h

/-- What a step takes away was pushed, and what it puts anywhere is there. -/
theorem Accounted.exec {w : World Shared (Stmt.Answer (F := F))} (h : Accounted w) {i : Nat}
    {q : Stmt F} {k : q.Answer → ClientProg F} (hdrops : DropsPushed (w.own i) (.call q k)) :
    Accounted (w.exec i q) := by
  cases q with
  | select id =>
      refine ⟨fun e he => ?_, fun e he => ?_⟩
      · rcases List.mem_cons.mp he with rfl | he
        · exact fun _ hid => by cases hid
        · exact h.pushed e he
      · rcases List.mem_cons.mp he with rfl | he
        · exact fun _ hid => by cases hid
        · exact h.kept e he
  | selectAll =>
      refine ⟨fun e he => ?_, fun e he => ?_⟩
      · rcases List.mem_cons.mp he with rfl | he
        · exact fun _ hid => by cases hid
        · exact h.pushed e he
      · rcases List.mem_cons.mp he with rfl | he
        · exact fun _ hid => by cases hid
        · exact h.kept e he
  | write op mark faults =>
      have hcopies : ∀ id, (w.exec i (.write op mark faults)).db.copies id = w.db.copies id :=
        copies_write op mark faults w.db
      have hheld : ∀ id, (w.exec i (.write op mark faults)).db.Held id ↔ _ :=
        held_write op mark faults w.db
      refine ⟨fun e he id hid => ?_, fun e he id hid => ?_⟩
      · rw [hcopies]
        rcases List.mem_cons.mp he with rfl | he
        · cases hid
        · exact h.pushed e he id hid
      · rw [Shared.Kept, hcopies]
        rcases List.mem_cons.mp he with rfl | he
        · -- it has been inserted
          left
          refine (hheld id).mpr ?_
          cases hanswer : (Stmt.exec (.write op mark faults) w.db).1 with
          | none =>
              rw [if_pos rfl]
              refine .inr ?_
              change Stmt.puts (Stmt.write op mark faults) (Stmt.exec (.write op mark faults) w.db).1 =
                some id at hid
              rw [hanswer] at hid
              exact hid
          | some e =>
              change Stmt.puts (Stmt.write op mark faults) (Stmt.exec (.write op mark faults) w.db).1 =
                some id at hid
              rw [hanswer] at hid
              cases hid
        · by_cases hdeletes : op.deletes = some id
          · -- it has been deleted, and was pushed before
            obtain ⟨e', he', hpushed⟩ := hdrops id hdeletes
            exact .inr (h.pushed e' (World.mem_own.mp he').1 id hpushed)
          · refine (h.kept e he id hid).imp_left fun hold => (hheld id).mpr ?_
            split
            · exact .inl ⟨hold, hdeletes⟩
            · exact hold
  | send request outcome =>
      have hcopies : ∀ id, w.db.copies id ≤ (w.exec i (.send request outcome)).db.copies id :=
        fun id => (Nat.le_add_right _ _).trans_eq (copies_send (F := F) request outcome w.db id).symm
      have hnew : ∀ id, (Stmt.send request outcome : Stmt F).pushes outcome.heard = some id →
          0 < (w.exec i (.send request outcome)).db.copies id := by
        intro id hid
        have hadds := copies_send (F := F) request outcome w.db id
        cases request with
        | propose origin body =>
            obtain ⟨hsuccess, rfl⟩ : outcome.heard = .success ∧ origin = id := by
              simpa [Stmt.pushes] using hid
            rw [Request.adds, if_pos ⟨rfl, heard_success hsuccess⟩] at hadds
            exact hadds ▸ Nat.succ_pos _
        | _ => cases hid
      refine ⟨fun e he id hid => ?_, fun e he id hid => ?_⟩
      · rcases List.mem_cons.mp he with rfl | he
        · exact hnew id hid
        · exact (h.pushed e he id hid).trans_le (hcopies id)
      · rcases List.mem_cons.mp he with rfl | he
        · refine .inr (hnew id ?_)
          cases request with
          | propose origin body => exact hid
          | _ => cases hid
        · have hheld : (w.exec i (.send request outcome)).db.Held id ↔ w.db.Held id :=
            held_send (F := F) request outcome w.db id
          exact (h.kept e he id hid).imp hheld.mpr fun hpos => hpos.trans_le (hcopies id)

variable [Floats F]

theorem accounted_run (calls : List Call) (schedule : List Nat) :
    Accounted ((clients calls : Config Shared (Stmt.Answer (F := F)) ClientAnswer).run schedule).world
    := by
  have hstart : Accounted (clients calls :
      Config Shared (Stmt.Answer (F := F)) ClientAnswer).world :=
    ⟨fun e he => absurd he List.not_mem_nil, fun e he => absurd he List.not_mem_nil⟩
  refine Config.run_guarded (T := fun _ => DropsPushed)
    (fun c i q k h _ hdrops _ => h.exec hdrops) hstart ?_ (Config.meets_true _ schedule)
  intro i p hp
  rw [clients, Config.start, List.getElem?_map, Option.map_eq_some_iff] at hp
  obtain ⟨call, -, rfl⟩ := hp
  exact dropsPushed_call call i

/-- Every unit whose proposal has been returned is in the local store or at the remote. -/
def ReturnedKept (calls : List Call) (c : Config Shared (Stmt.Answer (F := F)) ClientAnswer) : Prop :=
  ∀ i call id fallback, calls[i]? = some call → call.proposes = some id →
    c.Answered i (.returned fallback) → c.world.db.Kept id

/-- A proposal that has been returned was put somewhere. -/
theorem put_of_returned {calls : List Call} {schedule : List Nat} {i : Nat} {call : Call} {id : Bytes}
    {fallback : Bool} (hcall : calls[i]? = some call) (hproposes : call.proposes = some id)
    (hanswered : ((clients calls : Config Shared (Stmt.Answer (F := F)) ClientAnswer).run
      schedule).Answered i (.returned fallback)) :
    ∃ e ∈ ((clients calls : Config Shared (Stmt.Answer (F := F)) ClientAnswer).run
      schedule).world.log, e.stmt.puts e.answer = some id := by
  have hp : (clients calls : Config Shared (Stmt.Answer (F := F)) ClientAnswer).tasks[i]? =
      some call.prog := by
    rw [clients, Config.start, List.getElem?_map, hcall]
    rfl
  obtain ⟨p, hp', halways⟩ := Config.run_always hp (returned_propose hproposes i) schedule
  rw [Config.answered_iff_result, hp'] at hanswered
  obtain ⟨e, he, hputs⟩ := halways.now fallback hanswered
  exact ⟨e, (World.mem_own.mp he).1, hputs⟩

/-- **No unit is lost.** In every run of clients of both SDKs that propose, confirm, flag and drain
over one local store and one remote, whatever becomes of their requests and wherever faults strike
their writes, a unit whose proposal was returned is from then on in the local store or at the
remote. -/
theorem nothing_lost (calls : List Call) (schedule : List Nat) :
    ReturnedKept calls
      ((clients calls : Config Shared (Stmt.Answer (F := F)) ClientAnswer).run schedule) := by
  intro i call id fallback hcall hproposes hanswered
  obtain ⟨e, he, hputs⟩ := put_of_returned hcall hproposes hanswered
  exact (accounted_run calls schedule).kept e he id hputs

end Run

end EighthLayer.Sdk
