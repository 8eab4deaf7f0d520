import EighthLayer.Sdk.Compat
import EighthLayer.Sdk.Drain

/-!
# EighthLayer.Sdk.Once

Drains that do not overlap keep every unit once.

A drain reads the local units at once and then pushes and deletes them one by one. If no other drain
is under way meanwhile, no reply is lost and no delete fails, each unit that it has still to push is
in the local store and not at the remote; between a push and its delete a unit is at both places,
and at all other times every unit is in one of them, once (`kept_once`). What a client may do to a
unit in its place is no concern here: a proposal does not carry it.
-/

namespace EighthLayer.Sdk

open Lib
open Knowledge (Floats Casing)

/-! ## Conditions -/

/-- What becomes of a request is heard: it is not the reply that is lost. -/
def Outcome.Known (outcome : Outcome) : Prop := outcome.served ≠ none → outcome.heard = .success

/-- No reply to a proposal is lost, and no fault strikes a drain. -/
def Call.Smooth : Call → Prop
  | goPropose _ _ _ remote _ | pyPropose _ _ _ _ _ _ remote _ =>
      ∀ outcome, remote = some outcome → outcome.Known
  | goDrain _ outcomes faults _ | pyDrain _ _ outcomes faults =>
      (∀ n, (outcomes n).Known) ∧ ∀ n m, faults n m = false
  | goConfirm _ _ _ _ _ | goFlag _ _ _ _ _ _ _ _ | pyConfirm _ _ _ _ _ | pyFlag _ _ _ _ _ _ => True

section Conditions

variable {F : Type}

/-- A drain takes a step only while no other drain is under way. -/
def DrainsApart (calls : List Call) (c : Config Shared (Stmt.Answer (F := F)) ClientAnswer)
    (i : Nat) : Prop :=
  ∀ call, calls[i]? = some call → call.drains = true →
    ∀ j call', j ≠ i → calls[j]? = some call' → call'.drains = true →
      c.world.own j = [] ∨ ∃ a, c.Answered j a

end Conditions

/-! ## Drains -/

section Drains

variable {F : Type}

/-- A drain that has still to push these units, in this order. A unit that it has pushed it deletes
next, by a write that no fault strikes. -/
inductive DrainFrom : List Bytes → ClientProg F → Prop
  | done {ids : List Bytes} {a : ClientAnswer} : DrainFrom ids (.done a)
  | push {id : Bytes} {ids : List Bytes} {body : Json} {outcome : Outcome}
      {k : Heard → ClientProg F} {op : LocalOp F} {faults : Nat → Bool}
      {k' : Option LocalError → ClientProg F} (hknown : outcome.Known)
      (hsuccess : k .success = .call (.write op none faults) k') (hdeletes : op.deletes = some id)
      (hfaults : ∀ n, faults n = false) (hnext : ∀ e, DrainFrom ids (k' e))
      (hother : ∀ heard, heard ≠ .success → DrainFrom ids (k heard)) :
      DrainFrom (id :: ids) (.call (.send (.propose id body) outcome) k)

/-- The ids of the local ones among some units. -/
def Drainer.localIds {U : Type} (D : Drainer F U) (units : List U) : List Bytes :=
  (units.filter D.isLocal).map D.unitId

theorem drainFrom_loop {U : Type} {D : Drainer F U}
    (hdelete : ∀ u, (D.delete u).deletes = some (D.unitId u)) {outcomes : Nat → Outcome}
    {faults : Nat → Nat → Bool} (hknown : ∀ n, (outcomes n).Known)
    (hfaults : ∀ n m, faults n m = false) (expired : Nat → Bool) (units : List U) (n pushed : Nat)
    (warnings : List Bytes) :
    DrainFrom (D.localIds units) (D.loop outcomes faults expired n units pushed warnings) := by
  induction units generalizing n pushed warnings with
  | nil => exact .done
  | cons unit units ih =>
      unfold Drainer.loop
      by_cases hexpired : expired n = true
      · rw [if_pos hexpired]
        exact .done
      rw [if_neg hexpired]
      by_cases hlocal : D.isLocal unit = true
      · rw [if_pos hlocal, Drainer.localIds, List.filter_cons_of_pos hlocal, List.map_cons]
        refine .push (hknown n) rfl (hdelete unit) (hfaults n) (fun e => ?_) fun heard hheard => ?_
        · cases e with
          | none => exact ih _ _ _
          | some e =>
              by_cases hgoes : D.goesOn = true
              · simp only [if_pos hgoes]
                exact ih _ _ _
              · simp only [if_neg hgoes]
                exact .done
        · cases heard with
          | success => exact absurd rfl hheard
          | nothing => exact ih _ _ _
          | status status => exact ih _ _ _
      · rw [if_neg hlocal, Drainer.localIds, List.filter_cons_of_neg hlocal]
        exact ih _ _ _

/-- A drain that has not begun: it reads the local units, and then pushes those of them that are
local, in their order. -/
inductive DrainStart : ClientProg F → Prop
  | done {a : ClientAnswer} : DrainStart (.done a)
  | read {k : List Json → ClientProg F}
      (h : ∀ ds : List Document, ∃ ids, ids.Sublist (ds.map fun d => utf8 d.id) ∧
        DrainFrom ids (k (ds.map Document.json))) :
      DrainStart (.call .selectAll k)

/-- What is read of documents has their ids. -/
theorem ids_of_mapM {U : Type} {unitId : U → Bytes} {read : Json → Option U}
    (hread : ∀ (d : Document) u, read d.json = some u → unitId u = utf8 d.id) {ds : List Document}
    {units : List U} (h : (ds.map Document.json).mapM read = some units) :
    units.map unitId = ds.map fun d => utf8 d.id := by
  induction ds generalizing units with
  | nil =>
      cases h
      rfl
  | cons d ds ih =>
      rw [List.map_cons, List.mapM_cons] at h
      obtain ⟨u, hu, h⟩ := Option.bind_eq_some_iff.mp h
      obtain ⟨us, hus, h⟩ := Option.bind_eq_some_iff.mp h
      cases h
      rw [List.map_cons, List.map_cons, hread d u hu, ih hus]

theorem drainStart_drain {U : Type} {D : Drainer F U}
    (hdelete : ∀ u, (D.delete u).deletes = some (D.unitId u)) {read : Json → Option U}
    (hread : ∀ (d : Document) u, read d.json = some u → D.unitId u = utf8 d.id) (hasRemote : Bool)
    {outcomes : Nat → Outcome} {faults : Nat → Nat → Bool} (hknown : ∀ n, (outcomes n).Known)
    (hfaults : ∀ n m, faults n m = false) (expired : Nat → Bool) :
    DrainStart (D.drain read hasRemote outcomes faults expired) := by
  unfold Drainer.drain
  by_cases hremote : hasRemote = true
  · rw [if_pos hremote]
    refine .read fun ds => ?_
    cases hunits : (ds.map Document.json).mapM read with
    | none => exact ⟨[], List.nil_sublist _, .done⟩
    | some units =>
        refine ⟨D.localIds units, ?_, drainFrom_loop hdelete hknown hfaults expired units 0 0 []⟩
        rw [← ids_of_mapM hread hunits]
        exact List.filter_sublist.map _
  · rw [if_neg hremote]
    exact .done

/-! ### The two drains -/

variable [JsonFloats F]

theorem Go.id_of_read [Floats F] {d : Document} {ku : Go.KnowledgeUnit F}
    (h : Go.KnowledgeUnit.unmarshal d.json = some ku) : ku.id = utf8 d.id := by
  rw [Go.KnowledgeUnit.unmarshal_json] at h
  obtain ⟨version, -, h⟩ := Option.bind_eq_some_iff.mp h
  obtain ⟨evidence, -, h⟩ := Option.bind_eq_some_iff.mp h
  obtain ⟨flags, -, h⟩ := Option.bind_eq_some_iff.mp h
  cases h
  rfl

theorem Py.id_of_read [Floats F] {now : Py.Datetime} {d : Document} {unit : Py.KnowledgeUnit F}
    (h : Py.KnowledgeUnit.modelValidateJson now d.json = some unit) : unit.id = d.id := by
  rw [Py.KnowledgeUnit.modelValidateJson_json] at h
  obtain ⟨domains, -, h⟩ := Option.bind_eq_some_iff.mp h
  obtain ⟨context, -, h⟩ := Option.bind_eq_some_iff.mp h
  obtain ⟨evidence, -, h⟩ := Option.bind_eq_some_iff.mp h
  obtain ⟨tier, -, h⟩ := Option.bind_eq_some_iff.mp h
  obtain ⟨flags, -, h⟩ := Option.bind_eq_some_iff.mp h
  obtain ⟨-, h⟩ := Option.ite_none_right_eq_some.mp h
  cases h
  rfl

theorem drainStart_call [Floats F] {call : Call} (hdrains : call.drains = true)
    (hsmooth : call.Smooth) : DrainStart (call.prog : ClientProg F) := by
  cases call with
  | goDrain hasRemote outcomes faults expired =>
      exact drainStart_drain (D := Go.drainer) (fun _ => rfl) (fun _ _ => Go.id_of_read) hasRemote
        hsmooth.1 hsmooth.2 expired
  | pyDrain now hasRemote outcomes faults =>
      refine drainStart_drain (D := Py.drainer) (fun _ => rfl) (fun d unit h => ?_) hasRemote
        hsmooth.1 hsmooth.2 _
      exact congrArg utf8 (Py.id_of_read h)
  | _ => cases hdrains

end Drains

/-! ## Where a call stands -/

section Stages

variable {F : Type} [JsonFloats F] [Go.Strings] [Casing]

/-- A proposal that has not put its unit anywhere yet. -/
inductive ProposeFrom (id : Bytes) : ClientProg F → Prop
  | done {a : ClientAnswer} : ProposeFrom id (.done a)
  | insert {op : LocalOp F} {faults : Nat → Bool} {k : Option LocalError → ClientProg F}
      (hinserts : op.inserts = some id) (hdeletes : op.deletes = none) (hnamed : op.Named)
      (hend : ∀ e, ∃ a, k e = .done a) : ProposeFrom id (.call (.write op none faults) k)
  | send {body : Json} {outcome : Outcome} {k : Heard → ClientProg F} (hknown : outcome.Known)
      (hsuccess : ∃ a, k .success = .done a)
      (hother : ∀ heard, heard ≠ .success → ProposeFrom id (k heard)) :
      ProposeFrom id (.call (.send (.propose id body) outcome) k)

theorem proposeFrom_proposeOrInsert {id : Bytes} {insert : LocalOp F}
    (hinserts : insert.inserts = some id) (hdeletes : insert.deletes = none) (hnamed : insert.Named)
    (body : Json) (fallsBack : Nat → Bool) {remote : Option Outcome}
    (hknown : ∀ outcome, remote = some outcome → outcome.Known) (faults : Nat → Bool) :
    ProposeFrom id (proposeOrInsert id body insert fallsBack remote faults) := by
  have hinsert : ∀ fallback, ProposeFrom id (insertUnit insert faults fallback) := by
    intro fallback
    refine .insert hinserts hdeletes hnamed fun e => ?_
    cases e with
    | none => exact ⟨_, rfl⟩
    | some e => exact ⟨_, rfl⟩
  cases remote with
  | none => exact hinsert false
  | some outcome =>
      refine .send (hknown outcome rfl) ⟨_, rfl⟩ fun heard hheard => ?_
      cases heard with
      | success => exact absurd rfl hheard
      | nothing => exact hinsert true
      | status status =>
          by_cases hfalls : fallsBack status = true
          · simp only [if_pos hfalls]
            exact hinsert true
          · simp only [if_neg hfalls]
            exact .done

theorem proposeFrom_call [Floats F] {call : Call} {id : Bytes} (h : call.proposes = some id)
    (hsmooth : call.Smooth) : ProposeFrom id (call.prog : ClientProg F) := by
  cases call with
  | goPropose params uuid now remote faults =>
      cases h
      refine proposeFrom_proposeOrInsert rfl rfl (named_goInsert ?_) _ _ hsmooth _
      show IsUtf8 (Go.generateId uuid)
      rw [generateId_eq]
      exact isUtf8_utf8 _
  | pyPropose domains insight context createdBy uuid now remote faults =>
      cases h
      show ProposeFrom _ (Py.propose domains insight context createdBy uuid now remote faults)
      unfold Py.propose Py.createKnowledgeUnit
      by_cases hdomains : domains = []
      · rw [if_pos hdomains]
        exact .done
      · rw [if_neg hdomains, generateId_eq]
        exact proposeFrom_proposeOrInsert rfl rfl (named_pyInsert _) _ _ hsmooth _
  | _ => cases h

/-- How far a call has come, and what that says of the two places. -/
inductive Stage (call : Call) (s : Shared) : ClientProg F → Prop
  | ended {a : ClientAnswer} : Stage call s (.done a)
  | changing {p : ClientProg F} (h : p.Issues Stmt.Changes) : Stage call s p
  | proposing {id : Bytes} {p : ClientProg F} (hproposes : call.proposes = some id)
      (h : ProposeFrom id p) (hheld : ¬ s.Held id) (hcopies : s.copies id = 0) : Stage call s p
  | starting {p : ClientProg F} (hdrains : call.drains = true) (h : DrainStart p) : Stage call s p
  /-- What it has still to push is in the local store alone. -/
  | draining {ids : List Bytes} {p : ClientProg F} (hdrains : call.drains = true)
      (h : DrainFrom ids p) (hnodup : ids.Nodup)
      (hwait : ∀ id ∈ ids, s.Held id ∧ s.copies id = 0) : Stage call s p
  /-- It has pushed a unit and deletes it next. -/
  | deleting {id : Bytes} {ids : List Bytes} {op : LocalOp F} {faults : Nat → Bool}
      {k : Option LocalError → ClientProg F} (hdrains : call.drains = true)
      (hdeletes : op.deletes = some id) (hfaults : ∀ n, faults n = false) (hheld : s.Held id)
      (hnext : ∀ e, DrainFrom ids (k e)) (hnodup : (id :: ids).Nodup)
      (hwait : ∀ id' ∈ ids, s.Held id' ∧ s.copies id' = 0) :
      Stage call s (.call (.write op none faults) k)

/-- What a step of a call does to the two places. -/
inductive Effect (call : Call) (s s' : Shared) (p p' : ClientProg F) : Prop
  | none (hheld : ∀ id, s'.Held id ↔ s.Held id) (hcopies : ∀ id, s'.copies id = s.copies id)
      (hdrops : dropsNext p = none)
  | proposed {id : Bytes} (hproposes : call.proposes = some id) (hheld : ¬ s.Held id)
      (hcopies : s.copies id = 0) (hheld' : ∀ id', id' ≠ id → (s'.Held id' ↔ s.Held id'))
      (hcopies' : ∀ id', id' ≠ id → s'.copies id' = s.copies id')
      (honce : s'.copies id = 0 ∨ s'.copies id = 1 ∧ ¬ s'.Held id) (hdrops : dropsNext p = none)
  | pushed {id : Bytes} (hdrains : call.drains = true) (hheld : s.Held id)
      (hcopies : s.copies id = 0) (hheld' : ∀ id', s'.Held id' ↔ s.Held id')
      (hcopies' : ∀ id', s'.copies id' = s.copies id' + if id = id' then 1 else 0)
      (hdrops : dropsNext p = none) (hnext : dropsNext p' = some id)
  | deleted {id : Bytes} (hdrains : call.drains = true) (hheld : s.Held id)
      (hheld' : ∀ id', s'.Held id' ↔ s.Held id' ∧ id' ≠ id)
      (hcopies' : ∀ id', s'.copies id' = s.copies id') (hdrops : dropsNext p = some id)

/-! ### Steps -/

/-- A delete that no fault strikes finds the unit that is there. -/
theorem delete_succeeds {op : LocalOp F} {faults : Nat → Bool} {id : Bytes} {db : LocalDb}
    (hdeletes : op.deletes = some id) (hfaults : ∀ n, faults n = false)
    (hheld : ∃ r ∈ db.units, r.id = id) : (LocalStep.exec ⟨op, faults⟩ db).1 = none := by
  have hstatements : op.statements = some (deleteStatements id) := by
    cases op with
    | goDelete unitId =>
        cases hdeletes
        rfl
    | pyDelete unitId =>
        cases hdeletes
        rfl
    | _ => cases hdeletes
  obtain ⟨r, hr, hid⟩ := hheld
  have hfind : db.units.find id = some r := Table.find_eq_some_iff.mpr ⟨hr, hid⟩
  unfold LocalStep.exec
  simp only [hstatements, transact, deleteStatements, runStatements, hfaults, LocalDb.deleteFts,
    LocalDb.deleteUnit, hfind, Bool.false_eq_true, if_false]

omit [JsonFloats F] [Go.Strings] [Casing] in
theorem inserts_none_of_deletes {op : LocalOp F} {id : Bytes} (h : op.deletes = some id) :
    op.inserts = none := by
  cases op with
  | goDelete => rfl
  | pyDelete => rfl
  | _ => cases h

theorem named_of_deletes {op : LocalOp F} {id : Bytes} (h : op.deletes = some id) : op.Named := by
  cases op with
  | goDelete => exact fun r hr => hr.elim
  | pyDelete => exact fun r hr => hr.elim
  | _ => cases h

/-- A write of an operation that writes named rows. -/
theorem named_write {op : LocalOp F} (hop : op.Named) (mark : Option Mark) (faults : Nat → Bool)
    {s : Shared} (h : ∀ r ∈ s.store.units, RowNamed r) :
    ∀ r ∈ (Stmt.exec (.write op mark faults) s).2.store.units, RowNamed r := by
  simp only [Stmt.exec]
  rcases write_cases op faults s.store with ⟨e, heq⟩ | ⟨db', heq, hafter⟩
  · simp only [heq]
    exact h
  · simp only [heq]
    exact fun r hr => (hafter.rows r hr).elim (h r) (hop r)

theorem named_send (request : Request) (outcome : Outcome) {s : Shared}
    (h : ∀ r ∈ s.store.units, RowNamed r) :
    ∀ r ∈ (Stmt.exec (.send request outcome : Stmt F) s).2.store.units, RowNamed r := by
  simp only [Stmt.exec]
  cases outcome.served with
  | none => exact h
  | some serverId => exact h

omit [JsonFloats F] [Go.Strings] [Casing] in
/-- A request that is not served is not heard of as a success. -/
theorem heard_ne_success {outcome : Outcome} (h : outcome.served = none) :
    outcome.heard ≠ .success := fun hsuccess => heard_success hsuccess h

omit [JsonFloats F] [Go.Strings] [Casing] in
/-- The documents of named rows. -/
theorem documents_of_rows {rows : List UnitRow} (h : ∀ r ∈ rows, RowNamed r) :
    ∃ ds : List Document, rows.map UnitRow.data = ds.map Document.json ∧
      ds.map (fun d => utf8 d.id) = rows.map UnitRow.id := by
  induction rows with
  | nil => exact ⟨[], rfl, rfl⟩
  | cons r rows ih =>
      obtain ⟨ds, hdata, hids⟩ := ih fun r' hr' => h r' (List.mem_cons_of_mem _ hr')
      obtain ⟨d, hd, hid⟩ := h r List.mem_cons_self
      exact ⟨d :: ds, by rw [List.map_cons, List.map_cons, hd, hdata],
        by rw [List.map_cons, List.map_cons, hid, hids]⟩

/-- What a step leads to. -/
structure Stepped (call : Call) (s s' : Shared) (p p' : ClientProg F) : Prop where
  stage : Stage call s' p'
  effect : Effect call s s' p p'
  named : ∀ r ∈ s'.store.units, RowNamed r

variable {call : Call} {s : Shared}

/-- A statement that changes a unit in its place changes neither place. -/
theorem stepped_changes {q : Stmt F} {k : q.Answer → ClientProg F} (hq : q.Changes)
    (hrest : ∀ a, (k a).Issues Stmt.Changes) (hnamed : ∀ r ∈ s.store.units, RowNamed r) :
    Stepped call s (q.exec s).2 (.call q k) (k (q.exec s).1) := by
  refine ⟨.changing (hrest _), ?_, ?_⟩
  · cases q with
    | select id => exact .none (fun _ => Iff.rfl) (fun _ => rfl) rfl
    | selectAll => exact hq.elim
    | write op mark faults =>
        obtain ⟨hinserts, hdeletes, -⟩ := hq
        refine .none (fun id => ?_) (copies_write op mark faults s) hdeletes
        rw [held_write, hinserts, hdeletes]
        simp
    | send request outcome =>
        refine .none (held_send request outcome s) (fun id => ?_) rfl
        rw [copies_send]
        cases request with
        | propose origin body => exact hq.elim
        | _ => rfl
  · cases q with
    | select id => exact hnamed
    | selectAll => exact hq.elim
    | write op mark faults => exact named_write hq.2.2 mark faults hnamed
    | send request outcome => exact named_send request outcome hnamed

/-- A proposal puts its unit in one place, or nowhere. -/
theorem stepped_proposing {id : Bytes} {q : Stmt F} {k : q.Answer → ClientProg F}
    (hproposes : call.proposes = some id) (h : ProposeFrom id (.call q k)) (hheld : ¬ s.Held id)
    (hcopies : s.copies id = 0) (hnamed : ∀ r ∈ s.store.units, RowNamed r) :
    Stepped call s (q.exec s).2 (.call q k) (k (q.exec s).1) := by
  cases h with
  | @insert op faults k hinserts hdeletes hop hend =>
      obtain ⟨a, ha⟩ := hend (Stmt.exec (.write op none faults) s).1
      refine ⟨?_, ?_, named_write hop none faults hnamed⟩
      · rw [ha]
        exact .ended
      · refine .proposed hproposes hheld hcopies (fun id' hne => ?_)
          (fun id' _ => copies_write op none faults s id') (.inl ?_) hdeletes
        · rw [held_write, hinserts, hdeletes]
          simp [Ne.symm hne]
        · rw [copies_write]
          exact hcopies
  | @send body outcome k hknown hsuccess hother =>
      have hothers : ∀ id', id' ≠ id →
          (Stmt.exec (.send (.propose id body) outcome : Stmt F) s).2.copies id' = s.copies id' := by
        intro id' hne
        rw [copies_send, Request.adds, if_neg fun hand => hne hand.1.symm]
        rfl
      cases hserved : outcome.served with
      | none =>
          have hheard := heard_ne_success hserved
          have hzero : (Stmt.exec (.send (.propose id body) outcome : Stmt F) s).2.copies id = 0 := by
            rw [copies_send, Request.adds, if_neg fun hand => hand.2 hserved]
            exact hcopies
          refine ⟨.proposing hproposes (hother _ hheard) ?_ hzero, ?_, named_send _ outcome hnamed⟩
          · rw [held_send]
            exact hheld
          · exact .proposed hproposes hheld hcopies (fun id' _ => held_send _ outcome s id') hothers
              (.inl hzero) rfl
      | some serverId =>
          have hsome : outcome.served ≠ none := by simp [hserved]
          have hheard : outcome.heard = .success := hknown hsome
          have hone : (Stmt.exec (.send (.propose id body) outcome : Stmt F) s).2.copies id = 1 := by
            rw [copies_send, Request.adds, if_pos ⟨rfl, hsome⟩, hcopies]
          obtain ⟨a, ha⟩ := hsuccess
          refine ⟨?_, ?_, named_send _ outcome hnamed⟩
          · change Stage call _ (k outcome.heard)
            rw [hheard, ha]
            exact .ended
          · refine .proposed hproposes hheld hcopies (fun id' _ => held_send _ outcome s id') hothers
              (.inr ⟨hone, ?_⟩) rfl
            rw [held_send]
            exact hheld

/-- A drain that begins reads what is in the local store alone. -/
theorem stepped_starting {q : Stmt F} {k : q.Answer → ClientProg F} (hdrains : call.drains = true)
    (h : DrainStart (.call q k)) (hnamed : ∀ r ∈ s.store.units, RowNamed r)
    (hquiet : q = .selectAll → ∀ id, s.Held id → s.copies id = 0) :
    Stepped call s (q.exec s).2 (.call q k) (k (q.exec s).1) := by
  cases h with
  | read hread =>
      obtain ⟨ds, hdata, hids⟩ := documents_of_rows hnamed
      obtain ⟨ids, hsublist, hfrom⟩ := hread ds
      rw [← hdata] at hfrom
      rw [hids] at hsublist
      refine ⟨.draining hdrains hfrom (s.store.units.nodup.sublist hsublist) fun id hid => ?_,
        .none (fun _ => Iff.rfl) (fun _ => rfl) rfl, hnamed⟩
      obtain ⟨r, hr, rfl⟩ := List.mem_map.mp (hsublist.subset hid)
      have hheld : s.Held r.id := ⟨r, hr, rfl⟩
      exact ⟨hheld, hquiet rfl _ hheld⟩

/-- A drain pushes the next unit. -/
theorem stepped_draining {ids : List Bytes} {q : Stmt F} {k : q.Answer → ClientProg F}
    (hdrains : call.drains = true) (h : DrainFrom ids (.call q k)) (hnodup : ids.Nodup)
    (hwait : ∀ id ∈ ids, s.Held id ∧ s.copies id = 0)
    (hnamed : ∀ r ∈ s.store.units, RowNamed r) :
    Stepped call s (q.exec s).2 (.call q k) (k (q.exec s).1) := by
  cases h with
  | @push id ids body outcome k op faults k' hknown hsuccess hdeletes hfaults hnext hother =>
      obtain ⟨hheld, hcopies⟩ := hwait id List.mem_cons_self
      have hrest : ∀ id' ∈ ids, id' ≠ id := by
        rintro id' hid' rfl
        exact (List.nodup_cons.mp hnodup).1 hid'
      have hadds : ∀ id', (Stmt.exec (.send (.propose id body) outcome : Stmt F) s).2.copies id' =
          s.copies id' + if id = id' ∧ outcome.served ≠ none then 1 else 0 :=
        copies_send (.propose id body) outcome s
      have hwait' : ∀ id' ∈ ids,
          (Stmt.exec (.send (.propose id body) outcome : Stmt F) s).2.Held id' ∧
            (Stmt.exec (.send (.propose id body) outcome : Stmt F) s).2.copies id' = 0 := by
        intro id' hid'
        obtain ⟨hheld', hcopies'⟩ := hwait id' (List.mem_cons_of_mem _ hid')
        refine ⟨(held_send _ outcome s id').mpr hheld', ?_⟩
        rw [hadds, if_neg fun hand => hrest id' hid' hand.1.symm]
        exact hcopies'
      cases hserved : outcome.served with
      | none =>
          refine ⟨.draining hdrains (hother _ (heard_ne_success hserved))
            (List.nodup_cons.mp hnodup).2 hwait', ?_, named_send _ outcome hnamed⟩
          refine .none (held_send _ outcome s) (fun id' => ?_) rfl
          rw [hadds, if_neg fun hand => hand.2 hserved]
          rfl
      | some serverId =>
          have hsome : outcome.served ≠ none := by simp [hserved]
          have hheard : outcome.heard = .success := hknown hsome
          have hk : k (Stmt.exec (.send (.propose id body) outcome : Stmt F) s).1 =
              .call (.write op none faults) k' := by
            change k outcome.heard = _
            rw [hheard, hsuccess]
          refine ⟨?_, ?_, named_send _ outcome hnamed⟩
          · rw [hk]
            exact .deleting hdrains hdeletes hfaults ((held_send _ outcome s id).mpr hheld) hnext
              hnodup hwait'
          · rw [hk]
            refine .pushed hdrains hheld hcopies (held_send _ outcome s) (fun id' => ?_) rfl hdeletes
            rw [hadds]
            simp [hsome]

/-- A drain deletes the unit that it has pushed. -/
theorem stepped_deleting {id : Bytes} {ids : List Bytes} {op : LocalOp F} {faults : Nat → Bool}
    {k : Option LocalError → ClientProg F} (hdrains : call.drains = true)
    (hdeletes : op.deletes = some id) (hfaults : ∀ n, faults n = false) (hheld : s.Held id)
    (hnext : ∀ e, DrainFrom ids (k e)) (hnodup : (id :: ids).Nodup)
    (hwait : ∀ id' ∈ ids, s.Held id' ∧ s.copies id' = 0)
    (hnamed : ∀ r ∈ s.store.units, RowNamed r) :
    Stepped call s (Stmt.exec (.write op none faults) s).2 (.call (.write op none faults) k)
      (k (Stmt.exec (.write op none faults) s).1) := by
  have hnone : (Stmt.exec (.write op none faults) s).1 = none :=
    delete_succeeds hdeletes hfaults hheld
  have hheld' : ∀ id', (Stmt.exec (.write op none faults) s).2.Held id' ↔ s.Held id' ∧ id' ≠ id := by
    intro id'
    rw [held_write, if_pos hnone, inserts_none_of_deletes hdeletes, hdeletes]
    simp [eq_comm]
  refine ⟨.draining hdrains (hnext _) (List.nodup_cons.mp hnodup).2 fun id' hid' => ?_,
    .deleted hdrains hheld hheld' (copies_write op none faults s) hdeletes,
    named_write (named_of_deletes hdeletes) none faults hnamed⟩
  obtain ⟨hold, hcopies⟩ := hwait id' hid'
  refine ⟨(hheld' id').mpr ⟨hold, ?_⟩, hcopies⟩
  rintro rfl
  exact (List.nodup_cons.mp hnodup).1 hid'

/-- **The step lemma.** Wherever a call stands, its next step leads on. -/
theorem Stage.step {q : Stmt F} {k : q.Answer → ClientProg F} (h : Stage call s (.call q k))
    (hnamed : ∀ r ∈ s.store.units, RowNamed r)
    (hquiet : call.drains = true → q = .selectAll → ∀ id, s.Held id → s.copies id = 0) :
    Stepped call s (q.exec s).2 (.call q k) (k (q.exec s).1) := by
  cases h with
  | changing h =>
      cases h with
      | call hq hrest => exact stepped_changes hq hrest hnamed
  | proposing hproposes h hheld hcopies => exact stepped_proposing hproposes h hheld hcopies hnamed
  | starting hdrains h => exact stepped_starting hdrains h hnamed (hquiet hdrains)
  | draining hdrains h hnodup hwait => exact stepped_draining hdrains h hnodup hwait hnamed
  | deleting hdrains hdeletes hfaults hheld hnext hnodup hwait =>
      exact stepped_deleting hdrains hdeletes hfaults hheld hnext hnodup hwait hnamed

/-! ### The other calls -/

omit [JsonFloats F] [Go.Strings] [Casing] in
/-- A copy is there only after a push. -/
theorem waits_of_same {s s' : Shared} {ids : List Bytes}
    (hheld : ∀ id ∈ ids, s.Held id → s'.Held id) (hcopies : ∀ id ∈ ids, s'.copies id = s.copies id)
    (h : ∀ id ∈ ids, s.Held id ∧ s.copies id = 0) : ∀ id ∈ ids, s'.Held id ∧ s'.copies id = 0 :=
  fun id hid => ⟨hheld id hid (h id hid).1, (hcopies id hid).trans (h id hid).2⟩

/-- Where both places are the same for what a call is about, it stands where it stood. -/
theorem Stage.of_same {call : Call} {s s' : Shared} {p : ClientProg F} (h : Stage call s p)
    (hown : ∀ id, call.proposes = some id → ¬ s.Held id → s.copies id = 0 →
      (s'.Held id ↔ s.Held id) ∧ s'.copies id = s.copies id)
    (hlocal : ∀ id, call.drains = true → s.Held id →
      (s'.Held id ↔ s.Held id) ∧ s'.copies id = s.copies id) : Stage call s' p := by
  cases h with
  | ended => exact .ended
  | changing h => exact .changing h
  | proposing hproposes h hheld hcopies =>
      obtain ⟨hheld', hcopies'⟩ := hown _ hproposes hheld hcopies
      exact .proposing hproposes h (mt hheld'.mp hheld) (hcopies'.trans hcopies)
  | starting hdrains h => exact .starting hdrains h
  | draining hdrains h hnodup hwait =>
      exact .draining hdrains h hnodup (waits_of_same
        (fun id hid hheld => (hlocal id hdrains hheld).1.mpr hheld)
        (fun id hid => (hlocal id hdrains (hwait id hid).1).2) hwait)
  | deleting hdrains hdeletes hfaults hheld hnext hnodup hwait =>
      exact .deleting hdrains hdeletes hfaults ((hlocal _ hdrains hheld).1.mpr hheld) hnext hnodup
        (waits_of_same (fun id hid hheld => (hlocal id hdrains hheld).1.mpr hheld)
          (fun id hid => (hlocal id hdrains (hwait id hid).1).2) hwait)

/-- What a step of one call means for another, which proposes another unit and is no drain under way
if that one is a drain. -/
theorem Stage.other {call call' : Call} {s s' : Shared} {p p' p₀ : ClientProg F}
    (h : Stage call' s p₀) (heffect : Effect call s s' p p')
    (hids : ∀ id, call.proposes = some id → call'.proposes ≠ some id)
    (hapart : call.drains = true → call'.drains = true → ∀ s' : Shared, Stage call' s' p₀) :
    Stage call' s' p₀ := by
  cases heffect with
  | none hheld hcopies hdrops =>
      exact h.of_same (fun id _ _ _ => ⟨hheld id, hcopies id⟩) fun id _ _ => ⟨hheld id, hcopies id⟩
  | @proposed id hproposes hfree hzero hheld' hcopies' honce hdrops =>
      refine h.of_same (fun id' hproposes' _ _ => ?_) fun id' _ hheld => ?_
      · have hne : id' ≠ id := by
          rintro rfl
          exact hids _ hproposes hproposes'
        exact ⟨hheld' id' hne, hcopies' id' hne⟩
      · have hne : id' ≠ id := by
          rintro rfl
          exact hfree hheld
        exact ⟨hheld' id' hne, hcopies' id' hne⟩
  | pushed hdrains hheld hcopies hheld' hcopies' hdrops hnext =>
      by_cases hdrains' : call'.drains = true
      · exact hapart hdrains hdrains' s'
      refine h.of_same (fun id' _ hfree _ => ⟨hheld' id', ?_⟩) fun id' hdrains'' => absurd hdrains'' hdrains'
      rw [hcopies', if_neg]
      · rfl
      · rintro rfl
        exact hfree hheld
  | deleted hdrains hheld hheld' hcopies' hdrops =>
      by_cases hdrains' : call'.drains = true
      · exact hapart hdrains hdrains' s'
      refine h.of_same (fun id' _ hfree _ => ⟨?_, hcopies' id'⟩) fun id' hdrains'' => absurd hdrains'' hdrains'
      rw [hheld']
      exact ⟨fun hand => hand.1, fun hold => absurd hold hfree⟩

end Stages

/-! ## Runs -/

section Runs

variable {F : Type} [JsonFloats F] [Go.Strings] [Casing] [Floats F]

/-- No unit is at the remote twice, and one that is in both places is about to be deleted. -/
structure OnceOrLeaving (c : Config Shared (Stmt.Answer (F := F)) ClientAnswer) : Prop where
  copies : ∀ id, c.world.db.copies id ≤ 1
  leaving : ∀ id, c.world.db.Held id → c.world.db.copies id ≠ 0 →
    ∃ (i : Nat) (p : ClientProg F), c.tasks[i]? = some p ∧ dropsNext p = some id

/-- **The invariant.** Every call stands somewhere, and no unit is kept twice but by a drain between
a push and its delete. -/
structure Orderly (calls : List Call) (c : Config Shared (Stmt.Answer (F := F)) ClientAnswer) :
    Prop where
  named : ∀ r ∈ c.world.db.store.units, RowNamed r
  stages : ∀ (i : Nat) (p : ClientProg F), c.tasks[i]? = some p →
    ∃ call, calls[i]? = some call ∧ Stage call c.world.db p
  begun : ∀ (i : Nat) (call : Call), calls[i]? = some call → c.world.own i = [] → c.tasks[i]? = some call.prog
  once : OnceOrLeaving c

/-- Each call that proposes a unit draws an id of its own. -/
def OwnIds (calls : List Call) : Prop :=
  ∀ (i j : Nat) (call call' : Call) (id : Bytes), calls[i]? = some call → calls[j]? = some call' → call.proposes = some id →
    call'.proposes = some id → i = j

omit [JsonFloats F] [Go.Strings] [Casing] [Floats F] in
/-- A drain that has not begun deletes nothing next. -/
theorem dropsNext_start {p : ClientProg F} (h : DrainStart p) : dropsNext p = none := by
  cases h with
  | done => rfl
  | read h => rfl

/-- Another drain, while this one takes a step, stands anywhere. -/
theorem idle_stage {calls : List Call} (hsmooth : ∀ call ∈ calls, call.Smooth)
    {c : Config Shared (Stmt.Answer (F := F)) ClientAnswer} (h : Orderly calls c) {i j : Nat}
    {call call' : Call} (hcall : calls[i]? = some call) (hcall' : calls[j]? = some call')
    (hne : j ≠ i) (hapart : DrainsApart calls c i) {p : ClientProg F} (hp : c.tasks[j]? = some p)
    (hdrains : call.drains = true) (hdrains' : call'.drains = true) :
    dropsNext p = none ∧ ∀ s' : Shared, Stage call' s' p := by
  rcases hapart call hcall hdrains j call' hne hcall' hdrains' with hnil | ⟨a, ha⟩
  · have hstart := h.begun j call' hcall' hnil
    rw [hp] at hstart
    cases hstart
    have hstart := drainStart_call (F := F) hdrains' (hsmooth call' (List.mem_of_getElem? hcall'))
    exact ⟨dropsNext_start hstart, fun _ => .starting hdrains' hstart⟩
  · rw [Config.Answered, hp] at ha
    cases ha
    exact ⟨rfl, fun _ => .ended⟩

omit [Floats F] in
/-- What deletes a unit next is a drain. -/
theorem drains_of_dropsNext {call : Call} {s : Shared} {p : ClientProg F} (h : Stage call s p)
    {id : Bytes} (hdrops : dropsNext p = some id) : call.drains = true := by
  cases h with
  | ended => cases hdrops
  | changing h =>
      cases h with
      | done => cases hdrops
      | @call q k hq hrest =>
          cases q with
          | write op mark faults =>
              have hnone : op.deletes = none := hq.2.1
              change op.deletes = some id at hdrops
              rw [hnone] at hdrops
              cases hdrops
          | _ => cases hdrops
  | proposing hproposes h =>
      cases h with
      | done => cases hdrops
      | @insert op faults k hinserts hdeletes =>
          change op.deletes = some id at hdrops
          rw [hdeletes] at hdrops
          cases hdrops
      | send => cases hdrops
  | starting hdrains => exact hdrains
  | draining hdrains => exact hdrains
  | deleting hdrains => exact hdrains

omit [Floats F] in
/-- What a step does to the two places keeps every unit once. -/
theorem OnceOrLeaving.step {c : Config Shared (Stmt.Answer (F := F)) ClientAnswer}
    (h : OnceOrLeaving c) {call : Call} {i : Nat} {q : Stmt F} {k : q.Answer → ClientProg F}
    (htask : c.tasks[i]? = some (.call q k))
    (heffect : Effect call c.world.db (q.exec c.world.db).2 (.call q k) (k (q.exec c.world.db).1)) :
    OnceOrLeaving (⟨c.world.exec i q, c.tasks.set i (k (q.exec c.world.db).1)⟩ :
      Config Shared (Stmt.Answer (F := F)) ClientAnswer) := by
  have hlt := (List.getElem?_eq_some_iff.mp htask).1
  -- what another call is about to delete it still is
  have hothers : ∀ id, dropsNext (.call q k) ≠ some id →
      (∃ (j : Nat) (p : ClientProg F), c.tasks[j]? = some p ∧ dropsNext p = some id) →
        ∃ (j : Nat) (p : ClientProg F), (c.tasks.set i (k (q.exec c.world.db).1))[j]? = some p ∧
          dropsNext p = some id := by
    rintro id hne ⟨j, p, hp, hdrops⟩
    have hij : i ≠ j := by
      rintro rfl
      rw [htask] at hp
      cases hp
      exact hne hdrops
    exact ⟨j, p, by rwa [List.getElem?_set_ne hij], hdrops⟩
  generalize hs' : (q.exec c.world.db).2 = s' at heffect
  have hdb : (c.world.exec i q).db = s' := hs'
  refine ⟨fun id => ?_, fun id hheld hcopies => ?_⟩
  · show (c.world.exec i q).db.copies id ≤ 1
    rw [hdb]
    cases heffect with
    | none hheld hcopies hdrops =>
        rw [hcopies]
        exact h.copies id
    | @proposed id₀ hproposes hfree hzero hheld' hcopies' honce hdrops =>
        by_cases hid : id = id₀
        · subst hid
          rcases honce with hzero' | ⟨hone, -⟩
          · omega
          · omega
        · rw [hcopies' id hid]
          exact h.copies id
    | @pushed id₀ hdrains hheld hcopies hheld' hcopies' hdrops hnext =>
        rw [hcopies']
        by_cases hid : id₀ = id
        · subst hid
          simp [hcopies]
        · simpa [hid] using h.copies id
    | deleted hdrains hheld hheld' hcopies' hdrops =>
        rw [hcopies']
        exact h.copies id
  · change (c.world.exec i q).db.Held id at hheld
    change (c.world.exec i q).db.copies id ≠ 0 at hcopies
    rw [hdb] at hheld hcopies
    cases heffect with
    | none hheld' hcopies' hdrops =>
        rw [hcopies'] at hcopies
        exact hothers id (by simp [hdrops]) (h.leaving id ((hheld' id).mp hheld) hcopies)
    | @proposed id₀ hproposes hfree hzero hheld' hcopies' honce hdrops =>
        by_cases hid : id = id₀
        · subst hid
          rcases honce with hzero' | ⟨-, hfree'⟩
          · exact absurd hzero' hcopies
          · exact absurd hheld hfree'
        · rw [hcopies' id hid] at hcopies
          exact hothers id (by simp [hdrops]) (h.leaving id ((hheld' id hid).mp hheld) hcopies)
    | @pushed id₀ hdrains hheld₀ hzero hheld' hcopies' hdrops hnext =>
        by_cases hid : id₀ = id
        · subst hid
          exact ⟨i, _, List.getElem?_set_self hlt, hnext⟩
        · rw [hcopies', if_neg hid] at hcopies
          exact hothers id (by simp [hdrops]) (h.leaving id ((hheld' id).mp hheld) hcopies)
    | @deleted id₀ hdrains hheld₀ hheld' hcopies' hdrops =>
        obtain ⟨hold, hne⟩ := (hheld' id).mp hheld
        rw [hcopies'] at hcopies
        refine hothers id ?_ (h.leaving id hold hcopies)
        rw [hdrops]
        exact fun heq => hne (Option.some.inj heq).symm

/-- One step, taken while no other drain is under way. -/
theorem Orderly.step {calls : List Call} (hids : OwnIds calls)
    (hsmooth : ∀ call ∈ calls, call.Smooth)
    {c : Config Shared (Stmt.Answer (F := F)) ClientAnswer} (h : Orderly calls c) {i : Nat}
    (hapart : DrainsApart calls c i) : Orderly calls (c.step i) := by
  rcases c.step_cases i with heq | ⟨q, k, htask, heq⟩
  · rw [heq]
    exact h
  obtain ⟨call, hcall, hstage⟩ := h.stages i _ htask
  have hlt := (List.getElem?_eq_some_iff.mp htask).1
  have hquiet : call.drains = true → q = .selectAll → ∀ id, c.world.db.Held id →
      c.world.db.copies id = 0 := by
    intro hdrains hq id hheld
    by_contra hcopies
    obtain ⟨j, p, hp, hdrops⟩ := h.once.leaving id hheld hcopies
    by_cases hij : j = i
    · subst hij
      rw [htask] at hp
      cases hp
      subst hq
      cases hdrops
    · obtain ⟨call', hcall', hstage'⟩ := h.stages j p hp
      have hidle := (idle_stage hsmooth h hcall hcall' hij hapart hp hdrains
        (drains_of_dropsNext hstage' hdrops)).1
      rw [hidle] at hdrops
      cases hdrops
  obtain ⟨hstage', heffect, hnamed⟩ := hstage.step h.named hquiet
  rw [heq]
  refine ⟨hnamed, fun j p hp => ?_, fun j call' hcall' hnil => ?_, ?_⟩
  · by_cases hij : i = j
    · subst hij
      rw [List.getElem?_set_self hlt] at hp
      cases hp
      exact ⟨call, hcall, hstage'⟩
    · rw [List.getElem?_set_ne hij] at hp
      obtain ⟨call', hcall', hother⟩ := h.stages j p hp
      refine ⟨call', hcall', hother.other heffect (fun id hid hid' => ?_) fun hdrains hdrains' => ?_⟩
      · exact hij (hids i j call call' id hcall hcall' hid hid')
      · exact (idle_stage hsmooth h hcall hcall' (Ne.symm hij) hapart hp hdrains hdrains').2
  · by_cases hij : i = j
    · subst hij
      rw [World.own_exec_self] at hnil
      cases hnil
    · rw [World.own_exec_of_ne _ hij] at hnil
      rw [List.getElem?_set_ne hij]
      exact h.begun j call' hcall' hnil
  · exact h.once.step htask heffect

/-- The calls before any of them has begun. -/
theorem orderly_start {calls : List Call} (hsmooth : ∀ call ∈ calls, call.Smooth) :
    Orderly calls (clients calls : Config Shared (Stmt.Answer (F := F)) ClientAnswer) where
  named := fun r hr => absurd hr (Table.not_mem_empty r)
  stages := by
    intro i p hp
    rw [clients, Config.start, List.getElem?_map, Option.map_eq_some_iff] at hp
    obtain ⟨call, hcall, rfl⟩ := hp
    refine ⟨call, hcall, ?_⟩
    have hcalm := hsmooth call (List.mem_of_getElem? hcall)
    cases hproposes : call.proposes with
    | some id =>
        refine .proposing hproposes (proposeFrom_call hproposes hcalm) ?_ rfl
        rintro ⟨r, hr, -⟩
        exact Table.not_mem_empty r hr
    | none =>
        by_cases hdrains : call.drains = true
        · exact .starting hdrains (drainStart_call hdrains hcalm)
        · exact .changing (issues_change hproposes (by simpa using hdrains))
  begun := by
    intro i call hcall _
    rw [clients, Config.start, List.getElem?_map, hcall]
    rfl
  once := ⟨fun _ => Nat.zero_le 1, fun _ _ hcopies => absurd rfl hcopies⟩

/-- Every unit whose proposal has been returned is in one place, once, if no drain is about to
delete it. -/
def KeptOnce (calls : List Call) (c : Config Shared (Stmt.Answer (F := F)) ClientAnswer) : Prop :=
  ∀ (i : Nat) (call : Call) (id : Bytes) (fallback : Bool), calls[i]? = some call →
    call.proposes = some id → c.Answered i (.returned fallback) →
      (∀ p ∈ c.tasks, dropsNext p ≠ some id) →
        (c.world.db.Held id ∧ c.world.db.copies id = 0) ∨
          (¬ c.world.db.Held id ∧ c.world.db.copies id = 1)

/-- **Every unit is kept once.** In every run in which drains do not overlap, no reply to a proposal
is lost and no fault strikes a drain, each unit whose proposal was returned is in the local store or
at the remote and not in both, and there once, but for the moment between the push of a drain and
its delete. -/
theorem kept_once {calls : List Call} (hids : OwnIds calls) (hsmooth : ∀ call ∈ calls, call.Smooth)
    {schedule : List Nat}
    (hapart : (clients calls : Config Shared (Stmt.Answer (F := F)) ClientAnswer).Meets
      (DrainsApart calls) schedule) :
    KeptOnce calls
      ((clients calls : Config Shared (Stmt.Answer (F := F)) ClientAnswer).run schedule) := by
  have horderly := Config.run_induction (fun c i h hok => h.step hids hsmooth hok)
    (orderly_start hsmooth) hapart
  intro i call id fallback hcall hproposes hanswered hquiet
  obtain ⟨e, he, hputs⟩ := put_of_returned hcall hproposes hanswered
  have hcopies := horderly.once.copies id
  rcases (accounted_run calls schedule).kept e he id hputs with hheld | hpos
  · refine .inl ⟨hheld, ?_⟩
    by_contra hne
    obtain ⟨j, p, hp, hdrops⟩ := horderly.once.leaving id hheld hne
    exact hquiet p (List.mem_of_getElem? hp) hdrops
  · refine .inr ⟨fun hheld => ?_, by omega⟩
    obtain ⟨j, p, hp, hdrops⟩ := horderly.once.leaving id hheld (by omega)
    exact hquiet p (List.mem_of_getElem? hp) hdrops

end Runs

/-! ### A proposal and a drain -/

section Sample

local instance onceStrings : Go.Strings := Go.asciiStrings

local instance onceCasing : Casing := Knowledge.asciiCasing

/-- A proposal that does not reach the remote, and a drain that does. -/
def proposeAndDrain : List Call :=
  [.goPropose sampleParams sampleUuid sampleTime.val (some .unreachable) fun _ => false,
    .goDrain true (fun _ => .accepted [0x31]) (fun _ _ => false) fun _ => false]

theorem proposeAndDrain_ownIds : OwnIds proposeAndDrain := by
  have hpropose : ∀ (i : Nat) (call : Call) (id : Bytes), proposeAndDrain[i]? = some call →
      call.proposes = some id → i = 0 := by
    intro i call id hcall hproposes
    cases i with
    | zero => rfl
    | succ i =>
        cases i with
        | zero =>
            cases hcall
            cases hproposes
        | succ i => cases hcall
  intro i j call call' id hcall hcall' hproposes hproposes'
  rw [hpropose i call id hcall hproposes, hpropose j call' id hcall' hproposes']

theorem proposeAndDrain_smooth : ∀ call ∈ proposeAndDrain, call.Smooth := by
  intro call hcall
  simp only [proposeAndDrain, List.mem_cons, List.not_mem_nil, or_false] at hcall
  rcases hcall with rfl | rfl
  · intro outcome houtcome
    cases houtcome
    exact fun hserved => absurd rfl hserved
  · exact ⟨fun _ _ => rfl, fun _ _ => rfl⟩

/-- There is one drain. -/
theorem proposeAndDrain_apart
    (c : Config Shared (Stmt.Answer (F := Decimal)) ClientAnswer) (i : Nat) :
    DrainsApart proposeAndDrain c i := by
  have hdrain : ∀ (i : Nat) (call : Call), proposeAndDrain[i]? = some call →
      call.drains = true → i = 1 := by
    intro i call hcall hdrains
    cases i with
    | zero =>
        cases hcall
        cases hdrains
    | succ i =>
        cases i with
        | zero => rfl
        | succ i => cases hcall
  intro call hcall hdrains j call' hne hcall' hdrains'
  exact absurd ((hdrain j call' hcall' hdrains').trans (hdrain i call hcall hdrains).symm) hne

theorem kept_once_sample :
    KeptOnce proposeAndDrain ((clients proposeAndDrain :
      Config Shared (Stmt.Answer (F := Decimal)) ClientAnswer).run [0, 0, 1, 1, 1]) :=
  kept_once proposeAndDrain_ownIds proposeAndDrain_smooth
    ((Config.meets_true _ _).imp fun c i _ => proposeAndDrain_apart c i)

end Sample

end EighthLayer.Sdk
