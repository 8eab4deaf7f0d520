import EighthLayer.Knowledge.Store
import EighthLayer.Lib.Interleave

/-!
# EighthLayer.Knowledge.Trust

Confirmations and flags of one knowledge unit, many at a time.

A request reads the stored unit, changes the copy it has read and writes the whole copy
back. What another request has written in between is lost. The results are about the runs
in which no write falls between the read of a request and its write (`NoStaleWrite`), and
a run in which one does.
-/

namespace EighthLayer.Knowledge

open Lib

variable {F : Type}

/-! ## The requests -/

/-- What a unit's trust consists of. -/
structure Trust (F : Type) where
  confidence : F
  confirmations : Int
  flags : List Flag

/-- The trust in a unit. -/
def KnowledgeUnit.trust (u : KnowledgeUnit F) : Trust F :=
  ⟨u.evidence.confidence, u.evidence.confirmations, u.flags⟩

/-- A request about a unit, with the time at which it is served. -/
inductive TrustRequest where
  | confirm (now : String)
  | flag (reason : FlagReason) (now : String)
deriving DecidableEq

/-- Whether a request is a confirmation. -/
def TrustRequest.isConfirm : TrustRequest → Bool
  | confirm _ => true
  | flag _ _ => false

/-- Whether a request is a flag. -/
def TrustRequest.isFlag (r : TrustRequest) : Bool := !r.isConfirm

/-- The statements: `store.get`, and the transaction of `store.update`. -/
inductive TrustStmt (F : Type) where
  | get (unitId : String)
  | update (unit : KnowledgeUnit F)

/-- What a statement answers: the unit read; whether the unit was written. -/
@[reducible] def TrustStmt.Answer : TrustStmt F → Type
  | get _ => Option (KnowledgeUnit F)
  | update _ => Bool

def TrustStmt.exec [Casing] : (q : TrustStmt F) → Store F → q.Answer × Store F
  | get unitId, s => (s.get unitId, s)
  | update unit, s =>
      match s.update unit with
      | some s' => (true, s')
      | none => (false, s)

instance [Casing] : Database (Store F) (TrustStmt.Answer (F := F)) := ⟨TrustStmt.exec⟩

/-- The response to a request: the unit as changed, 404, or 500. -/
inductive TrustResponse (F : Type) where
  | ok (unit : KnowledgeUnit F)
  | notFound
  | serverError

/-- The second half of a request: the changed copy is written. -/
def writeBack (changed : KnowledgeUnit F) :
    Prog (TrustStmt.Answer (F := F)) (TrustResponse F) :=
  .call (.update changed) fun (written : Bool) =>
    if written then .done (.ok changed) else .done .serverError

section Requests

variable [Floats F]

/-- What a request makes of the unit it has read; `none` when it raises. -/
def TrustRequest.change : TrustRequest → KnowledgeUnit F → Option (KnowledgeUnit F)
  | confirm now, u => some (applyConfirmation u now)
  | flag reason now, u => applyFlag u reason now

/-- `confirm_unit` and `flag_unit`: they differ in the change alone. -/
def TrustRequest.prog (r : TrustRequest) (unitId : String) :
    Prog (TrustStmt.Answer (F := F)) (TrustResponse F) :=
  .call (.get unitId) fun (read : Option (KnowledgeUnit F)) =>
    match read with
    | none => .done .notFound
    | some unit =>
        match r.change unit with
        | none => .done .serverError
        | some changed => writeBack changed

/-! ## What a request does to the trust in a unit -/

/-- The effect of a request on a confidence. -/
def TrustRequest.adjust : TrustRequest → F → F
  | confirm _, c => boost c
  | flag _ _, c => penalize c

/-- The flag that a request raises. -/
def TrustRequest.raised : TrustRequest → List Flag
  | confirm _ => []
  | flag reason now => (Flag.ofReason reason now).toList

/-- The effect of a request on the trust in a unit. -/
def TrustRequest.effect (r : TrustRequest) (t : Trust F) : Trust F :=
  ⟨r.adjust t.confidence, t.confirmations + (if r.isConfirm then 1 else 0), t.flags ++ r.raised⟩

theorem TrustRequest.change_trust {r : TrustRequest} {u u' : KnowledgeUnit F}
    (h : r.change u = some u') : u'.trust = r.effect u.trust ∧ u'.id = u.id := by
  cases r with
  | confirm now =>
      cases h
      simp [KnowledgeUnit.trust, TrustRequest.effect, TrustRequest.adjust, TrustRequest.isConfirm,
        TrustRequest.raised, applyConfirmation]
  | flag reason now =>
      obtain ⟨flag, hflag, rfl⟩ := applyFlag_eq_some_iff.mp h
      simp [KnowledgeUnit.trust, TrustRequest.effect, TrustRequest.adjust, TrustRequest.isConfirm,
        TrustRequest.raised, hflag]

/-- A flag that does not raise adds one flag. -/
theorem TrustRequest.raised_length {r : TrustRequest} {u u' : KnowledgeUnit F}
    (h : r.change u = some u') : r.raised.length = if r.isFlag then 1 else 0 := by
  cases r with
  | confirm now => rfl
  | flag reason now =>
      obtain ⟨flag, hflag, -⟩ := applyFlag_eq_some_iff.mp h
      simp [TrustRequest.raised, TrustRequest.isFlag, TrustRequest.isConfirm, hflag]

/-- The requests of a list, one after the other, on a trust. -/
theorem foldl_effect (rs : List TrustRequest) (t : Trust F) :
    rs.foldl (fun t r => r.effect t) t =
      ⟨rs.foldl (fun c r => r.adjust c) t.confidence,
        t.confirmations + rs.countP TrustRequest.isConfirm, t.flags ++ rs.flatMap TrustRequest.raised⟩ := by
  induction rs generalizing t with
  | nil => simp
  | cons r rs ih =>
      rw [List.foldl_cons, ih]
      simp only [TrustRequest.effect, List.foldl_cons, List.countP_cons, List.flatMap_cons,
        List.append_assoc, Trust.mk.injEq, true_and, and_true]
      split <;> omega

omit [Floats F] in
/-- Requests each of which raises a flag if it is a flag raise as many as there are. -/
theorem flatMap_raised_length {rs : List TrustRequest}
    (h : ∀ r ∈ rs, r.raised.length = if r.isFlag then 1 else 0) :
    (rs.flatMap TrustRequest.raised).length = rs.countP TrustRequest.isFlag := by
  induction rs with
  | nil => rfl
  | cons r rs ih =>
      rw [List.flatMap_cons, List.length_append, h r List.mem_cons_self,
        ih fun r hr => h r (List.mem_cons_of_mem _ hr), List.countP_cons]
      omega

/-! ## The stored unit -/

variable [Casing]

omit [Floats F] in
/-- A unit that was written is the one that is read, but for the normal form of its
domains. -/
theorem get_update {s s' : Store F} {old u : KnowledgeUnit F} (hget : s.get u.id = some old)
    (h : s.update u = some s') : s'.get u.id = some { u with domains := normalizeDomains u.domains } := by
  obtain ⟨r, hr, hstatus, -⟩ := Store.get_eq_some_iff.mp hget
  unfold Store.update at h
  dsimp only at h
  split at h
  · cases h
  · have hfind := Store.replaceUnit_find_self h hr
    exact Store.get_eq_some_iff.mpr ⟨_, hfind, hstatus, rfl⟩

omit [Floats F] [Casing] in
theorem get_id {s : Store F} {unitId : String} {u : KnowledgeUnit F} (h : s.get unitId = some u) :
    u.id = unitId := by
  obtain ⟨r, hr, -, rfl⟩ := Store.get_eq_some_iff.mp h
  exact (Table.find_eq_some_iff.mp hr).2

/-! ## Runs -/

/-- Requests about one unit, on a store. -/
def trustPool (s : Store F) (unitId : String) (requests : List TrustRequest) :
    Config (Store F) (TrustStmt.Answer (F := F)) (TrustResponse F) :=
  .start s (requests.map fun r => r.prog unitId)

/-- Whether an answered statement has written a unit. -/
def TrustStmt.writes : (q : TrustStmt F) → q.Answer → Bool
  | get _, _ => false
  | update _, written => written

/-- The statement about to be executed, if it writes a unit back, was preceded by no write
since its request read the unit. -/
def NoStaleWrite (c : Config (Store F) (TrustStmt.Answer (F := F)) (TrustResponse F)) (i : Nat) :
    Prop :=
  ∀ unit k, c.tasks[i]? = some (.call (.update unit) k) →
    ∀ e ∈ c.world.log.takeWhile fun e => e.task ≠ i, TrustStmt.writes e.stmt e.answer = false

/-- Request `i` has read `u`; if nothing was written since, it is what is stored. -/
def ReadSince (w : World (Store F) (TrustStmt.Answer (F := F))) (unitId : String) (i : Nat)
    (u : KnowledgeUnit F) : Prop :=
  ∃ since e before, w.log = since ++ e :: before ∧ e.task = i ∧ (∀ x ∈ since, x.task ≠ i) ∧
    ((∀ x ∈ since, TrustStmt.writes x.stmt x.answer = false) → w.db.get unitId = some u)

section Runs

variable {c : Config (Store F) (TrustStmt.Answer (F := F)) (TrustResponse F)} {unitId : String}
  {requests : List TrustRequest}

/-- How far a request has come. -/
def TrustRequest.Stage (r : TrustRequest)
    (c : Config (Store F) (TrustStmt.Answer (F := F)) (TrustResponse F)) (unitId : String)
    (i : Nat) : Prop :=
  c.tasks[i]? = some (r.prog unitId) ∨
  (∃ u u', u.id = unitId ∧ r.change u = some u' ∧ c.tasks[i]? = some (writeBack u') ∧
    ReadSince c.world unitId i u) ∨
  ∃ a, c.Answered i a

/-- What holds throughout a run: the trust in the stored unit is that at the start, changed
by the requests that have succeeded, in some order. -/
structure TrustInv (start : Trust F) (unitId : String) (requests : List TrustRequest)
    (c : Config (Store F) (TrustStmt.Answer (F := F)) (TrustResponse F)) : Prop where
  length : c.tasks.length = requests.length
  stage : ∀ (i : Nat) (r : TrustRequest), requests[i]? = some r → r.Stage c unitId i
  applied : ∃ order : List Nat, order.Nodup ∧ (∀ i, i ∈ order ↔ ∃ u, c.Answered i (.ok u)) ∧
    (∀ i ∈ order, ∀ r, requests[i]? = some r → r.raised.length = if r.isFlag then 1 else 0) ∧
    ∃ u, c.world.db.get unitId = some u ∧
      u.trust = (order.filterMap (requests[·]?)).foldl (fun t r => r.effect t) start

omit [Floats F] [Casing] in
/-- Another request's statement does not take away what a request knows. -/
theorem ReadSince.other [Casing] {w : World (Store F) (TrustStmt.Answer (F := F))} {i j : Nat}
    {u : KnowledgeUnit F} (h : ReadSince w unitId j u) (hne : i ≠ j) (q : TrustStmt F)
    (hdb : TrustStmt.writes q (q.exec w.db).1 = false → (q.exec w.db).2 = w.db) :
    ReadSince (w.exec i q) unitId j u := by
  obtain ⟨since, e, before, hlog, htask, hothers, hstored⟩ := h
  refine ⟨⟨i, q, (q.exec w.db).1⟩ :: since, e, before, congrArg _ hlog, htask, ?_, ?_⟩
  · intro x hx
    rcases List.mem_cons.mp hx with rfl | hx
    · exact hne
    · exact hothers x hx
  · intro hquiet
    have hsame := hdb (hquiet _ List.mem_cons_self)
    show (q.exec w.db).2.get unitId = some u
    rw [hsame]
    exact hstored fun x hx => hquiet x (List.mem_cons_of_mem _ hx)

omit [Floats F] in
/-- A statement that writes nothing leaves the store as it is. -/
theorem exec_of_not_writes {s : Store F} {q : TrustStmt F}
    (h : TrustStmt.writes q (q.exec s).1 = false) : (q.exec s).2 = s := by
  cases q with
  | get unitId => rfl
  | update unit =>
      simp only [TrustStmt.exec] at h ⊢
      split at h
      · cases h
      · rfl

/-- A step of another request leaves a request at its stage. -/
theorem TrustRequest.Stage.other {r : TrustRequest} {i j : Nat} (h : r.Stage c unitId j)
    (hne : i ≠ j) {q : TrustStmt F} {k : q.Answer → Prog (TrustStmt.Answer (F := F)) (TrustResponse F)}
    (htask : c.tasks[i]? = some (.call q k)) : r.Stage (c.step i) unitId j := by
  unfold TrustRequest.Stage Config.Answered
  rw [c.step_task_of_ne hne]
  rcases h with h | ⟨u, u', hid, hchange, h, hread⟩ | ⟨a, h⟩
  · exact .inl h
  · refine .inr (.inl ⟨u, u', hid, hchange, h, ?_⟩)
    rw [Config.step_call htask]
    exact hread.other hne q exec_of_not_writes
  · exact .inr (.inr ⟨a, h⟩)

/-- The step lemma, when the step leaves the store as it is and its request has not
succeeded after it. -/
theorem TrustInv.quiet {start : Trust F} (h : TrustInv start unitId requests c) {i : Nat}
    {r : TrustRequest} (hr : requests[i]? = some r) {q : TrustStmt F}
    {k : q.Answer → Prog (TrustStmt.Answer (F := F)) (TrustResponse F)}
    (htask : c.tasks[i]? = some (.call q k)) (hdb : (c.step i).world.db = c.world.db)
    (hstage : r.Stage (c.step i) unitId i) (hnot : ∀ v, ¬ (c.step i).Answered i (.ok v)) :
    TrustInv start unitId requests (c.step i) := by
  obtain ⟨order, hnodup, horder, hraised, u, hu, htrust⟩ := h.applied
  have hlength : (c.step i).tasks.length = requests.length := by
    rw [Config.step_length]
    exact h.length
  refine ⟨hlength, fun j r' hr' => ?_, order, hnodup, fun j => ?_, hraised, u, hdb ▸ hu, htrust⟩
  · by_cases hij : i = j
    · subst hij
      rw [hr] at hr'
      cases hr'
      exact hstage
    · exact (h.stage j r' hr').other hij htask
  · rw [horder]
    by_cases hij : i = j
    · subst hij
      refine ⟨?_, fun ⟨v, hv⟩ => absurd hv (hnot v)⟩
      rintro ⟨v, hv⟩
      exact ⟨v, Config.answered_step hv i⟩
    · unfold Config.Answered
      rw [c.step_task_of_ne hij]

/-- The step lemma, when the step reads the unit. -/
theorem TrustInv.read {start : Trust F} (h : TrustInv start unitId requests c) {i : Nat}
    {r : TrustRequest} (hr : requests[i]? = some r) (htask : c.tasks[i]? = some (r.prog unitId)) :
    TrustInv start unitId requests (c.step i) := by
  obtain ⟨-, -, -, -, u, hu, -⟩ := h.applied
  have hlt : i < c.tasks.length := (List.getElem?_eq_some_iff.mp htask).1
  have hstep := Config.step_call htask
  have hdb : (c.step i).world.db = c.world.db := by
    rw [hstep]
    rfl
  -- the request becomes its write, or ends without having succeeded
  have hnext : (∃ u', r.change u = some u' ∧ (c.step i).tasks[i]? = some (writeBack u')) ∨
      (c.step i).Answered i .serverError := by
    have hi : (c.step i).tasks[i]? = some (match r.change u with
        | none => .done .serverError
        | some changed => writeBack changed) := by
      rw [hstep, List.getElem?_set_self hlt]
      show some (match c.world.db.get unitId with
        | none => _
        | some unit => _) = _
      rw [hu]
    cases hchange : r.change u with
    | none =>
        rw [hchange] at hi
        exact .inr hi
    | some u' =>
        rw [hchange] at hi
        exact .inl ⟨u', rfl, hi⟩
  refine h.quiet hr htask hdb ?_ ?_
  · rcases hnext with ⟨u', hchange, hi⟩ | hi
    · have hread : ReadSince (c.step i).world unitId i u := by
        refine ⟨[], ⟨i, .get unitId, c.world.db.get unitId⟩, c.world.log, ?_, rfl,
          fun x hx => absurd hx List.not_mem_nil, fun _ => hdb ▸ hu⟩
        rw [hstep]
        rfl
      exact .inr (.inl ⟨u, u', get_id hu, hchange, hi, hread⟩)
    · exact .inr (.inr ⟨_, hi⟩)
  · intro v hv
    rw [Config.Answered] at hv
    rcases hnext with ⟨u', -, hi⟩ | hi
    · rw [hi] at hv
      cases hv
    · rw [hi] at hv
      cases hv

/-- The step lemma, when the step writes the changed unit: nothing was written since it was
read, so the change is a change of what is stored. -/
theorem TrustInv.write {start : Trust F} (h : TrustInv start unitId requests c) {i : Nat}
    {r : TrustRequest} (hr : requests[i]? = some r) {u u' : KnowledgeUnit F} (hid : u.id = unitId)
    (hchange : r.change u = some u') (htask : c.tasks[i]? = some (writeBack u'))
    (hread : ReadSince c.world unitId i u) (hok : NoStaleWrite c i) :
    TrustInv start unitId requests (c.step i) := by
  obtain ⟨order, hnodup, horder, hraised, stored, hstored, htrust⟩ := h.applied
  obtain ⟨htrust', hid'⟩ := TrustRequest.change_trust hchange
  have hlt : i < c.tasks.length := (List.getElem?_eq_some_iff.mp htask).1
  have hstep := Config.step_call htask
  have hcurrent : c.world.db.get unitId = some u := by
    obtain ⟨since, e, before, hlog, he, hothers, hquiet⟩ := hread
    have hsince : (c.world.log.takeWhile fun e => e.task ≠ i) = since := by
      rw [hlog, List.takeWhile_append_of_pos (by simpa using hothers),
        List.takeWhile_cons_of_neg (by simp [he]), List.append_nil]
    have hfresh := hok u' _ htask
    rw [hsince] at hfresh
    exact hquiet hfresh
  have hnotin : ∀ v, ¬ c.Answered i (.ok v) := by
    intro v hv
    rw [Config.Answered, htask] at hv
    cases hv
  obtain rfl : stored = u := Option.some.inj (hstored.symm.trans hcurrent)
  cases hwrite : c.world.db.update u' with
  | none =>
      -- the write failed: nothing has changed and the request has not succeeded
      have hexec : TrustStmt.exec (.update u') c.world.db = (false, c.world.db) := by
        simp only [TrustStmt.exec, hwrite]
      have hdb : (c.step i).world.db = c.world.db := by
        rw [hstep]
        exact congrArg Prod.snd hexec
      have hi : (c.step i).Answered i .serverError := by
        rw [hstep, Config.Answered, List.getElem?_set_self hlt]
        show some (if (TrustStmt.exec (.update u') c.world.db).1 = true then _ else _) = _
        rw [hexec]
        rfl
      refine h.quiet hr htask hdb (.inr (.inr ⟨_, hi⟩)) ?_
      intro v hv
      rw [Config.Answered, hi] at hv
      cases hv
  | some s' =>
      have hexec : TrustStmt.exec (.update u') c.world.db = (true, s') := by
        simp only [TrustStmt.exec, hwrite]
      have hdb : (c.step i).world.db = s' := by
        rw [hstep]
        exact congrArg Prod.snd hexec
      have hi : (c.step i).Answered i (.ok u') := by
        rw [hstep, Config.Answered, List.getElem?_set_self hlt]
        show some (if (TrustStmt.exec (.update u') c.world.db).1 = true then _ else _) = _
        rw [hexec]
        rfl
      have hunit : u'.id = unitId := hid'.trans hid
      have hnew := get_update (hunit ▸ hcurrent) hwrite
      rw [hunit, ← hdb] at hnew
      have hlength : (c.step i).tasks.length = requests.length := by
        rw [Config.step_length]
        exact h.length
      refine ⟨hlength, fun j r' hr' => ?_, order ++ [i], ?_, fun j => ?_, ?_, _, hnew, ?_⟩
      · by_cases hij : i = j
        · subst hij
          exact .inr (.inr ⟨_, hi⟩)
        · exact (h.stage j r' hr').other hij htask
      · refine List.nodup_append'.mpr ⟨hnodup, List.nodup_singleton i, ?_⟩
        rw [List.disjoint_singleton]
        intro hmem
        obtain ⟨v, hv⟩ := (horder i).mp hmem
        exact hnotin v hv
      · rw [List.mem_append, List.mem_singleton, horder]
        by_cases hij : i = j
        · subst hij
          exact ⟨fun _ => ⟨u', hi⟩, fun _ => .inr rfl⟩
        · unfold Config.Answered
          rw [c.step_task_of_ne hij]
          simp [Ne.symm hij]
      · intro j hj r' hr'
        rcases List.mem_append.mp hj with hj | hj
        · exact hraised j hj r' hr'
        · cases List.mem_singleton.mp hj
          rw [hr] at hr'
          cases hr'
          exact TrustRequest.raised_length hchange
      · -- the same trust, with one more request applied
        show u'.trust = _
        rw [htrust', htrust, List.filterMap_append, List.foldl_append]
        simp [hr]

/-- The step lemma. -/
theorem TrustInv.step {start : Trust F} (h : TrustInv start unitId requests c) (i : Nat)
    (hok : NoStaleWrite c i) : TrustInv start unitId requests (c.step i) := by
  rcases c.step_cases i with heq | ⟨q, k, htask, -⟩
  · rw [heq]
    exact h
  · have hlt : i < requests.length := h.length ▸ (List.getElem?_eq_some_iff.mp htask).1
    have hr : requests[i]? = some requests[i] := List.getElem?_eq_getElem hlt
    rcases h.stage i _ hr with hprog | ⟨u, u', hid, hchange, hwrite, hread⟩ | ⟨a, ha⟩
    · exact h.read hr hprog
    · exact h.write hr hid hchange hwrite hread hok
    · rw [ha] at htask
      cases htask

omit [Casing] in
theorem TrustInv.start {s : Store F} {unit : KnowledgeUnit F} (hunit : s.get unitId = some unit)
    (requests : List TrustRequest) :
    TrustInv unit.trust unitId requests (trustPool s unitId requests) where
  length := List.length_map _
  stage := by
    intro i r hr
    exact .inl (by simp [trustPool, Config.start, hr])
  applied := by
    refine ⟨[], List.nodup_nil, fun i => ?_, by simp, unit, hunit, rfl⟩
    -- nobody has been answered yet
    simp only [List.not_mem_nil, false_iff, not_exists]
    intro u hu
    rw [Config.Answered] at hu
    simp only [trustPool, Config.start, List.getElem?_map, Option.map_eq_some_iff] at hu
    obtain ⟨r, -, hr⟩ := hu
    cases hr

end Runs

/-! ## No lost trust signal -/

omit [Floats F] [Casing] in
/-- The places of a list, in any order, give its elements in some order. -/
theorem filterMap_getElem?_perm {order : List Nat} {α : Type} (l : List α) (hnodup : order.Nodup)
    (h : ∀ i, i ∈ order ↔ i < l.length) : (order.filterMap (l[·]?)).Perm l := by
  have hperm : order.Perm (List.range l.length) := by
    rw [List.perm_ext_iff_of_nodup hnodup List.nodup_range]
    intro i
    rw [h, List.mem_range]
  have hrange : (List.range l.length).filterMap (l[·]?) = l := by
    clear h hperm hnodup
    induction l with
    | nil => rfl
    | cons a l ih =>
        rw [List.length_cons, List.range_succ_eq_map, List.filterMap_cons, List.filterMap_map]
        simpa using ih
  calc order.filterMap (l[·]?)
      |>.Perm ((List.range l.length).filterMap (l[·]?)) := hperm.filterMap _
    _ = l := hrange

/-- **No lost trust signal.** In a run in which no write falls between the read of a request
and its write, and in which all requests succeed, the unit ends with one confirmation more
for each of the confirmations, one flag more for each of the flags, and the confidence that
all of them make of the initial one in some order. -/
theorem no_lost_trust_signal (s : Store F) (unitId : String) (unit : KnowledgeUnit F)
    (requests : List TrustRequest) (schedule : List Nat) (hunit : s.get unitId = some unit)
    (hmeets : (trustPool s unitId requests).Meets NoStaleWrite schedule)
    (hok : ∀ i < requests.length, ∃ u,
      ((trustPool s unitId requests).run schedule).Answered i (.ok u)) :
    ∃ final, ((trustPool s unitId requests).run schedule).world.db.get unitId = some final ∧
      final.evidence.confirmations =
        unit.evidence.confirmations + requests.countP TrustRequest.isConfirm ∧
      (∃ raised, final.flags = unit.flags ++ raised ∧
        raised.length = requests.countP TrustRequest.isFlag) ∧
      ∃ order : List TrustRequest, order.Perm requests ∧
        final.evidence.confidence =
          order.foldl (fun c r => r.adjust c) unit.evidence.confidence := by
  have hinv := Config.run_induction (P := TrustInv unit.trust unitId requests)
    (fun c i h hi => h.step i hi) (TrustInv.start hunit requests) hmeets
  obtain ⟨order, hnodup, horder, hraised, final, hfinal, htrust⟩ := hinv.applied
  have hall : ∀ i, i ∈ order ↔ i < requests.length := by
    intro i
    rw [horder]
    refine ⟨?_, hok i⟩
    rintro ⟨u, hu⟩
    exact hinv.length ▸ (List.getElem?_eq_some_iff.mp hu).1
  have hperm := filterMap_getElem?_perm requests hnodup hall
  rw [foldl_effect] at htrust
  obtain ⟨hconfidence, hconfirmations, hflags⟩ := Trust.mk.injEq .. ▸ htrust
  refine ⟨final, hfinal, ?_, ⟨_, hflags, ?_⟩, _, hperm, hconfidence⟩
  · rw [← hperm.countP_eq]
    exact hconfirmations
  · rw [← hperm.countP_eq]
    refine flatMap_raised_length fun r hr => ?_
    obtain ⟨i, hi, hri⟩ := List.mem_filterMap.mp hr
    exact hraised i hi r hri

end Requests

section Sample

local instance trustCasing : Casing := asciiCasing

/-- A store with one approved unit. -/
def confirmedStore : Store ℚ :=
  .ofRows [{ Store.newRow (sampleUnit "ku_1" "api") "2026-05-01T00:00:00+00:00" "acme" "eng" with
    status := .approved }]

/-- Two confirmations of it. -/
def twoConfirmations : List TrustRequest :=
  [.confirm "2026-06-02T00:00:00+00:00", .confirm "2026-06-02T00:00:01+00:00"]

/-- Whether request `i` has succeeded. -/
def succeeded (c : Config (Store ℚ) (TrustStmt.Answer (F := ℚ)) (TrustResponse ℚ)) (i : Nat) :
    Bool :=
  match c.tasks[i]? with
  | some (.done (.ok _)) => true
  | _ => false

theorem exists_of_succeeded {c : Config (Store ℚ) (TrustStmt.Answer (F := ℚ)) (TrustResponse ℚ)}
    {i : Nat} (h : succeeded c i = true) : ∃ u, c.Answered i (.ok u) := by
  unfold succeeded at h
  split at h
  · rename_i u htask
    exact ⟨u, htask⟩
  · cases h

/-- One after the other, both count. -/
theorem two_confirmations_in_turn :
    ∃ final, ((trustPool confirmedStore "ku_1" twoConfirmations).run
        [0, 0, 1, 1]).world.db.get "ku_1" = some final ∧
      final.evidence.confirmations = 1 + 2 := by
  have hmeets : (trustPool confirmedStore "ku_1" twoConfirmations).Meets
      NoStaleWrite [0, 0, 1, 1] := by
    show NoStaleWrite _ 0 ∧ NoStaleWrite _ 0 ∧ NoStaleWrite _ 1 ∧ NoStaleWrite _ 1 ∧ True
    refine ⟨?_, ?_, ?_, ?_, trivial⟩
    · intro unit k h
      cases h
    · intro unit k h e he
      cases he
    · intro unit k h
      cases h
    · intro unit k h e he
      cases he
  have hboth : succeeded ((trustPool confirmedStore "ku_1" twoConfirmations).run [0, 0, 1, 1]) 0 ∧
      succeeded ((trustPool confirmedStore "ku_1" twoConfirmations).run [0, 0, 1, 1]) 1 := by
    decide +kernel
  obtain ⟨final, hfinal, hconfirmations, -⟩ :=
    no_lost_trust_signal confirmedStore "ku_1" (sampleUnit "ku_1" "api")
      twoConfirmations [0, 0, 1, 1] rfl hmeets (by
        intro i hi
        have htwo : i < 2 := hi
        obtain rfl | rfl : i = 0 ∨ i = 1 := by omega
        · exact exists_of_succeeded hboth.1
        · exact exists_of_succeeded hboth.2)
  have hcount : twoConfirmations.countP TrustRequest.isConfirm = 2 := rfl
  rw [hcount] at hconfirmations
  exact ⟨final, hfinal, hconfirmations⟩

/-- Both have read the unit before either writes it: both succeed, and one is lost. -/
theorem confirmation_lost :
    let after := (trustPool confirmedStore "ku_1" twoConfirmations).run
      [0, 1, 0, 1]
    (∃ u, after.Answered 0 (.ok u)) ∧ (∃ u, after.Answered 1 (.ok u)) ∧
      (after.world.db.get "ku_1").map (fun u => u.evidence.confirmations) = some (1 + 1) := by
  intro after
  have hfirst : ∃ u, after.Answered 0 (.ok u) := ⟨_, rfl⟩
  have hsecond : ∃ u, after.Answered 1 (.ok u) := ⟨_, rfl⟩
  have hunit : (after.world.db.get "ku_1").map (fun u => u.evidence.confirmations) =
      some (1 + 1) := rfl
  exact ⟨hfirst, hsecond, hunit⟩

end Sample

end EighthLayer.Knowledge
