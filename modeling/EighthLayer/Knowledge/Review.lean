import EighthLayer.Knowledge.Store
import EighthLayer.Lib.Interleave

/-!
# EighthLayer.Knowledge.Review

The review of knowledge units, run by several workers at once: a unit is submitted for
review, an admin decides on it, a sweep drops what nobody decided in time.

A decision is guarded: its `UPDATE` reaches a row only while the row is undecided. The
second `UPDATE` of a submission and the `UPDATE` of the sweep carry no such guard. They
rely on what was read or written a statement earlier, and another worker may decide in
between. The results of this module are about the runs in which that does not happen
(`OnUndecided`), and a run in which it does.
-/

namespace EighthLayer.Knowledge

open Lib

/-- What an admin decides. -/
inductive Decision where
  | approve
  | reject
  | drop
deriving DecidableEq

/-- The status a decision sets. -/
def Decision.status : Decision → Status
  | approve => .approved
  | reject => .rejected
  | drop => .dropped

theorem Decision.status_terminal (d : Decision) : d.status.terminal = true := by
  cases d <;> rfl

/-- What the review has recorded on a row. -/
structure Verdict where
  status : Status
  reviewedBy : Option String
  reviewedAt : Option String
deriving DecidableEq

variable {F : Type}

/-- The verdict that a decision records. -/
def Decision.verdict (d : Decision) (reviewedBy reviewedAt : String) : Verdict :=
  ⟨d.status, some reviewedBy, some reviewedAt⟩

/-- The verdict that a sweep records. -/
def sweepVerdict (reviewedAt : String) : Verdict :=
  ⟨.dropped, some "ttl_expired_sweeper", some reviewedAt⟩

/-- The verdict on a row. -/
def Row.verdict (r : Row F) : Verdict := ⟨r.status, r.reviewedBy, r.reviewedAt⟩

/-- A row with a verdict recorded on it. -/
def Row.record (r : Row F) (v : Verdict) : Row F :=
  { r with status := v.status, reviewedBy := v.reviewedBy, reviewedAt := v.reviewedAt }

@[simp] theorem Row.record_verdict (r : Row F) (v : Verdict) : (r.record v).verdict = v := rfl

theorem Row.record_unit (r : Row F) (v : Verdict) : (r.record v).unit = r.unit := rfl

@[simp] theorem Row.record_status (r : Row F) (v : Verdict) : (r.record v).status = v.status := rfl

/-- Whether a row lies in the tenancy that a decision is scoped to. A group without an
Enterprise is no scope. -/
def Row.inScope (r : Row F) : Option String → Option String → Bool
  | some e, some g => r.enterpriseId = e && r.groupId = g
  | some e, none => r.enterpriseId = e
  | none, _ => true

/-! ## The statements -/

/-- The statements of the three operations. `decide` is the `UPDATE` of a decision with the
`SELECT` that follows it: the `UPDATE` takes the write lock of its transaction, so the
`SELECT` sees the table that the `UPDATE` saw. -/
inductive ReviewStmt (F : Type) where
  /-- `_insert_sync`, one transaction. -/
  | insertUnit (unit : KnowledgeUnit F) (hd : unit.domains.Nodup)
      (createdAt enterpriseId groupId : String)
  /-- The second transaction of `_submit_pending_review_sync`. -/
  | markPendingReview (unitId reason expiresAt : String)
  /-- `_set_review_status_sync`. -/
  | decide (unitId : String) (decision : Decision) (reviewedBy reviewedAt : String)
      (enterpriseId groupId : Option String)
  /-- The `SELECT` of `_expire_pending_reviews_sync`. -/
  | selectExpired (enterpriseId nowIso : String)
  /-- Its `UPDATE`. -/
  | dropExpired (reviewedAt : String) (ids : List String)

/-- What a statement answers: whether the row was inserted; whether the caller won, or no
such unit; the ids selected. -/
@[reducible] def ReviewStmt.Answer : ReviewStmt F → Type
  | insertUnit _ _ _ _ _ => Bool
  | decide _ _ _ _ _ _ => Option Bool
  | selectExpired _ _ => List String
  | markPendingReview _ _ _ | dropExpired _ _ => Unit

/-- The rows a sweep selects. -/
def Row.expired (r : Row F) (enterpriseId nowIso : String) : Bool :=
  r.status = .pendingReview && r.enterpriseId = enterpriseId &&
    r.pendingReviewExpiresAt.any fun e => e < nowIso

def ReviewStmt.exec : (q : ReviewStmt F) → Store F → q.Answer × Store F
  | insertUnit unit hd createdAt enterpriseId groupId, s =>
      match s.insertRow (Store.newRow unit createdAt enterpriseId groupId) hd with
      | some s' => (true, s')
      | none => (false, s)
  | markPendingReview unitId reason expiresAt, s =>
      ((), s.updateColumns (fun r => r.id = unitId)
        (fun r => { r with
          status := .pendingReview
          pendingReviewReason := some reason
          pendingReviewExpiresAt := some expiresAt })
        fun _ => rfl)
  | decide unitId decision reviewedBy reviewedAt enterpriseId groupId, s =>
      match s.units.find unitId with
      | none => (none, s)
      | some r =>
          if r.inScope enterpriseId groupId then
            if r.status.terminal then (some false, s)
            else (some true, s.updateColumns (fun r => r.id = unitId)
              (fun r => r.record (decision.verdict reviewedBy reviewedAt))
              fun r => r.record_unit _)
          else (none, s)
  | selectExpired enterpriseId nowIso, s =>
      (((s.units.rows.filter fun r => r.expired enterpriseId nowIso).map Row.id), s)
  | dropExpired reviewedAt ids, s =>
      ((), s.updateColumns (fun r => r.id ∈ ids) (fun r => r.record (sweepVerdict reviewedAt))
        fun r => r.record_unit _)

instance : Database (Store F) (ReviewStmt.Answer (F := F)) := ⟨ReviewStmt.exec⟩

/-- The programs of the review. -/
abbrev ReviewProg (F α : Type) : Type := Prog (ReviewStmt.Answer (F := F)) α

/-- The worlds of the review. -/
abbrev ReviewWorld (F : Type) : Type := World (Store F) (ReviewStmt.Answer (F := F))

/-! ## The operations -/

/-- What an operation reports. -/
inductive ReviewOutcome where
  | submitted
  /-- `ValueError`: no domain is left after normalization. -/
  | noDomains
  /-- `IntegrityError`: a unit with this id is there. -/
  | duplicateId
  /-- `True` for the caller who won, `False` for one who came late. -/
  | decided (won : Bool)
  /-- `KeyError`: no such unit in the scope. -/
  | unknownUnit
  /-- The ids that were dropped. -/
  | swept (ids : List String)
deriving DecidableEq

/-- `submit_pending_review`: `createdAt` is when the unit was first observed, or now. -/
def submitPendingReview [Casing] (unit : KnowledgeUnit F)
    (reason expiresAt enterpriseId groupId createdAt : String) :
    ReviewProg F ReviewOutcome :=
  let domains := normalizeDomains unit.domains
  if domains = [] then .done .noDomains
  else
    .call (.insertUnit { unit with domains } (nodup_normalized unit) createdAt enterpriseId groupId)
        fun (inserted : Bool) =>
      if inserted then
        .call (.markPendingReview unit.id reason expiresAt) fun _ => .done .submitted
      else .done .duplicateId

/-- `set_review_status`. -/
def setReviewStatus (unitId : String) (decision : Decision) (reviewedBy reviewedAt : String)
    (enterpriseId groupId : Option String) : ReviewProg F ReviewOutcome :=
  .call (.decide unitId decision reviewedBy reviewedAt enterpriseId groupId) fun
    (answer : Option Bool) =>
      match answer with
      | some won => .done (.decided won)
      | none => .done .unknownUnit

/-- `expire_pending_reviews`. -/
def expirePendingReviews (enterpriseId nowIso reviewedAt : String) :
    ReviewProg F ReviewOutcome :=
  .call (.selectExpired enterpriseId nowIso) fun (ids : List String) =>
    if ids = [] then .done (.swept [])
    else
      .call (.dropExpired reviewedAt ids) fun _ => .done (.swept ids)

/-- A call of one of the operations. -/
inductive ReviewCall (F : Type) where
  | submit (unit : KnowledgeUnit F) (reason expiresAt enterpriseId groupId createdAt : String)
  | decide (unitId : String) (decision : Decision) (reviewedBy reviewedAt : String)
      (enterpriseId groupId : Option String)
  | sweep (enterpriseId nowIso reviewedAt : String)

/-- The program a call runs. -/
def ReviewCall.prog [Casing] : ReviewCall F → ReviewProg F ReviewOutcome
  | submit unit reason expiresAt enterpriseId groupId createdAt =>
      submitPendingReview unit reason expiresAt enterpriseId groupId createdAt
  | decide unitId decision reviewedBy reviewedAt enterpriseId groupId =>
      setReviewStatus unitId decision reviewedBy reviewedAt enterpriseId groupId
  | sweep enterpriseId nowIso reviewedAt => expirePendingReviews enterpriseId nowIso reviewedAt

/-! ## What one statement does -/

/-- No decision on a unit is recorded. -/
def Store.Undecided (s : Store F) (id : String) : Prop :=
  ∀ r, s.units.find id = some r → r.status.terminal = false

/-- The statements without a guard of their own reach only undecided units. -/
def ReviewStmt.OnUndecided : ReviewStmt F → Store F → Prop
  | markPendingReview unitId _ _, s => s.Undecided unitId
  | dropExpired _ ids, s => ∀ id ∈ ids, s.Undecided id
  | _, _ => True

/-- A sweep names units that exist. -/
def ReviewStmt.Known : ReviewStmt F → Store F → Prop
  | dropExpired _ ids, s => ∀ id ∈ ids, (s.units.find id).isSome
  | _, _ => True

/-- The verdict that an answered statement records on a unit: a decision that reported
success, or a sweep that reported the unit. -/
def ReviewStmt.records : (q : ReviewStmt F) → q.Answer → String → Option Verdict
  | decide unitId decision reviewedBy reviewedAt _ _, answer, u =>
      match (answer : Option Bool) with
      | some true => if unitId = u then some (decision.verdict reviewedBy reviewedAt) else none
      | _ => none
  | dropExpired reviewedAt ids, _, u => if u ∈ ids then some (sweepVerdict reviewedAt) else none
  | _, _, _ => none

/-- A change of columns that leaves decided rows alone, seen from one unit. -/
theorem updateColumns_row {s : Store F} {p : Row F → Bool} {f : Row F → Row F}
    (hf : ∀ r, (f r).unit = r.unit) {u : String}
    (hp : ∀ r, s.units.find u = some r → p r = true → r.status.terminal = false)
    {r : Row F} (hr : s.units.find u = some r) :
    ∃ r', (s.updateColumns p f hf).units.find u = some r' ∧
      (r.status.terminal = true → r'.verdict = r.verdict) := by
  rw [Store.updateColumns_find, hr]
  refine ⟨_, rfl, fun hterm => ?_⟩
  dsimp only
  split
  · rename_i hpr
    exact absurd hterm (by simp [hp r hr hpr])
  · rfl

/-- **What a statement does to a row that is there.** The row stays, and keeps the verdict
it has. -/
theorem exec_keeps_row {s : Store F} {q : ReviewStmt F} (hok : q.OnUndecided s) {u : String}
    {r : Row F} (hr : s.units.find u = some r) :
    ∃ r', (q.exec s).2.units.find u = some r' ∧
      (r.status.terminal = true → r'.verdict = r.verdict) := by
  cases q with
  | insertUnit unit hd createdAt enterpriseId groupId =>
      simp only [ReviewStmt.exec]
      split
      · rename_i s' hins
        exact ⟨r, Table.find_insert_of_some (Store.insertRow_eq_some hins) hr, fun _ => rfl⟩
      · exact ⟨r, hr, fun _ => rfl⟩
  | markPendingReview unitId reason expiresAt =>
      have hdata : ∀ r : Row F, Row.unit { r with
          status := .pendingReview
          pendingReviewReason := some reason
          pendingReviewExpiresAt := some expiresAt } = r.unit := fun _ => rfl
      refine updateColumns_row hdata (fun r hr hid => ?_) hr
      have hid : r.id = unitId := of_decide_eq_true hid
      have hu : u = unitId := (Table.find_eq_some_iff.mp hr).2.symm.trans hid
      exact hok r (hu ▸ hr)
  | decide unitId decision reviewedBy reviewedAt enterpriseId groupId =>
      simp only [ReviewStmt.exec]
      split
      · exact ⟨r, hr, fun _ => rfl⟩
      · rename_i target htarget
        split
        · split
          · exact ⟨r, hr, fun _ => rfl⟩
          · rename_i hopen
            refine updateColumns_row (fun r => r.record_unit _) (fun r hr hid => ?_) hr
            have hid : r.id = unitId := of_decide_eq_true hid
            have hu : u = unitId := (Table.find_eq_some_iff.mp hr).2.symm.trans hid
            rw [← hu, hr] at htarget
            cases htarget
            exact Bool.eq_false_of_not_eq_true hopen
        · exact ⟨r, hr, fun _ => rfl⟩
  | selectExpired enterpriseId nowIso => exact ⟨r, hr, fun _ => rfl⟩
  | dropExpired reviewedAt ids =>
      refine updateColumns_row (fun r => r.record_unit _) (fun r hr hid => ?_) hr
      have hid : r.id ∈ ids := of_decide_eq_true hid
      have hu : r.id = u := (Table.find_eq_some_iff.mp hr).2
      exact hok u (hu ▸ hid) r hr

/-- **Where a verdict comes from.** A row that is decided after a statement was decided
before it, with this verdict, or the statement has just recorded it. -/
theorem exec_origin {s : Store F} {q : ReviewStmt F} {u : String} {r' : Row F}
    (hr' : (q.exec s).2.units.find u = some r') (hterm : r'.status.terminal = true) :
    (∃ r, s.units.find u = some r ∧ r.verdict = r'.verdict) ∨
      q.records (q.exec s).1 u = some r'.verdict := by
  cases q with
  | insertUnit unit hd createdAt enterpriseId groupId =>
      simp only [ReviewStmt.exec] at hr'
      split at hr'
      · rename_i s' hins
        have hrows := Store.insertRow_eq_some hins
        obtain ⟨hmem, hid⟩ := Table.find_eq_some_iff.mp hr'
        rcases (Table.mem_insert hrows).mp hmem with hold | rfl
        · exact .inl ⟨r', Table.find_eq_some_iff.mpr ⟨hold, hid⟩, rfl⟩
        · -- a new row is pending
          cases hterm
      · exact .inl ⟨r', hr', rfl⟩
  | markPendingReview unitId reason expiresAt =>
      simp only [ReviewStmt.exec, Store.updateColumns_find, Option.map_eq_some_iff] at hr'
      obtain ⟨r, hr, rfl⟩ := hr'
      split at hterm
      · cases hterm
      · rename_i hne
        exact .inl ⟨r, hr, by rw [if_neg hne]⟩
  | decide unitId decision reviewedBy reviewedAt enterpriseId groupId =>
      simp only [ReviewStmt.exec] at hr' ⊢
      cases htarget : s.units.find unitId with
      | none =>
          rw [htarget] at hr'
          exact .inl ⟨r', hr', rfl⟩
      | some target =>
          rw [htarget] at hr'
          by_cases hscope : target.inScope enterpriseId groupId = true
          · by_cases hopen : target.status.terminal = true
            · simp only [hscope, hopen, if_true] at hr'
              exact .inl ⟨r', hr', rfl⟩
            · simp only [hscope, hopen, if_true, Bool.false_eq_true, if_false,
                Store.updateColumns_find, Option.map_eq_some_iff] at hr' ⊢
              obtain ⟨r, hr, rfl⟩ := hr'
              have hid := (Table.find_eq_some_iff.mp hr).2
              by_cases hu : r.id = unitId
              · have hu' : unitId = u := hu.symm.trans hid
                simp [ReviewStmt.records, hu, hu']
              · exact .inl ⟨r, hr, by simp [hu]⟩
          · simp only [hscope] at hr'
            exact .inl ⟨r', hr', rfl⟩
  | selectExpired enterpriseId nowIso => exact .inl ⟨r', hr', rfl⟩
  | dropExpired reviewedAt ids =>
      simp only [ReviewStmt.exec, Store.updateColumns_find, Option.map_eq_some_iff] at hr'
      obtain ⟨r, hr, rfl⟩ := hr'
      have hid := (Table.find_eq_some_iff.mp hr).2
      by_cases hu : r.id ∈ ids
      · have hu' : u ∈ ids := hid ▸ hu
        simp [ReviewStmt.records, hu, hu']
      · exact .inl ⟨r, hr, by simp [hu]⟩

/-- **What a statement records.** The unit was undecided, and has the verdict afterwards. -/
theorem exec_records {s : Store F} {q : ReviewStmt F} (hok : q.OnUndecided s)
    (hknown : q.Known s) {u : String} {v : Verdict}
    (h : q.records (q.exec s).1 u = some v) :
    s.Undecided u ∧ ∃ r', (q.exec s).2.units.find u = some r' ∧ r'.verdict = v ∧
      r'.status.terminal = true := by
  cases q with
  | insertUnit unit hd createdAt enterpriseId groupId => cases h
  | markPendingReview unitId reason expiresAt => cases h
  | decide unitId decision reviewedBy reviewedAt enterpriseId groupId =>
      simp only [ReviewStmt.exec] at h ⊢
      cases htarget : s.units.find unitId with
      | none =>
          rw [htarget] at h
          cases h
      | some target =>
          rw [htarget] at h
          by_cases hscope : target.inScope enterpriseId groupId = true
          · by_cases hopen : target.status.terminal = true
            · simp [hscope, hopen, ReviewStmt.records] at h
            · simp only [hscope, hopen, if_true, Bool.false_eq_true, if_false, ReviewStmt.records]
                at h ⊢
              obtain ⟨rfl, hv⟩ : unitId = u ∧ decision.verdict reviewedBy reviewedAt = v := by
                simpa using h
              have hid := (Table.find_eq_some_iff.mp htarget).2
              refine ⟨fun r hr => ?_, target.record (decision.verdict reviewedBy reviewedAt), ?_,
                hv, decision.status_terminal⟩
              · rw [htarget] at hr
                cases hr
                exact Bool.eq_false_of_not_eq_true hopen
              · simp [Store.updateColumns_find, htarget, hid]
          · simp [hscope, ReviewStmt.records] at h
  | selectExpired enterpriseId nowIso => cases h
  | dropExpired reviewedAt ids =>
      obtain ⟨hu, hv⟩ : u ∈ ids ∧ sweepVerdict reviewedAt = v := by
        simpa [ReviewStmt.records] using h
      refine ⟨hok u hu, ?_⟩
      obtain ⟨r, hr⟩ := Option.isSome_iff_exists.mp (hknown u hu)
      have hid := (Table.find_eq_some_iff.mp hr).2
      refine ⟨r.record (sweepVerdict reviewedAt), ?_, hv ▸ rfl, rfl⟩
      simp [ReviewStmt.exec, Store.updateColumns_find, hr, hid, hu]

/-- A decision that reports failure found the unit decided. -/
theorem exec_late {s : Store F} {unitId : String} {decision : Decision}
    {reviewedBy reviewedAt : String} {enterpriseId groupId : Option String}
    (h : (ReviewStmt.exec (.decide unitId decision reviewedBy reviewedAt enterpriseId groupId) s).1 =
      some false) : ∃ r, s.units.find unitId = some r ∧ r.status.terminal = true := by
  simp only [ReviewStmt.exec] at h
  cases htarget : s.units.find unitId with
  | none => simp [htarget] at h
  | some target =>
      rw [htarget] at h
      by_cases hscope : target.inScope enterpriseId groupId = true
      · by_cases hterm : target.status.terminal = true
        · exact ⟨target, rfl, hterm⟩
        · simp [hscope, hterm] at h
      · simp [hscope] at h

/-! ## Runs -/

/-- The verdict that an event records on a unit. -/
def verdictOn (e : Event (ReviewStmt.Answer (F := F))) (u : String) : Option Verdict :=
  ReviewStmt.records e.stmt e.answer u

/-- What holds throughout a run that began with `s₀`. -/
structure ReviewInv (s₀ : Store F) (w : ReviewWorld F) : Prop where
  /-- A recorded verdict is on the row. -/
  recorded : ∀ e ∈ w.log, ∀ u v, verdictOn e u = some v →
    ∃ r, w.db.units.find u = some r ∧ r.verdict = v ∧ r.status.terminal = true
  /-- A verdict on a unit is recorded once. -/
  once : ∀ e ∈ w.log, ∀ e' ∈ w.log, ∀ u, (verdictOn e u).isSome → (verdictOn e' u).isSome → e = e'
  /-- A decided row was decided from the start, or somebody recorded it. -/
  origin : ∀ u r, w.db.units.find u = some r → r.status.terminal = true →
    (∃ r₀, s₀.units.find u = some r₀ ∧ r₀.verdict = r.verdict) ∨
      ∃ e ∈ w.log, verdictOn e u = some r.verdict

/-- What becomes of a world: rows stay, decided rows keep their verdict, the log grows. -/
structure ReviewRel (w w' : ReviewWorld F) : Prop where
  rows : ∀ u r, w.db.units.find u = some r → ∃ r', w'.db.units.find u = some r' ∧
    (r.status.terminal = true → r'.verdict = r.verdict)
  log : ∀ e ∈ w.log, e ∈ w'.log

theorem ReviewRel.refl (w : ReviewWorld F) : ReviewRel w w where
  rows := fun _ r hr => ⟨r, hr, fun _ => rfl⟩
  log := fun _ he => he

theorem ReviewRel.trans {w₁ w₂ w₃ : ReviewWorld F} (h₁ : ReviewRel w₁ w₂)
    (h₂ : ReviewRel w₂ w₃) : ReviewRel w₁ w₃ where
  rows := by
    intro u r hr
    obtain ⟨r', hr', hkeep⟩ := h₁.rows u r hr
    obtain ⟨r'', hr'', hkeep'⟩ := h₂.rows u r' hr'
    refine ⟨r'', hr'', fun hterm => ?_⟩
    have hv := hkeep hterm
    have hstatus : r'.status = r.status := congrArg Verdict.status hv
    exact (hkeep' (hstatus ▸ hterm)).trans hv
  log := fun e he => h₂.log e (h₁.log e he)

/-- The step lemma: one statement keeps the invariant and leads where the relation says. -/
theorem ReviewInv.exec {s₀ : Store F} {w : ReviewWorld F} (h : ReviewInv s₀ w) (i : Nat)
    {q : ReviewStmt F} (hok : q.OnUndecided w.db) (hknown : q.Known w.db) :
    ReviewInv s₀ (w.exec i q) ∧ ReviewRel w (w.exec i q) := by
  have hrows : ∀ u r, w.db.units.find u = some r → ∃ r', (w.exec i q).db.units.find u = some r' ∧
      (r.status.terminal = true → r'.verdict = r.verdict) := fun u r hr => exec_keeps_row hok hr
  refine ⟨⟨?_, ?_, ?_⟩, hrows, fun e he => List.mem_cons_of_mem _ he⟩
  · -- the verdicts recorded so far stay on their rows, the new one has just been put there
    intro e he u v hv
    rcases List.mem_cons.mp he with rfl | he
    · exact (exec_records hok hknown hv).2
    · obtain ⟨r, hr, hrv, hterm⟩ := h.recorded e he u v hv
      obtain ⟨r', hr', hkeep⟩ := hrows u r hr
      have hv' := hkeep hterm
      have hstatus : r'.status = r.status := congrArg Verdict.status hv'
      exact ⟨r', hr', hv'.trans hrv, hstatus ▸ hterm⟩
  · -- a verdict is recorded on an undecided row, so none was before
    have hfirst : ∀ u, (verdictOn ⟨i, q, (q.exec w.db).1⟩ u).isSome → ∀ e ∈ w.log,
        ¬ (verdictOn e u).isSome := by
      intro u hnew e he hold
      obtain ⟨v, hv⟩ := Option.isSome_iff_exists.mp hnew
      obtain ⟨v', hv'⟩ := Option.isSome_iff_exists.mp hold
      obtain ⟨r, hr, -, hterm⟩ := h.recorded e he u v' hv'
      exact absurd hterm (by simp [(exec_records hok hknown hv).1 r hr])
    intro e he e' he' u hv hv'
    rcases List.mem_cons.mp he with rfl | he
    · rcases List.mem_cons.mp he' with rfl | he'
      · rfl
      · exact absurd hv' (hfirst u hv e' he')
    · rcases List.mem_cons.mp he' with rfl | he'
      · exact absurd hv (hfirst u hv' e he)
      · exact h.once e he e' he' u hv hv'
  · intro u r' hr' hterm
    rcases exec_origin hr' hterm with ⟨r, hr, hv⟩ | hnew
    · have hstatus : r.status = r'.status := congrArg Verdict.status hv
      rcases h.origin u r hr (hstatus ▸ hterm) with ⟨r₀, hr₀, hv₀⟩ | ⟨e, he, hev⟩
      · exact .inl ⟨r₀, hr₀, hv₀.trans hv⟩
      · exact .inr ⟨e, List.mem_cons_of_mem _ he, hv ▸ hev⟩
    · exact .inr ⟨_, List.mem_cons_self, hnew⟩

theorem ReviewInv.start (s : Store F) : ReviewInv s ⟨s, []⟩ where
  recorded := fun _ he => absurd he List.not_mem_nil
  once := fun _ he => absurd he List.not_mem_nil
  origin := fun _ r hr _ => .inl ⟨r, hr, rfl⟩

/-- The contract of the three operations: each relies on the rows staying as
`ReviewRel` says, in a run whose unguarded statements reach undecided units only. -/
def reviewContract (s₀ : Store F) : Contract (Store F) (ReviewStmt.Answer (F := F)) where
  inv := ReviewInv s₀
  rel := ReviewRel
  ok := fun _ q w => q.OnUndecided w.db
  refl := ReviewRel.refl
  trans := ReviewRel.trans

/-- The verdict on a unit that a call reports with its outcome. -/
def ReviewCall.reports : ReviewCall F → ReviewOutcome → String → Option Verdict
  | decide unitId decision reviewedBy reviewedAt _ _, .decided true, u =>
      if unitId = u then some (decision.verdict reviewedBy reviewedAt) else none
  | sweep _ _ reviewedAt, .swept ids, u => if u ∈ ids then some (sweepVerdict reviewedAt) else none
  | _, _, _ => none

/-- What a call has achieved when it ends: what it reports it recorded itself, and a
decision that came too late found the unit decided. -/
structure ReviewCall.Achieved (call : ReviewCall F) (i : Nat) (a : ReviewOutcome)
    (w : ReviewWorld F) : Prop where
  recorded : ∀ u v, call.reports a u = some v → ∃ e ∈ w.log, e.task = i ∧ verdictOn e u = some v
  late : ∀ unitId decision reviewedBy reviewedAt enterpriseId groupId,
    call = .decide unitId decision reviewedBy reviewedAt enterpriseId groupId →
    a = .decided false → ∃ r, w.db.units.find unitId = some r ∧ r.status.terminal = true

theorem reviewContract_exec {s₀ : Store F} {w : ReviewWorld F} {i : Nat} {q : ReviewStmt F}
    (hinv : (reviewContract s₀).inv w) (hok : (reviewContract s₀).ok i q w)
    (hknown : q.Known w.db) :
    (reviewContract s₀).inv (w.exec i q) ∧ (reviewContract s₀).rel w (w.exec i q) :=
  ReviewInv.exec hinv i hok hknown

/-- Every call keeps the contract. -/
theorem ReviewCall.keeps [Casing] (s₀ : Store F) (call : ReviewCall F) (i : Nat)
    (w : ReviewWorld F) : call.prog.Keeps (reviewContract s₀) (call.Achieved i) i w := by
  cases call with
  | submit unit reason expiresAt enterpriseId groupId createdAt =>
      have hnothing : ∀ a w', (ReviewCall.submit unit reason expiresAt enterpriseId groupId
          createdAt).Achieved i a w' := fun a w' =>
        { recorded := fun u v h => by cases h
          late := fun _ _ _ _ _ _ h => by cases h }
      simp only [ReviewCall.prog, submitPendingReview]
      split
      · exact hnothing _ _
      · intro w' hinv _ hok
        refine ⟨reviewContract_exec hinv hok trivial, ?_⟩
        dsimp only
        split
        · intro w'' hinv _ hok
          exact ⟨reviewContract_exec hinv hok trivial, hnothing _ _⟩
        · exact hnothing _ _
  | decide unitId decision reviewedBy reviewedAt enterpriseId groupId =>
      intro w' hinv _ hok
      refine ⟨reviewContract_exec hinv hok trivial, ?_⟩
      dsimp only
      split
      · rename_i won hanswer
        refine ⟨fun u v h => ?_, fun _ _ _ _ _ _ hcall hlate => ?_⟩
        · -- the caller won: the statement itself recorded the verdict
          cases won
          · cases h
          · refine ⟨_, List.mem_cons_self, rfl, ?_⟩
            rw [verdictOn, hanswer]
            exact h
        · -- the caller came late: the statement found a verdict
          cases hcall
          cases hlate
          obtain ⟨r, hr, hterm⟩ := exec_late hanswer
          obtain ⟨r', hr', hkeep⟩ := exec_keeps_row
            (q := .decide unitId decision reviewedBy reviewedAt enterpriseId groupId) trivial hr
          have hstatus : r'.status = r.status := congrArg Verdict.status (hkeep hterm)
          exact ⟨r', hr', hstatus ▸ hterm⟩
      · exact
          { recorded := fun u v h => by cases h
            late := fun _ _ _ _ _ _ _ h => by cases h }
  | sweep enterpriseId nowIso reviewedAt =>
      intro w' hinv _ hok
      refine ⟨reviewContract_exec hinv hok trivial, ?_⟩
      dsimp only
      split
      · refine ⟨fun u v h => ?_, fun _ _ _ _ _ _ h => by cases h⟩
        simp [ReviewCall.reports] at h
      · rename_i hids
        intro w'' hinv hrel hok
        have hknown : (ReviewStmt.dropExpired (F := F) reviewedAt
            (Database.exec (A := ReviewStmt.Answer (F := F))
              (.selectExpired enterpriseId nowIso) w'.db).1).Known w''.db := by
          -- the rows that were selected are still there
          intro id hid
          obtain ⟨r, hr, rfl⟩ := List.mem_map.mp hid
          obtain ⟨r', hr', -⟩ := hrel.rows r.id r (Table.find_key (List.mem_filter.mp hr).1)
          rw [hr']
          rfl
        refine ⟨reviewContract_exec hinv hok hknown, fun u v h => ?_,
          fun _ _ _ _ _ _ h => by cases h⟩
        exact ⟨_, List.mem_cons_self, rfl, h⟩

/-! ## Decisions are final -/

/-- The calls of a pool, started on a store. -/
def reviewPool [Casing] (s : Store F) (calls : List (ReviewCall F)) :
    Config (Store F) (ReviewStmt.Answer (F := F)) ReviewOutcome :=
  .start s (calls.map ReviewCall.prog)

/-- The statement that is about to be executed, if it is the second `UPDATE` of a submission
or the `UPDATE` of a sweep, reaches undecided units only: nobody has decided on them since
the statement before it. -/
def NoLateWrite (c : Config (Store F) (ReviewStmt.Answer (F := F)) ReviewOutcome) (i : Nat) :
    Prop :=
  ∀ q k, c.tasks[i]? = some (.call q k) → q.OnUndecided c.world.db

theorem reviewPool_holds [Casing] (s : Store F) (calls : List (ReviewCall F)) :
    (reviewContract s).Holds
      (fun i a w => ∀ call, calls[i]? = some call → call.Achieved i a w) (reviewPool s calls) := by
  refine Contract.Holds.start (ReviewInv.start s) fun i p hp => ?_
  rw [List.getElem?_map, Option.map_eq_some_iff] at hp
  obtain ⟨call, hcall, rfl⟩ := hp
  have hkeeps := call.keeps s i ⟨s, []⟩
  simpa [hcall] using hkeeps

/-- Whoever has recorded a verdict reports it. -/
structure Reported [Casing] (calls : List (ReviewCall F))
    (c : Config (Store F) (ReviewStmt.Answer (F := F)) ReviewOutcome) : Prop where
  tasks : ∀ (i : Nat) (p : ReviewProg F ReviewOutcome), c.tasks[i]? = some p →
    ∃ call : ReviewCall F, calls[i]? = some call ∧ call.prog.Rest p
  reports : ∀ e ∈ c.world.log, ∀ u v, verdictOn e u = some v →
    ∃ call a, calls[e.task]? = some call ∧ c.Answered e.task a ∧ call.reports a u = some v

/-- A statement that records a verdict is the last of its call, which then reports it. -/
theorem reports_of_records [Casing] {call : ReviewCall F} {q : ReviewStmt F}
    {k : q.Answer → ReviewProg F ReviewOutcome} (h : call.prog.Rest (.call q k)) {answer : q.Answer}
    {u : String} {v : Verdict} (hv : q.records answer u = some v) :
    ∃ a, k answer = .done a ∧ call.reports a u = some v := by
  cases call with
  | submit unit reason expiresAt enterpriseId groupId createdAt =>
      -- neither statement of a submission records a verdict
      simp only [ReviewCall.prog, submitPendingReview] at h
      split at h
      · cases h
      · cases h with
        | refl => cases hv
        | next h =>
            dsimp only at h
            split at h
            · cases h with
              | refl => cases hv
              | next h => cases h
            · cases h
  | decide unitId decision reviewedBy reviewedAt enterpriseId groupId =>
      simp only [ReviewCall.prog, setReviewStatus] at h
      cases h with
      | refl =>
          cases answer with
          | none => cases hv
          | some won =>
              cases won with
              | false => cases hv
              | true => exact ⟨_, rfl, hv⟩
      | next h =>
          dsimp only at h
          split at h
          · cases h
          · cases h
  | sweep enterpriseId nowIso reviewedAt =>
      simp only [ReviewCall.prog, expirePendingReviews] at h
      cases h with
      | refl => cases hv
      | next h =>
          dsimp only at h
          split at h
          · cases h
          · cases h with
            | refl => exact ⟨_, rfl, hv⟩
            | next h => cases h

/-- The step lemma: a verdict that is recorded by a step is reported after it. -/
theorem Reported.step [Casing] {calls : List (ReviewCall F)}
    {c : Config (Store F) (ReviewStmt.Answer (F := F)) ReviewOutcome} (h : Reported calls c)
    (i : Nat) : Reported calls (c.step i) := by
  refine ⟨fun j p hp => ?_, fun e he u v hv => ?_⟩
  · obtain ⟨p₀, hp₀, hrest⟩ := Config.step_rest hp
    obtain ⟨call, hcall, hrest₀⟩ := h.tasks j p₀ hp₀
    exact ⟨call, hcall, hrest₀.trans hrest⟩
  · have hold : e ∈ c.world.log → ∃ call a, calls[e.task]? = some call ∧
        (c.step i).Answered e.task a ∧ call.reports a u = some v := by
      intro he
      obtain ⟨call, a, hcall, ha, hreports⟩ := h.reports e he u v hv
      exact ⟨call, a, hcall, Config.answered_step ha i, hreports⟩
    rcases c.step_cases i with heq | ⟨q, k, htask, heq⟩
    · rw [heq] at he
      exact hold he
    · rw [heq] at he
      rcases List.mem_cons.mp he with rfl | he
      · obtain ⟨call, hcall, hrest⟩ := h.tasks i _ htask
        obtain ⟨a, hdone, hreports⟩ := reports_of_records hrest hv
        refine ⟨call, a, hcall, ?_, hreports⟩
        have hlt : i < c.tasks.length := (List.getElem?_eq_some_iff.mp htask).1
        rw [heq, Config.Answered, List.getElem?_set_self hlt, hdone]
      · exact hold he

theorem reviewPool_reported [Casing] (s : Store F) (calls : List (ReviewCall F))
    (schedule : List Nat) : Reported calls ((reviewPool s calls).run schedule) := by
  have hstart : Reported calls (reviewPool s calls) := by
    refine ⟨fun i p hp => ?_, fun e he => absurd he List.not_mem_nil⟩
    simp only [reviewPool, Config.start, List.getElem?_map, Option.map_eq_some_iff] at hp
    obtain ⟨call, hcall, rfl⟩ := hp
    exact ⟨call, hcall, .refl _⟩
  exact Config.run_induction (fun c i h _ => h.step i) hstart (Config.meets_true _ schedule)

/-- **Decisions are final**, in a run without late writes: a verdict that a call has reported
is on the unit, and stays there; no two calls report a verdict on one unit; and a decision
that reports failure found one, which was there from the start or which another call
reports. -/
theorem review_status_terminal [Casing] (s : Store F) (calls : List (ReviewCall F))
    (earlier later : List Nat)
    (h : (reviewPool s calls).Meets NoLateWrite (earlier ++ later)) :
    let before := (reviewPool s calls).run earlier
    let after := (reviewPool s calls).run (earlier ++ later)
    (∀ i call a u v, calls[i]? = some call → before.Answered i a → call.reports a u = some v →
      (∃ r, before.world.db.units.find u = some r ∧ r.verdict = v) ∧
        ∃ r, after.world.db.units.find u = some r ∧ r.verdict = v) ∧
    (∀ i j call call' a a' u v v', i ≠ j → calls[i]? = some call → calls[j]? = some call' →
      after.Answered i a → after.Answered j a' → call.reports a u = some v →
      call'.reports a' u = some v' → False) ∧
    (∀ i u decision reviewedBy reviewedAt enterpriseId groupId,
      calls[i]? = some (.decide u decision reviewedBy reviewedAt enterpriseId groupId) →
      after.Answered i (.decided false) →
      ∃ r, after.world.db.units.find u = some r ∧ r.status.terminal = true ∧
        ((∃ r₀, s.units.find u = some r₀ ∧ r₀.verdict = r.verdict) ∨
          ∃ j call a, calls[j]? = some call ∧ after.Answered j a ∧
            call.reports a u = some r.verdict)) := by
  intro before after
  obtain ⟨hearlier, hlater⟩ := Config.meets_append.mp h
  obtain ⟨hbefore, -⟩ := Contract.run (reviewPool_holds s calls) hearlier
  obtain ⟨hafter, hrel⟩ := Contract.run hbefore hlater
  rw [← Config.run_append] at hafter hrel
  refine ⟨?_, ?_, ?_⟩
  · intro i call a u v hcall ha hv
    obtain ⟨w, hw, hachieved⟩ := hbefore.answered ha
    obtain ⟨e, he, -, hev⟩ := (hachieved call hcall).recorded u v hv
    obtain ⟨r, hr, hrv, hterm⟩ := hbefore.inv.recorded e (hw.log e he) u v hev
    obtain ⟨r', hr', hkeep⟩ := hrel.rows u r hr
    exact ⟨⟨r, hr, hrv⟩, r', hr', (hkeep hterm).trans hrv⟩
  · intro i j call call' a a' u v v' hne hcall hcall' ha ha' hv hv'
    obtain ⟨w, hw, hachieved⟩ := hafter.answered ha
    obtain ⟨w', hw', hachieved'⟩ := hafter.answered ha'
    obtain ⟨e, he, htask, hev⟩ := (hachieved call hcall).recorded u v hv
    obtain ⟨e', he', htask', hev'⟩ := (hachieved' call' hcall').recorded u v' hv'
    -- both events are among the at most one that records a verdict on `u`
    have heq : e = e' := hafter.inv.once e (hw.log e he) e' (hw'.log e' he') u (by simp [hev])
      (by simp [hev'])
    exact hne (htask.symm.trans ((congrArg Event.task heq).trans htask'))
  · intro i u decision reviewedBy reviewedAt enterpriseId groupId hcall ha
    obtain ⟨w, hw, hachieved⟩ := hafter.answered ha
    obtain ⟨r, hr, hterm⟩ := (hachieved _ hcall).late _ _ _ _ _ _ rfl rfl
    obtain ⟨r', hr', hkeep⟩ := hw.rows u r hr
    have hstatus : r'.status = r.status := congrArg Verdict.status (hkeep hterm)
    refine ⟨r', hr', hstatus ▸ hterm, ?_⟩
    rcases hafter.inv.origin u r' hr' (hstatus ▸ hterm) with horigin | ⟨e, he, hev⟩
    · exact .inl horigin
    · obtain ⟨call, a, hcall', ha', hreports⟩ :=
        (reviewPool_reported s calls (earlier ++ later)).reports e he u _ hev
      exact .inr ⟨e.task, call, a, hcall', ha', hreports⟩

/-- A unit that waits for a decision until the first of June. -/
def expiringStore : Store ℚ :=
  .ofRows [{ Store.newRow (sampleUnit "ku_1" "api") "2026-05-01T00:00:00+00:00" "acme" "eng" with
    status := .pendingReview
    pendingReviewReason := some "hard finding"
    pendingReviewExpiresAt := some "2026-06-01T00:00:00+00:00" }]

/-- A sweep on the second of June, and an admin who approves the unit. -/
def sweepAndApprove : List (ReviewCall ℚ) :=
  [.sweep "acme" "2026-06-02T00:00:00+00:00" "2026-06-02T00:00:02+00:00",
   .decide "ku_1" .approve "bob" "2026-06-02T00:00:01+00:00" (some "acme") none]

/-- Here the sweep selects and drops the unit before the admin gets to it: the drop stays. -/
theorem sweep_before_approval :
    let after := (@reviewPool _ asciiCasing expiringStore sweepAndApprove).run ([0, 0] ++ [1])
    after.Answered 1 (.decided false) ∧ ∃ r, after.world.db.units.find "ku_1" = some r ∧
      r.verdict = sweepVerdict "2026-06-02T00:00:02+00:00" := by
  refine ⟨rfl, ?_⟩
  have hmeets : (@reviewPool _ asciiCasing expiringStore sweepAndApprove).Meets NoLateWrite
      ([0, 0] ++ [1]) := by
    refine ⟨?_, ?_, ?_, trivial⟩
    · intro q k h
      cases h
      trivial
    · -- the `UPDATE` of the sweep: the unit still waits
      intro q k h
      cases h
      intro id hid r hr
      cases List.mem_singleton.mp hid
      cases hr
      rfl
    · intro q k h
      cases h
      trivial
  have hfinal := @review_status_terminal _ asciiCasing expiringStore sweepAndApprove [0, 0] [1] hmeets
  exact (hfinal.1 0 _ _ "ku_1" _ rfl rfl rfl).2

/-- The sweep selects the unit, the admin approves it and is told so, the sweep drops it. -/
theorem sweep_overwrites_approval :
    let before := (@reviewPool _ asciiCasing expiringStore sweepAndApprove).run [0, 1]
    let after := (@reviewPool _ asciiCasing expiringStore sweepAndApprove).run [0, 1, 0]
    before.Answered 1 (.decided true) ∧ after.Answered 0 (.swept ["ku_1"]) ∧
      (before.world.db.units.find "ku_1").map Row.verdict =
        some (Decision.approve.verdict "bob" "2026-06-02T00:00:01+00:00") ∧
      (after.world.db.units.find "ku_1").map Row.verdict =
        some (sweepVerdict "2026-06-02T00:00:02+00:00") := by
  refine ⟨rfl, rfl, rfl, rfl⟩

end EighthLayer.Knowledge
