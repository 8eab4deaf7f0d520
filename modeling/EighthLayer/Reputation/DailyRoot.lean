import EighthLayer.Reputation.Root

/-!
# EighthLayer.Reputation.DailyRoot

Runs that mix `record_event`, the scheduled computation of yesterday's roots
(`daily_root_loop`) and the admin trigger (`POST /reputation/roots/compute`)
under a clock that never goes back.

The run invariant `RootInv` looks ahead: a root computed after its day was over
matches the day's events, and every clock reading still to come is later than
the computation, so that no event can join the day any more.
-/

namespace EighthLayer.Reputation

open Lib Lib.HashChain

variable {sch : SignatureScheme}

/-! ## The system -/

/-- One operation, with its readings of the clock. No caller of `record_event`
overrides the timestamp. -/
inductive DayOp where
  | record (call : RecordCall) (draw : Draw)
  /-- A round of the loop: when it woke, and one draw for each Enterprise. -/
  | scheduled (woke : Stamp) (draws : List RootDraw)
  | compute (ent day : String) (draw : RootDraw)

/-- The clock readings of an operation, in the order it takes them. -/
def DayOp.readings : DayOp → List Stamp
  | .record _ draw => [draw.now, draw.createdAt, draw.updatedAt]
  | .scheduled woke draws => woke :: draws.map RootDraw.computedAt
  | .compute _ _ draw => [draw.computedAt]

/-- The clock never goes back in a run. -/
def ClockMonotone (ops : List DayOp) : Prop :=
  (ops.flatMap DayOp.readings).Pairwise fun s t => s.num ≤ t.num

/-- `_all_enterprise_ids`. -/
def allEnterpriseIds (t : Tables) : List String := t.chainMeta.map ChainMeta.enterpriseId

/-- One Enterprise of a scheduled round; an exception is rolled back. -/
def scheduledRoot (p : Process sch) (day : String) (t : Tables) (x : String × RootDraw) : Tables :=
  match computeRootForDay p x.2 t x.1 day with
  | (t', some _) => t'
  | (_, none) => t

/-- One step. `record_event` is called outside a transaction, and the trigger
runs for whichever Enterprise and date text it is asked. -/
def dayStep (p : Process sch) (t : Tables) : DayOp → Tables
  | .record call draw =>
    (recordEvent p { call with ts := none } draw (Conn.fresh ((), t))).1.committed.2
  | .scheduled woke draws =>
    match woke.date.pred with
    | none => t
    | some yesterday =>
      ((allEnterpriseIds t).zip draws).foldl (scheduledRoot p yesterday.iso) t
  | .compute ent day draw => (computeRootForDay p draw t ent day).1

/-- A run, from empty tables. -/
def runDays (p : Process sch) (ops : List DayOp) : Tables := ops.foldl (dayStep p) Tables.empty

theorem runDays_concat (p : Process sch) (ops : List DayOp) (op : DayOp) :
    runDays p (ops ++ [op]) = dayStep p (runDays p ops) op := by
  rw [runDays, List.foldl_append]
  rfl

/-! ## What a step can do -/

/-- Recording appends one event, whose timestamp is the clock's, or does nothing. -/
theorem dayStep_record (p : Process sch) (t : Tables) (call : RecordCall) (draw : Draw) :
    dayStep p t (.record call draw) = t ∨
      appendEvent p { call with ts := none } draw t = some (dayStep p t (.record call draw)) := by
  rcases recordEvent_cases p { call with ts := none } draw (Conn.fresh ((), t)) with
    heq | ⟨t', c', happ, heq, -, -, -, hcom⟩
  · refine .inl ?_
    rw [dayStep, heq]
    rfl
  · refine .inr ?_
    rw [dayStep, heq, hcom]
    exact happ

theorem insertRoot_some {t t' : Tables} {r : RootRow} (h : t.insertRoot r = some t') :
    t'.events = t.events ∧ t'.chainMeta = t.chainMeta ∧ t'.roots = t.roots ++ [r] := by
  unfold Tables.insertRoot at h
  split at h
  · cases h
  · cases h
    exact ⟨rfl, rfl, rfl⟩

/-- The tables after a computation: the same events and chain tips, and the same
roots or one more. -/
structure Computed (p : Process sch) (c : Stamp) (ent day : String) (t t' : Tables) : Prop where
  events : t'.events = t.events
  last : ∀ ent', (t'.metaOf ent').map (fun m => (m.lastEventId, m.lastEventHash)) =
    (t.metaOf ent').map fun m => (m.lastEventId, m.lastEventHash)
  roots : t'.roots = t.roots ∨
    ∃ rootHash, merkleRoot ((readDayEvents t ent day).map EventRow.payloadHash) = some rootHash ∧
      t'.roots = t.roots ++ [newRoot p c ent day (readDayEvents t ent day) rootHash]

theorem Computed.same (p : Process sch) (c : Stamp) (ent day : String) (t : Tables) :
    Computed p c ent day t t := ⟨rfl, fun _ => rfl, .inl rfl⟩

theorem metaOf_bumpPublishedDay (t : Tables) (ent day computedAt ent' : String) :
    ((t.bumpPublishedDay ent day computedAt).metaOf ent').map
        (fun m => (m.lastEventId, m.lastEventHash)) =
      (t.metaOf ent').map fun m => (m.lastEventId, m.lastEventHash) := by
  have hfind : (t.bumpPublishedDay ent day computedAt).metaOf ent' =
      (t.metaOf ent').map fun m =>
        if m.enterpriseId = ent ∧ (∀ last ∈ m.lastRootPublishedDay, last < day) then
          { m with lastRootPublishedDay := some day, updatedAt := computedAt }
        else m :=
    Tables.find_map_meta _ _ fun m => by split <;> rfl
  rw [hfind]
  cases t.metaOf ent' with
  | none => rfl
  | some m =>
      simp only [Option.map_some, Option.some.injEq]
      split <;> rfl

/-- What `compute_root_for_day` leaves, whether it returns or raises. -/
theorem computeRootForDay_computed (p : Process sch) (draw : RootDraw) (t : Tables)
    (ent day : String) :
    Computed p draw.computedAt ent day t (computeRootForDay p draw t ent day).1 := by
  unfold computeRootForDay
  split
  · exact .same ..
  · dsimp only
    split
    · exact .same ..
    · next rootHash hroot =>
        split
        · exact .same ..
        · split
          · exact .same ..
          · next t₁ hins =>
              obtain ⟨hevents, hmeta, hroots⟩ := insertRoot_some hins
              have hmetaOf : ∀ ent', t₁.metaOf ent' = t.metaOf ent' := fun ent' => by
                rw [Tables.metaOf, Tables.metaOf, hmeta]
              split
              · exact ⟨hevents, fun ent' => by rw [hmetaOf], .inr ⟨rootHash, hroot, hroots⟩⟩
              · refine ⟨hevents, fun ent' => ?_, .inr ⟨rootHash, hroot, hroots⟩⟩
                dsimp only
                rw [metaOf_bumpPublishedDay, hmetaOf]

/-- A day without a root gets one when no statement fails. -/
theorem computeRootForDay_fresh (p : Process sch) {draw : RootDraw} {t : Tables}
    {ent day rootHash : String} (hnone : existingRoot t ent day = none)
    (hroot : merkleRoot ((readDayEvents t ent day).map EventRow.payloadHash) = some rootHash)
    (hok : ∀ stage, draw.fails stage = false) :
    ∃ t', computeRootForDay p draw t ent day =
        (t', some (newRoot p draw.computedAt ent day (readDayEvents t ent day) rootHash)) ∧
      t'.roots = t.roots ++
        [newRoot p draw.computedAt ent day (readDayEvents t ent day) rootHash] := by
  have hkey : (ent, day) ∉ t.roots.map fun r => (r.enterpriseId, r.rootDate) := by
    intro hmem
    obtain ⟨r, hr, heq⟩ := List.mem_map.mp hmem
    have := List.find?_eq_none.mp hnone r hr
    simp_all
  obtain ⟨t₁, hins⟩ : ∃ t₁, t.insertRoot
      (newRoot p draw.computedAt ent day (readDayEvents t ent day) rootHash) = some t₁ :=
    ⟨_, dif_neg hkey⟩
  have hroots := (insertRoot_some hins).2.2
  refine ⟨t₁.bumpPublishedDay ent day draw.computedAt.iso, ?_, hroots⟩
  unfold computeRootForDay
  simp only [hnone, hroot, hok, hins, Bool.false_eq_true, if_false]
  rfl

theorem scheduledRoot_computed (p : Process sch) (day : String) (t : Tables)
    (x : String × RootDraw) :
    Computed p x.2.computedAt x.1 day t (scheduledRoot p day t x) := by
  have hcomp := computeRootForDay_computed p x.2 t x.1 day
  unfold scheduledRoot
  split
  · next t' r heq =>
      rw [heq] at hcomp
      exact hcomp
  · exact .same ..

/-- A computation that returns is kept. -/
theorem scheduledRoot_of_some {p : Process sch} {draw : RootDraw} {t t' : Tables}
    {ent day : String} {r : RootRow} (h : computeRootForDay p draw t ent day = (t', some r)) :
    scheduledRoot p day t (ent, draw) = t' := by
  rw [scheduledRoot, h]

/-! ## The invariant -/

/-- A root row, while the clock readings `later` are still to come. -/
structure RootRow.Kept (sch : SignatureScheme) (later : List Stamp) (t : Tables) (r : RootRow) :
    Prop where
  computed : ∃ c : Stamp, r.computedAt = c.iso ∧ ∀ s ∈ later, c.num ≤ s.num
  signed : rootSignatureValid sch r.toDict = some none ∨
    rootSignatureValid sch r.toDict = some (some true)
  covers : Stamp.dayEnd r.rootDate < r.computedAt →
    merkleRoot ((readDayEvents t r.enterpriseId r.rootDate).map EventRow.payloadHash) =
      some r.merkleRootHash

/-- The run invariant, while the clock readings `later` are still to come. -/
structure RootInv (sch : SignatureScheme) (later : List Stamp) (t : Tables) : Prop where
  chain : ChainInv t
  stamped : ∀ e ∈ t.events, ∃ s : Stamp, e.ts = s.iso
  roots : ∀ r ∈ t.roots, r.Kept sch later t

theorem RootRow.Kept.mono {later later' : List Stamp} {t : Tables} {r : RootRow}
    (h : r.Kept sch later' t) (hsub : ∀ s ∈ later, s ∈ later') : r.Kept sch later t where
  computed := by
    obtain ⟨c, hc, hle⟩ := h.computed
    exact ⟨c, hc, fun s hs => hle s (hsub s hs)⟩
  signed := h.signed
  covers := h.covers

theorem RootInv.mono {later later' : List Stamp} {t : Tables} (h : RootInv sch later' t)
    (hsub : ∀ s ∈ later, s ∈ later') : RootInv sch later t where
  chain := h.chain
  stamped := h.stamped
  roots r hr := (h.roots r hr).mono hsub

theorem rootInv_empty (later : List Stamp) : RootInv sch later Tables.empty where
  chain := chainInv_empty
  stamped _ h := absurd h List.not_mem_nil
  roots _ h := absurd h List.not_mem_nil

/-- The signature a new root carries is valid. -/
theorem newRoot_signed (p : Process sch) (c : Stamp) (ent day : String) (events : List EventRow)
    (rootHash : String) :
    rootSignatureValid sch (newRoot p c ent day events rootHash).toDict = some none ∨
      rootSignatureValid sch (newRoot p c ent day events rootHash).toDict = some (some true) := by
  unfold rootSignatureValid
  split
  · refine .inr ?_
    cases hkey : p.privkey with
    | none =>
        next htruthy =>
        simp [newRoot, signCanonicalBytes, hkey, RootRow.toDict, PyVal.ofOption,
          PyVal.truthy] at htruthy
    | some pk =>
        simp only [newRoot, signCanonicalBytes, hkey, RootRow.toDict, PyVal.ofOption, PyVal.asStr,
          Option.bind_eq_bind, Option.bind_some]
        exact congrArg (fun b => some (some b)) (verifyRaw_signRaw sch pk _)
  · exact .inl rfl

/-- An event outside a day's window does not change the day's events. -/
theorem readDayEvents_append {t t' : Tables} {e : EventRow} {ent day : String}
    (h : t'.events = t.events ++ [e])
    (hout : ¬ (Stamp.dayStart day ≤ e.ts ∧ e.ts ≤ Stamp.dayEnd day)) :
    readDayEvents t' ent day = readDayEvents t ent day := by
  rw [readDayEvents, readDayEvents, Tables.eventsOf_append h]
  split
  · rw [List.filter_append, List.filter_singleton, decide_eq_false hout]
    simp
  · rfl

theorem readDayEvents_congr {t t' : Tables} (h : t'.events = t.events) (ent day : String) :
    readDayEvents t' ent day = readDayEvents t ent day := by
  rw [readDayEvents, readDayEvents, Tables.eventsOf, Tables.eventsOf, h]

/-- Recording keeps the invariant: the event is later than every day already sealed. -/
theorem RootInv.record {p : Process sch} {call : RecordCall} {draw : Draw} {later : List Stamp}
    {t t' : Tables} (h : RootInv sch (draw.now :: later) t)
    (happ : appendEvent p { call with ts := none } draw t = some t') : RootInv sch later t' := by
  obtain ⟨hevents, -, hroots⟩ := appendEvent_eventsOf happ
  have hts : ∀ prev, (newEvent p { call with ts := none } draw prev).ts = draw.now.iso :=
    fun _ => rfl
  refine ⟨h.chain.append happ, fun e he => ?_, fun r hr => ?_⟩
  · rw [hevents, List.mem_append, List.mem_singleton] at he
    rcases he with he | rfl
    · exact h.stamped e he
    · exact ⟨draw.now, hts _⟩
  · rw [hroots] at hr
    have hkept := h.roots r hr
    obtain ⟨c, hc, hle⟩ := hkept.computed
    refine ⟨⟨c, hc, fun s hs => hle s (List.mem_cons_of_mem _ hs)⟩, hkept.signed, fun hover => ?_⟩
    rw [readDayEvents_append hevents ?_]
    · exact hkept.covers hover
    · rintro ⟨-, hend⟩
      rw [hts] at hend
      rw [hc] at hover
      have hnow : c.iso ≤ draw.now.iso := Stamp.iso_le_iso.mpr (hle _ (List.mem_cons_self ..))
      exact absurd (lt_of_lt_of_le hover hnow) (not_lt.mpr hend)

/-- A computation leaves the chains alone. -/
theorem ChainInv.computed {p : Process sch} {c : Stamp} {ent day : String} {t t' : Tables}
    (h : ChainInv t) (hcomp : Computed p c ent day t t') : ChainInv t' := by
  have hof : ∀ ent', t'.eventsOf ent' = t.eventsOf ent' := fun ent' => by
    rw [Tables.eventsOf, Tables.eventsOf, hcomp.events]
  refine ⟨fun ent' => by rw [hof]; exact h.linked ent', fun ent' => ?_, fun e he => ?_⟩
  · rw [hcomp.last, hof]
    exact h.last ent'
  · exact h.genuine e (hcomp.events ▸ he)

/-- Computing keeps the invariant: the new root covers the events of the moment. -/
theorem RootInv.compute {p : Process sch} {c : Stamp} {ent day : String} {later : List Stamp}
    {t t' : Tables} (h : RootInv sch later t) (hc : ∀ s ∈ later, c.num ≤ s.num)
    (hcomp : Computed p c ent day t t') : RootInv sch later t' := by
  have hold : ∀ r ∈ t.roots, r.Kept sch later t' := fun r hr =>
    { computed := (h.roots r hr).computed
      signed := (h.roots r hr).signed
      covers := fun hover => by
        rw [readDayEvents_congr hcomp.events]
        exact (h.roots r hr).covers hover }
  refine ⟨h.chain.computed hcomp, fun e he => h.stamped e (hcomp.events ▸ he), fun r hr => ?_⟩
  rcases hcomp.roots with heq | ⟨rootHash, hroot, heq⟩
  · exact hold r (heq ▸ hr)
  · rw [heq, List.mem_append, List.mem_singleton] at hr
    rcases hr with hr | rfl
    · exact hold r hr
    · refine ⟨⟨c, rfl, hc⟩, newRoot_signed p c ent day _ rootHash, fun _ => ?_⟩
      rw [readDayEvents_congr hcomp.events]
      exact hroot

/-- A scheduled round keeps the invariant, Enterprise by Enterprise. -/
theorem RootInv.scheduled {p : Process sch} {day : String} {later : List Stamp} :
    ∀ (ids : List String) (draws : List RootDraw) {t : Tables},
      RootInv sch (draws.map RootDraw.computedAt ++ later) t →
      (draws.map RootDraw.computedAt ++ later).Pairwise (fun s s' => s.num ≤ s'.num) →
        RootInv sch later ((ids.zip draws).foldl (scheduledRoot p day) t)
  | [], _, _, h, _ => h.mono fun s hs => List.mem_append_right _ hs
  | _ :: _, [], _, h, _ => h
  | id :: ids, draw :: draws, t, h, hclock => by
      simp only [List.zip_cons_cons, List.foldl_cons]
      simp only [List.map_cons, List.cons_append] at h hclock
      obtain ⟨hhead, htail⟩ := List.pairwise_cons.mp hclock
      refine RootInv.scheduled ids draws ?_ htail
      exact (h.mono fun s hs => List.mem_cons_of_mem _ hs).compute hhead
        (scheduledRoot_computed p day t (id, draw))

/-- One step keeps the invariant. -/
theorem dayStep_inv (p : Process sch) {t : Tables} (op : DayOp) {later : List Stamp}
    (hclock : (op.readings ++ later).Pairwise fun s s' => s.num ≤ s'.num)
    (h : RootInv sch (op.readings ++ later) t) : RootInv sch later (dayStep p t op) := by
  cases op with
  | record call draw =>
      rcases dayStep_record p t call draw with heq | happ
      · rw [heq]
        exact h.mono fun s hs => List.mem_append_right _ hs
      · refine RootInv.record (h.mono fun s hs => ?_) happ
        rcases List.mem_cons.mp hs with rfl | hs
        · simp [DayOp.readings]
        · exact List.mem_append_right _ hs
  | scheduled woke draws =>
      simp only [DayOp.readings, List.cons_append] at h hclock
      unfold dayStep
      dsimp only
      split
      · exact h.mono fun s hs => List.mem_cons_of_mem _ (List.mem_append_right _ hs)
      · exact RootInv.scheduled _ _ (h.mono fun s hs => List.mem_cons_of_mem _ hs)
          (List.pairwise_cons.mp hclock).2
  | compute ent day draw =>
      simp only [DayOp.readings, List.singleton_append] at h hclock
      exact (h.mono fun s hs => List.mem_cons_of_mem _ hs).compute
        (List.pairwise_cons.mp hclock).1 (computeRootForDay_computed p draw t ent day)

/-- The chains of a run are sound whatever its clock does. -/
theorem runDays_chain (p : Process sch) (ops : List DayOp) : ChainInv (runDays p ops) := by
  refine List.foldlRecOn ops (dayStep p) chainInv_empty fun t h op _ => ?_
  cases op with
  | record call draw =>
      rcases dayStep_record p t call draw with heq | happ
      · rw [heq]
        exact h
      · exact h.append happ
  | scheduled woke draws =>
      unfold dayStep
      dsimp only
      split
      · exact h
      · exact List.foldlRecOn (motive := ChainInv) _ _ h
          fun t ht x _ => ht.computed (scheduledRoot_computed p _ t x)
  | compute ent day draw => exact h.computed (computeRootForDay_computed p draw t ent day)

/-- Every run keeps the invariant, from whatever state and to whatever end. -/
theorem foldl_dayStep_inv (p : Process sch) (later : List Stamp) :
    ∀ (ops : List DayOp) {t : Tables},
      (ops.flatMap DayOp.readings ++ later).Pairwise (fun s s' => s.num ≤ s'.num) →
      RootInv sch (ops.flatMap DayOp.readings ++ later) t →
        RootInv sch later (ops.foldl (dayStep p) t)
  | [], _, _, h => h
  | op :: ops, t, hclock, h => by
      simp only [List.flatMap_cons, List.append_assoc] at hclock h
      exact foldl_dayStep_inv p later ops (List.pairwise_append.mp hclock).2.1
        (dayStep_inv p op hclock h)

/-- No step removes a root. -/
theorem mem_roots_dayStep (p : Process sch) {t : Tables} {r : RootRow} (op : DayOp)
    (h : r ∈ t.roots) : r ∈ (dayStep p t op).roots := by
  have hcomp : ∀ {c ent day} {t t' : Tables}, Computed p c ent day t t' → r ∈ t.roots →
      r ∈ t'.roots := by
    intro c ent day t t' hcomp h
    rcases hcomp.roots with heq | ⟨rootHash, -, heq⟩
    · rwa [heq]
    · rw [heq]
      exact List.mem_append_left _ h
  cases op with
  | record call draw =>
      rcases dayStep_record p t call draw with heq | happ
      · rwa [heq]
      · rw [(appendEvent_eventsOf happ).2.2]
        exact h
  | scheduled woke draws =>
      unfold dayStep
      dsimp only
      split
      · exact h
      · exact List.foldlRecOn (motive := fun t => r ∈ t.roots) _ _ h
          fun t ht x _ => hcomp (scheduledRoot_computed p _ t x) ht
  | compute ent day draw => exact hcomp (computeRootForDay_computed p draw t ent day) h

/-! ## Coverage -/

/-- The dict a root's verification needs of the row itself. -/
theorem RootRow.Kept.verifies {later : List Stamp} {t : Tables} {r : RootRow}
    (h : r.Kept sch later t) (hover : Stamp.dayEnd r.rootDate < r.computedAt) :
    (verifyRoot sch r.toDict ((readDayEvents t r.enterpriseId r.rootDate).map
      EventRow.toDict)).map RootReport.ok = some true := by
  refine verifyRoot_ok_iff.mpr ⟨r.merkleRootHash, ?_, rfl, h.signed⟩
  rw [← h.covers hover, List.filterMap_map]
  congr 1
  exact List.filterMap_eq_map_iff_forall_eq_some.mpr fun e _ => rfl

theorem mem_events_of_readDayEvents {t : Tables} {ent day : String} {e : EventRow}
    (h : e ∈ readDayEvents t ent day) : e ∈ t.events := by
  rw [readDayEvents, (readingOrder_perm _).mem_iff, List.mem_filter] at h
  exact (Tables.mem_eventsOf.mp h.1).1

/-- A timestamp on the day is in the day's window. -/
theorem mem_readDayEvents {t : Tables} {ent day : String} {e : EventRow} (he : e ∈ t.events)
    (hent : e.enterpriseId = ent) {s : Stamp} (hts : e.ts = s.iso) (hday : s.date.iso = day) :
    e ∈ readDayEvents t ent day := by
  rw [readDayEvents, (readingOrder_perm _).mem_iff, List.mem_filter]
  refine ⟨Tables.mem_eventsOf.mpr ⟨he, hent⟩, decide_eq_true ?_⟩
  rw [hts]
  exact (Stamp.inWindow_iff s day).mpr hday

/-- A scheduled round inserts only roots of a day that is over. -/
theorem scheduled_roots_over (p : Process sch) {yesterday : Date} {woke : Stamp}
    (hpred : woke.date.pred = some yesterday) :
    ∀ (ids : List String) (draws : List RootDraw) (t : Tables),
      (∀ draw ∈ draws, woke.num ≤ draw.computedAt.num) →
      ∀ r ∈ ((ids.zip draws).foldl (scheduledRoot p yesterday.iso) t).roots,
        r ∈ t.roots ∨ Stamp.dayEnd r.rootDate < r.computedAt
  | [], _, _, _, r, hr => .inl hr
  | _ :: _, [], _, _, r, hr => .inl hr
  | id :: ids, draw :: draws, t, hdraws, r, hr => by
      simp only [List.zip_cons_cons, List.foldl_cons] at hr
      rcases scheduled_roots_over p hpred ids draws _
        (fun d hd => hdraws d (List.mem_cons_of_mem _ hd)) r hr with hr | hover
      · rcases (scheduledRoot_computed p yesterday.iso t (id, draw)).roots with
          heq | ⟨rootHash, -, heq⟩
        · exact .inl (heq ▸ hr)
        · rw [heq, List.mem_append, List.mem_singleton] at hr
          rcases hr with hr | rfl
          · exact .inl hr
          · refine .inr ?_
            have hwoke := hdraws draw (List.mem_cons_self ..)
            have hday := Date.pred_lt hpred
            have hend : (Stamp.endOf yesterday).num < draw.computedAt.num := by
              simp only [Stamp.num, Stamp.endOf] at hwoke ⊢
              omega
            exact (Stamp.dayEnd_iso yesterday).symm ▸ Stamp.iso_lt_iso.mpr hend
      · exact .inr hover

/-- Midnight after the day of the sample event. -/
def sampleMidnight : Stamp where
  date := ⟨2026, 5, 2, Written.year_ge, Written.year_le, Written.may_ge, Written.may_le,
      Written.second_ge, Written.may_second_le⟩
  hour := 0
  minute := 0
  second := 0
  hour_lt := Written.hour_zero
  minute_lt := Written.sixtieth_zero
  second_lt := Written.sixtieth_zero

/-- A computation whose statements succeed. -/
def drawAt (computedAt : Stamp) : RootDraw := ⟨computedAt, fun _ => false⟩

/-- A day with one event. -/
def eventDay : List DayOp := [.record sampleCall (sampleDraw [2])]

/-- The day, and its root from the scheduled round at midnight. -/
def pastDay : List DayOp := eventDay ++ [.scheduled sampleMidnight [drawAt sampleMidnight]]

theorem sample_merkleRoot :
    merkleRoot [sampleFirst.payloadHash] = some sampleFirst.payloadHash :=
  @merkleRoot_digests [sha256 (utf8 sampleFirst.payloadCanonical)] (by simp)

theorem pastDay_eq : runDays sampleProcess pastDay =
    scheduledRoot sampleProcess sampleDate.iso (runDays sampleProcess eventDay)
      ("acme", drawAt sampleMidnight) := by
  have hpred : sampleMidnight.date.pred = some sampleDate := by decide
  have hids : allEnterpriseIds (runDays sampleProcess eventDay) = ["acme"] := rfl
  rw [pastDay, runDays_concat, dayStep, hpred]
  dsimp only
  rw [hids, List.zip_cons_cons, List.zip_nil_left, List.foldl_cons, List.foldl_nil]

theorem pastDay_roots :
    newRoot sampleProcess sampleMidnight "acme" sampleDate.iso [sampleFirst]
      sampleFirst.payloadHash ∈ (runDays sampleProcess pastDay).roots := by
  have hevents : readDayEvents (runDays sampleProcess eventDay) "acme" sampleDate.iso =
      [sampleFirst] := rfl
  have hnone : existingRoot (runDays sampleProcess eventDay) "acme" sampleDate.iso = none := rfl
  have hok : ∀ stage, (drawAt sampleMidnight).fails stage = false := fun _ => rfl
  obtain ⟨t', heq, hroots⟩ := computeRootForDay_fresh sampleProcess hnone
    (by rw [hevents]; exact sample_merkleRoot) hok
  rw [pastDay_eq, scheduledRoot_of_some heq, hroots, hevents]
  exact List.mem_append_right _ (List.mem_singleton_self _)

/-- The admin trigger for the day under way, and an event after it. -/
def dayUnderWay : List DayOp :=
  [.compute "acme" "2026-05-01" (drawAt sampleStamp), .record sampleCall (sampleDraw [2])]

theorem dayUnderWay_roots : (runDays sampleProcess dayUnderWay).roots =
    [newRoot sampleProcess sampleStamp "acme" "2026-05-01" [] emptyDayRoot] := rfl

theorem dayUnderWay_events :
    readDayEvents (runDays sampleProcess dayUnderWay) "acme" "2026-05-01" = [sampleFirst] := rfl

theorem emptyDayRoot_ne_sample : emptyDayRoot ≠ sampleFirst.payloadHash := by
  rw [sampleFirst_hash]
  decide +kernel

end EighthLayer.Reputation
