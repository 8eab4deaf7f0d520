import EighthLayer.Lib.Sha256Nat
import EighthLayer.Reputation.Record

/-!
# EighthLayer.Reputation.Chain

Runs of `record_event` on one connection, mixed with everything the caller may
do with its transaction. `ChainInv` ties the event table to the chain-meta table
for every Enterprise at once; `Conn.Holds ChainInv` is the run invariant, which
covers the contents a later rollback would bring back.
-/

namespace EighthLayer.Reputation

open Lib Lib.HashChain

variable {sch : SignatureScheme}

/-! ## The invariant -/

/-- A row as `record_event` writes it: its payload text holds its columns, and
its hash is the hash of that text. -/
def EventRow.Genuine (e : EventRow) : Prop :=
  ∃ body, e.payloadCanonical = canonicalPayload (eventPayload e.eventId e.eventType
      e.enterpriseId e.l2Id e.ts e.prevEventHash body) ∧
    e.payloadHash = computePayloadHash (utf8 e.payloadCanonical)

/-- The events of an Enterprise form one linked log from the genesis hash. -/
abbrev IsChain (l : List EventRow) : Prop :=
  Linked EventRow.prevEventHash EventRow.payloadHash genesisPrevHash l

/-- The two tables agree: each Enterprise's events are a linked log whose last
event is the one its chain-meta row names. -/
structure ChainInv (t : Tables) : Prop where
  linked : ∀ ent, IsChain (t.eventsOf ent)
  last : ∀ ent, (t.metaOf ent).map (fun m => (m.lastEventId, m.lastEventHash)) =
    (t.eventsOf ent).getLast?.map fun e => (some e.eventId, e.payloadHash)
  genuine : ∀ e ∈ t.events, e.Genuine

theorem chainInv_empty : ChainInv Tables.empty where
  linked _ := trivial
  last _ := rfl
  genuine _ h := absurd h List.not_mem_nil

theorem newEvent_genuine (p : Process sch) (call : RecordCall) (draw : Draw) (prev : String) :
    (newEvent p call draw prev).Genuine := ⟨call.body, rfl, rfl⟩

/-- The hash a call reads from the chain-meta row is the tip of the log. -/
theorem ChainInv.readChainMeta_tip {t : Tables} (h : ChainInv t) (ent : String) :
    (t.readChainMeta ent).2 = tip EventRow.payloadHash genesisPrevHash (t.eventsOf ent) := by
  have hlast := h.last ent
  rw [tip_eq_getLast?]
  unfold Tables.readChainMeta
  cases hm : t.metaOf ent with
  | none =>
      rw [hm] at hlast
      cases hl : (t.eventsOf ent).getLast? with
      | none => rfl
      | some e => rw [hl] at hlast; cases hlast
  | some m =>
      rw [hm] at hlast
      cases hl : (t.eventsOf ent).getLast? with
      | none => rw [hl] at hlast; cases hlast
      | some e =>
          rw [hl] at hlast
          exact (Prod.mk.inj (Option.some.inj hlast)).2

/-- What appending an event does to each Enterprise's log. -/
theorem appendEvent_eventsOf {p : Process sch} {call : RecordCall} {draw : Draw} {t t' : Tables}
    (h : appendEvent p call draw t = some t') :
    t'.events = t.events ++ [newEvent p call draw (t.readChainMeta (call.enterprise p)).2] ∧
      (∀ ent, t'.metaOf ent =
        if ent = call.enterprise p then
          some ⟨ent, some (makeEventId draw.random),
            (newEvent p call draw (t.readChainMeta ent).2).payloadHash,
            (t.metaOf ent).bind ChainMeta.lastRootPublishedDay, draw.updatedAt.iso⟩
        else t.metaOf ent) ∧
      t'.roots = t.roots := by
  unfold appendEvent at h
  cases hins : t.insertEvent
      (newEvent p call draw (t.readChainMeta (call.enterprise p)).2) with
  | none => simp only [hins, Option.map_none, reduceCtorEq] at h
  | some t₁ =>
      simp only [hins, Option.map_some, Option.some.injEq] at h
      subst h
      obtain ⟨-, hevents, hmeta, hroots⟩ := Tables.insertEvent_some hins
      have hmetaOf : ∀ ent, t₁.metaOf ent = t.metaOf ent := fun ent => by
        rw [Tables.metaOf, Tables.metaOf, hmeta]
      refine ⟨by rw [Tables.upsertChainMeta_events, hevents], fun ent => ?_,
        by rw [Tables.upsertChainMeta_roots, hroots]⟩
      split
      · next heq =>
          subst heq
          rw [Tables.metaOf_upsertChainMeta_self, hmetaOf]
          rfl
      · next hne => rw [Tables.metaOf_upsertChainMeta_other _ _ _ _ hne, hmetaOf]

/-- **Appending keeps the invariant**, of the Enterprise written to and of every other. -/
theorem ChainInv.append {p : Process sch} {call : RecordCall} {draw : Draw} {t t' : Tables}
    (h : ChainInv t) (happ : appendEvent p call draw t = some t') : ChainInv t' := by
  obtain ⟨hevents, hmeta, -⟩ := appendEvent_eventsOf happ
  refine ⟨fun ent => ?_, fun ent => ?_, fun e he => ?_⟩
  · rw [Tables.eventsOf_append hevents]
    split
    · next heq =>
        refine (h.linked ent).snoc ?_
        rw [← h.readChainMeta_tip ent, ← heq]
        rfl
    · exact h.linked ent
  · rw [Tables.eventsOf_append hevents, hmeta]
    by_cases heq : ent = call.enterprise p
    · have hrow : (newEvent p call draw (t.readChainMeta (call.enterprise p)).2).enterpriseId =
          ent := heq.symm
      rw [if_pos heq, if_pos hrow, List.getLast?_append, heq]
      rfl
    · have hrow : (newEvent p call draw (t.readChainMeta (call.enterprise p)).2).enterpriseId ≠
          ent := fun hent => heq hent.symm
      rw [if_neg heq, if_neg hrow]
      exact h.last ent
  · rw [hevents, List.mem_append, List.mem_singleton] at he
    rcases he with he | rfl
    · exact h.genuine e he
    · exact newEvent_genuine p call draw _

/-! ## Runs -/

/-- What happens on the connection: calls, and the caller's own statements. -/
inductive Op (α : Type) where
  | record (call : RecordCall) (draw : Draw)
  | begin
  | write (f : α → α)
  | savepoint (name : String)
  | rollbackTo (name : String)
  | release (name : String)
  | commit
  | rollback

variable {α : Type}

/-- One step. A statement naming a savepoint that is not open has no effect. -/
def step (p : Process sch) (c : Conn (α × Tables)) : Op α → Conn (α × Tables)
  | .record call draw => (recordEvent p call draw c).1
  | .begin => c.begin
  | .write f => c.write fun d => (f d.1, d.2)
  | .savepoint name => c.savepoint name
  | .rollbackTo name => (c.rollbackTo name).getD c
  | .release name => (c.release name).getD c
  | .commit => c.commit
  | .rollback => c.rollback

/-- A run, from a connection to a store without events. -/
def run (p : Process sch) (a : α) (ops : List (Op α)) : Conn (α × Tables) :=
  ops.foldl (step p) (Conn.fresh (a, Tables.empty))

/-- The invariant of everything a connection may publish or restore. -/
abbrev Sound (c : Conn (α × Tables)) : Prop := c.Holds fun d => ChainInv d.2

/-- One step keeps the invariant. -/
theorem step_sound (p : Process sch) {c : Conn (α × Tables)} (h : Sound c) (op : Op α) :
    Sound (step p c op) := by
  cases op with
  | record call draw =>
      rcases recordEvent_cases p call draw c with heq | ⟨t, c', happ, heq, hcur, -, hsp, hcom⟩
      · rw [step, heq]
        exact h
      · rw [step, heq]
        have hinv : ChainInv t := h.current.append happ
        refine ⟨?_, by rw [hcur]; exact hinv, by rw [hsp]; exact h.savepoints⟩
        rw [hcom]
        split
        · exact hinv
        · exact h.committed
  | begin => exact h.begin
  | write f => exact Conn.Holds.write (f := fun d => (f d.1, d.2)) h h.current
  | savepoint name => exact h.savepoint name
  | rollbackTo name =>
      rw [step]
      cases hc : c.rollbackTo name with
      | none => exact h
      | some c' => exact h.rollbackTo hc
  | release name =>
      rw [step]
      cases hc : c.release name with
      | none => exact h
      | some c' => exact h.release hc
  | commit => exact h.commit
  | rollback => exact h.rollback

/-- Every run keeps the invariant. -/
theorem run_sound (p : Process sch) (a : α) (ops : List (Op α)) : Sound (run p a ops) :=
  List.foldlRecOn ops (step p) (Conn.holds_fresh chainInv_empty)
    fun _ h op _ => step_sound p h op

/-! ## Distinct events have distinct payloads -/

/-- SHA-256 does not collide on the payload texts of the rows, and maps none of
them to the genesis value. -/
structure CollisionFree (rows : List EventRow) : Prop where
  sha : CollisionFreeOn sha256 fun m => ∃ e ∈ rows, m = utf8 e.payloadCanonical
  genesis : ∀ e ∈ rows, computePayloadHash (utf8 e.payloadCanonical) ≠ genesisPrevHash

/-- A payload text determines the strings it was built from. -/
theorem eventPayload_inj {i ty en l ts pr i' ty' en' l' ts' pr' : String}
    {b b' : List (String × Json)}
    (h : canonicalPayload (eventPayload i ty en l ts pr b) =
      canonicalPayload (eventPayload i' ty' en' l' ts' pr' b')) :
    i = i' ∧ ty = ty' ∧ en = en' ∧ l = l' ∧ ts = ts' ∧ pr = pr' := by
  have hvalue : ∀ {k s s' : String}, (k, Json.str s) ∈ eventMembers i ty en l ts pr b →
      (k, Json.str s') ∈ eventMembers i' ty' en' l' ts' pr' b' → s = s' := by
    intro k s s' hs hs'
    have hsort := Json.dumps_obj_value h (eventMembers_keys ..) hs hs'
    exact Json.str.inj hsort
  exact ⟨hvalue (k := "event_id") (by simp [eventMembers]) (by simp [eventMembers]),
    hvalue (k := "event_type") (by simp [eventMembers]) (by simp [eventMembers]),
    hvalue (k := "enterprise_id") (by simp [eventMembers]) (by simp [eventMembers]),
    hvalue (k := "l2_id") (by simp [eventMembers]) (by simp [eventMembers]),
    hvalue (k := "ts") (by simp [eventMembers]) (by simp [eventMembers]),
    hvalue (k := "prev_event_hash") (by simp [eventMembers]) (by simp [eventMembers])⟩

/-- Genuine rows of one hash have one payload text, event id and predecessor. -/
theorem CollisionFree.of_payloadHash {rows : List EventRow} (h : CollisionFree rows)
    {x y : EventRow} (hx : x ∈ rows) (hy : y ∈ rows) (gx : x.Genuine) (gy : y.Genuine)
    (heq : x.payloadHash = y.payloadHash) :
    x.payloadCanonical = y.payloadCanonical ∧ x.eventId = y.eventId ∧
      x.prevEventHash = y.prevEventHash := by
  obtain ⟨bx, htx, hhx⟩ := gx
  obtain ⟨byy, hty, hhy⟩ := gy
  rw [hhx, hhy] at heq
  have htext : x.payloadCanonical = y.payloadCanonical :=
    utf8_injective (h.sha _ _ ⟨x, hx, rfl⟩ ⟨y, hy, rfl⟩ (computePayloadHash_inj heq))
  have hfields := eventPayload_inj (htx.symm.trans (htext.trans hty))
  exact ⟨htext, hfields.1, hfields.2.2.2.2.2⟩

theorem ChainInv.noCollision {t : Tables} (h : ChainInv t) (hfree : CollisionFree t.events)
    (ent : String) : NoCollision EventRow.payloadHash genesisPrevHash (t.eventsOf ent) where
  inj x y hx hy heq := by
    have hx' := (Tables.mem_eventsOf.mp hx).1
    have hy' := (Tables.mem_eventsOf.mp hy).1
    obtain ⟨-, hid, -⟩ := hfree.of_payloadHash hx' hy' (h.genuine x hx') (h.genuine y hy') heq
    exact List.inj_on_of_nodup_map t.events_pk hx' hy' hid
  ne_genesis e he := by
    have he' := (Tables.mem_eventsOf.mp he).1
    obtain ⟨body, -, hhash⟩ := h.genuine e he'
    rw [hhash]
    exact hfree.genesis e he'

/-- **One chain per Enterprise.** After every run, whatever failed, committed or
was rolled back on the way, the committed events of each Enterprise are a linked
log, unforked as long as SHA-256 does not collide on them, whose last event is
the one its chain-meta row names; and a call that failed left the connection,
the caller's own pending writes included, exactly as it was. -/
theorem record_event_chain (p : Process sch) (a : α) (ops : List (Op α))
    (hfree : CollisionFree (run p a ops).committed.2.events) :
    (∀ ent, IsChain ((run p a ops).committed.2.eventsOf ent) ∧
      Unforked EventRow.prevEventHash EventRow.payloadHash genesisPrevHash
        ((run p a ops).committed.2.eventsOf ent) ∧
      ((run p a ops).committed.2.metaOf ent).map (fun m => (m.lastEventId, m.lastEventHash)) =
        ((run p a ops).committed.2.eventsOf ent).getLast?.map
          fun e => (some e.eventId, e.payloadHash)) ∧
    ∀ (before : List (Op α)) (call : RecordCall) (draw : Draw),
      (recordEvent p call draw (run p a before)).2 = none →
        (recordEvent p call draw (run p a before)).1 = run p a before := by
  have hinv : ChainInv (run p a ops).committed.2 := (run_sound p a ops).committed
  refine ⟨fun ent => ⟨hinv.linked ent, ?_, hinv.last ent⟩, fun before call draw hfail => ?_⟩
  · exact (hinv.linked ent).unforked (hinv.noCollision hfree ent)
  · rcases recordEvent_cases p call draw (run p a before) with heq | ⟨t, c', -, heq, -⟩
    · rw [heq]
    · rw [heq] at hfail
      cases hfail

/-! ### A closed run

Two calls in one second, the later one with the smaller event id. -/

/-- Genuine rows of distinct hashes, none of them the genesis value, are free of collisions. -/
theorem collisionFree_of_hashes {rows : List EventRow} (hgenuine : ∀ e ∈ rows, e.Genuine)
    (hnodup : (rows.map EventRow.payloadHash).Nodup)
    (hgen : genesisPrevHash ∉ rows.map EventRow.payloadHash) : CollisionFree rows where
  sha := by
    rintro m n ⟨e, he, rfl⟩ ⟨f, hf, rfl⟩ heq
    obtain ⟨be, -, hhe⟩ := hgenuine e he
    obtain ⟨bf, -, hhf⟩ := hgenuine f hf
    have hhash : e.payloadHash = f.payloadHash := by
      rw [hhe, hhf, computePayloadHash, computePayloadHash, heq]
    rw [List.inj_on_of_nodup_map hnodup he hf hhash]
  genesis e he heq := by
    obtain ⟨be, -, hhe⟩ := hgenuine e he
    exact hgen (List.mem_map.mpr ⟨e, he, by rw [hhe, heq]⟩)

/-- A run of calls, as steps. -/
def recordOps (calls : List (RecordCall × Draw)) : List (Op Unit) :=
  calls.map fun x => .record x.1 x.2

def sampleDate : Date :=
  ⟨2026, 5, 1, Written.year_ge, Written.year_le, Written.may_ge, Written.may_le,
      Written.first_ge, Written.may_first_le⟩

def sampleStamp : Stamp :=
  ⟨sampleDate, 9, 30, 0, Written.hour_nine, Written.sixtieth_thirty, Written.sixtieth_zero⟩

def sampleProcess : Process SignatureScheme.transparent where
  env := ⟨fun _ => none⟩
  privkey := some (List.replicate 32 7)

def sampleCall : RecordCall where
  eventType := "ku.event"
  body := []
  enterpriseId := some "acme"
  l2Id := some "acme/eng"
  ts := none

def sampleDraw (random : Bytes) : Draw where
  random := random
  now := sampleStamp
  createdAt := sampleStamp
  updatedAt := sampleStamp
  fails _ := false

def sampleCalls : List (RecordCall × Draw) :=
  [(sampleCall, sampleDraw [2]), (sampleCall, sampleDraw [1])]

/-- The first event of the sample run. -/
def sampleFirst : EventRow := newEvent sampleProcess sampleCall (sampleDraw [2]) genesisPrevHash

/-- The second event of the sample run. -/
def sampleSecond : EventRow :=
  newEvent sampleProcess sampleCall (sampleDraw [1]) sampleFirst.payloadHash

theorem sample_events : (run sampleProcess () (recordOps sampleCalls)).committed.2.events =
    [sampleFirst, sampleSecond] := rfl

/-- A payload's hash, from the characters of its text. -/
theorem computePayloadHash_print (payload : Json) :
    computePayloadHash (canonicalPayloadBytes payload) = "sha256:" ++ String.ofList
      (hex (sha256Nat (payload.sortKeys.print.flatMap String.utf8EncodeChar))) := by
  rw [computePayloadHash, sha256_eq_sha256Nat, canonicalPayloadBytes, utf8_eq_flatMap,
    canonicalPayload, Json.dumps, String.toList_ofList]

set_option maxRecDepth 100000 in
theorem sampleFirst_hash : sampleFirst.payloadHash =
    "sha256:09efb68e38f20bdcc4e6bf96fc718398b9c0f5a799652ebb99dd0cb486274d5c" :=
  (computePayloadHash_print _).trans (by decide +kernel)

set_option maxRecDepth 100000 in
theorem sampleSecond_hash : sampleSecond.payloadHash =
    "sha256:b792ab51b0fb0cdb334045da3365d7a9ce860d3d7188bdba5b78b5bcd9c9b042" := by
  rw [sampleSecond, sampleFirst_hash]
  exact (computePayloadHash_print _).trans (by decide +kernel)

theorem sample_hashes :
    (run sampleProcess () (recordOps sampleCalls)).committed.2.events.map EventRow.payloadHash =
      ["sha256:09efb68e38f20bdcc4e6bf96fc718398b9c0f5a799652ebb99dd0cb486274d5c",
        "sha256:b792ab51b0fb0cdb334045da3365d7a9ce860d3d7188bdba5b78b5bcd9c9b042"] := by
  rw [sample_events, List.map_cons, List.map_singleton, sampleFirst_hash, sampleSecond_hash]

theorem sample_collisionFree :
    CollisionFree (run sampleProcess () (recordOps sampleCalls)).committed.2.events :=
  collisionFree_of_hashes (run_sound sampleProcess () _).committed.genuine
    (by rw [sample_hashes]; decide) (by rw [sample_hashes]; decide)

theorem record_event_chain_sample :
    (run sampleProcess () (recordOps sampleCalls)).committed.2.events.length = 2 ∧
      Unforked EventRow.prevEventHash EventRow.payloadHash genesisPrevHash
        ((run sampleProcess () (recordOps sampleCalls)).committed.2.eventsOf "acme") :=
  ⟨by simpa using congrArg List.length sample_hashes,
    ((record_event_chain sampleProcess () _ sample_collisionFree).1 "acme").2.1⟩

end EighthLayer.Reputation
