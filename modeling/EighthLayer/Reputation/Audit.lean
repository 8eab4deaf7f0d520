import EighthLayer.Reputation.Verifier

/-!
# EighthLayer.Reputation.Audit

What the verifier's checks say about a log that `record_event` wrote: when the
log verifies in the order readers list it, and what a list that passes every
check and ends like the log can be.
-/

namespace EighthLayer.Reputation

open Lib Lib.HashChain

variable {sch : SignatureScheme}

/-! ## The reading order against the writing order -/

/-- The pair rows are read by. -/
abbrev ReadKey := String × String

/-- Strictly before in the reading order. -/
def KeyLt (k l : ReadKey) : Prop := k.1 < l.1 ∨ (k.1 = l.1 ∧ k.2 < l.2)

/-- The pair a row is read by. -/
def EventRow.key (e : EventRow) : ReadKey := (e.ts, e.eventId)

/-- The pair a call would write: its timestamp and its event id. -/
def callKey (x : RecordCall × Draw) : ReadKey := (x.1.tsStr x.2, makeEventId x.2.random)

/-- Rows of distinct ids in their reading order are so strictly. -/
theorem keyLt_of_readsBefore {e f : EventRow} (h : e.ReadsBefore f) (hid : e.eventId ≠ f.eventId) :
    KeyLt e.key f.key := by
  rcases h with hlt | ⟨heq, hle⟩
  · exact .inl hlt
  · exact .inr ⟨heq, lt_of_le_of_ne hle hid⟩

theorem readsBefore_of_keyLt {e f : EventRow} (h : KeyLt e.key f.key) : e.ReadsBefore f := by
  rcases h with hlt | ⟨heq, hlt⟩
  · exact .inl hlt
  · exact .inr ⟨heq, le_of_lt hlt⟩

/-- A linked log verifies in reading order exactly when it was written in that order. -/
theorem verifyChain_readingOrder_iff {l : List EventRow} (hlinked : IsChain l)
    (hnc : NoCollision EventRow.payloadHash genesisPrevHash l)
    (hids : (l.map EventRow.eventId).Nodup) :
    (verifyChain ((readingOrder l).map EventRow.toDict)).ok = true ↔
      (l.map EventRow.key).Pairwise KeyLt := by
  have hpairwise : (l.map EventRow.key).Pairwise KeyLt ↔ l.Pairwise EventRow.ReadsBefore := by
    rw [List.pairwise_map]
    refine ⟨fun h => h.imp readsBefore_of_keyLt, fun h => ?_⟩
    have hne : l.Pairwise fun e f => e.eventId ≠ f.eventId := List.pairwise_map.mp hids
    exact (h.and hne).imp fun hef => keyLt_of_readsBefore hef.1 hef.2
  rw [hpairwise]
  constructor
  · intro hok
    have hchain : (readingOrder l).IsChain
        (Follows EventRow.prevEventHash EventRow.payloadHash) := by
      have hdicts := verifyChain_ok_iff.mp hok
      rw [List.isChain_map] at hdicts
      refine hdicts.imp fun e f hef => ?_
      have : PyVal.str f.prevEventHash = PyVal.str e.payloadHash := hef
      exact PyVal.str.inj this
    have heq := hlinked.eq_of_perm_follows hnc (readingOrder_perm l).symm hchain
    rw [heq]
    exact List.pairwise_insertionSort EventRow.ReadsBefore l
  · intro hsorted
    rw [readingOrder, hsorted.insertionSort_eq]
    exact verifyChain_of_linked hlinked

/-- The calls of a run that recorded an event. -/
def recorded {α : Type} (p : Process sch) :
    Conn (α × Tables) → List (RecordCall × Draw) → List (RecordCall × Draw)
  | _, [] => []
  | c, x :: xs =>
    let r := recordEvent p x.1 x.2 c
    if r.2.isSome then x :: recorded p r.1 xs else recorded p r.1 xs

/-- The calls of a run that recorded an event for `ent`. -/
def recordedFor (p : Process sch) (ent : String) (calls : List (RecordCall × Draw)) :
    List (RecordCall × Draw) :=
  (recorded p (Conn.fresh ((), Tables.empty)) calls).filter fun x => x.1.enterprise p = ent

/-- Outside a transaction, a run of calls publishes exactly the events they recorded, in order. -/
theorem foldl_recorded (p : Process sch) (ent : String) :
    ∀ (calls : List (RecordCall × Draw)) (c : Conn (Unit × Tables)), c.tx = .none →
      ((recordOps calls).foldl (step p) c).tx = .none ∧
      (((recordOps calls).foldl (step p) c).current.2.eventsOf ent).map EventRow.key =
        (c.current.2.eventsOf ent).map EventRow.key ++
          ((recorded p c calls).filter fun x => x.1.enterprise p = ent).map callKey
  | [], c, htx => ⟨htx, by simp [recordOps, recorded]⟩
  | (call, draw) :: calls, c, htx => by
      simp only [recordOps, List.map_cons, List.foldl_cons, recorded, step]
      rcases recordEvent_cases p call draw c with heq | ⟨t, c', happ, heq, hcur, htx', -, -⟩
      · rw [heq]
        exact foldl_recorded p ent calls c htx
      · rw [heq]
        obtain ⟨hfin, hkeys⟩ := foldl_recorded p ent calls c' (htx'.trans htx)
        refine ⟨hfin, hkeys.trans ?_⟩
        rw [hcur, Tables.eventsOf_append (appendEvent_eventsOf happ).1]
        have hent : (newEvent p call draw
          (c.current.2.readChainMeta (call.enterprise p)).2).enterpriseId = call.enterprise p := rfl
        by_cases hcall : call.enterprise p = ent
        · rw [hent, if_pos hcall]
          simp [hcall]
          rfl
        · rw [hent, if_neg hcall]
          simp [hcall]

/-- The events an Enterprise's calls left behind, keyed and in order. -/
theorem run_recorded (p : Process sch) (ent : String) (calls : List (RecordCall × Draw)) :
    ((run p () (recordOps calls)).committed.2.eventsOf ent).map EventRow.key =
      (recordedFor p ent calls).map callKey := by
  obtain ⟨htx, hkeys⟩ := foldl_recorded p ent calls (Conn.fresh ((), Tables.empty)) rfl
  have hidle := (run p () (recordOps calls)).idle htx
  rw [← hidle.1]
  exact hkeys

/-- **When the log verifies as read.** After every run of calls, an Enterprise's
events listed by `(ts, event_id)` pass `verify_chain` if and only if the calls
that recorded them had, in the order they ran, strictly increasing pairs of
timestamp and event id. -/
theorem verify_chain_reading_order_iff (p : Process sch) (ent : String)
    (calls : List (RecordCall × Draw))
    (hfree : CollisionFree (run p () (recordOps calls)).committed.2.events) :
    (verifyChain ((readingOrder ((run p () (recordOps calls)).committed.2.eventsOf ent)).map
        EventRow.toDict)).ok = true ↔
      ((recordedFor p ent calls).map callKey).Pairwise KeyLt := by
  have hinv : ChainInv (run p () (recordOps calls)).committed.2 := (run_sound p () _).committed
  rw [← run_recorded, verifyChain_readingOrder_iff (hinv.linked ent) (hinv.noCollision hfree ent)
    (Tables.eventsOf_ids_nodup _ _)]

theorem verify_chain_reading_order_iff_sample :
    (verifyChain ((readingOrder ((run sampleProcess ()
        (recordOps sampleCalls)).committed.2.eventsOf "acme")).map EventRow.toDict)).ok = true ↔
      ((recordedFor sampleProcess "acme" sampleCalls).map callKey).Pairwise KeyLt :=
  verify_chain_reading_order_iff sampleProcess "acme" sampleCalls sample_collisionFree

/-- Two events of one second whose ids sort against the order they were written in. -/
theorem sample_keys : (recordedFor sampleProcess "acme" sampleCalls).map callKey =
    [("2026-05-01T09:30:00Z", "evt_02"), ("2026-05-01T09:30:00Z", "evt_01")] := by
  decide +kernel

theorem sample_not_keyLt :
    ¬ ((recordedFor sampleProcess "acme" sampleCalls).map callKey).Pairwise KeyLt := by
  rw [sample_keys]
  intro h
  rcases (List.pairwise_cons.mp h).1 _ (List.mem_singleton_self _) with hlt | ⟨-, hlt⟩
  · exact absurd hlt (by decide)
  · exact absurd hlt (by decide)

/-- The log of the sample run does not verify as it is read. -/
theorem sample_reading_order_breaks :
    (verifyChain ((readingOrder ((run sampleProcess ()
      (recordOps sampleCalls)).committed.2.eventsOf "acme")).map EventRow.toDict)).ok = false := by
  have hinv : ChainInv (run sampleProcess () (recordOps sampleCalls)).committed.2 :=
    (run_sound sampleProcess () _).committed
  have hiff := verifyChain_readingOrder_iff (hinv.linked "acme")
    (hinv.noCollision sample_collisionFree "acme") (Tables.eventsOf_ids_nodup _ _)
  rw [run_recorded] at hiff
  exact Bool.eq_false_iff.mpr fun hok => sample_not_keyLt (hiff.mp hok)

/-! ## Lists that pass every check -/

/-- The columns the checks read off an event. -/
def EventDict.content (ev : EventDict) : PyVal × PyVal × PyVal :=
  (ev.payloadCanonical, ev.payloadHash, ev.prevEventHash)

/-- The event's payload text is a canonical dict whose own `prev_event_hash` is
the one of the column. -/
def EventDict.EmbedsPrev (ev : EventDict) : Prop :=
  ∃ members prev, ev.payloadCanonical = .str (canonicalPayload (.obj members)) ∧
    (members.map Prod.fst).Nodup ∧ ("prev_event_hash", Json.str prev) ∈ members ∧
    ev.prevEventHash = .str prev

/-- SHA-256 does not collide on the payload texts of the events, and maps none of
them to the genesis value. -/
structure CollisionFreeDicts (events : List EventDict) : Prop where
  sha : CollisionFreeOn sha256 fun m => ∃ ev ∈ events, ev.canonicalBytes = some m
  genesis : ∀ ev ∈ events, ∀ m, ev.canonicalBytes = some m →
    computePayloadHash m ≠ genesisPrevHash

/-- The hash column is the hash of the payload column. -/
def EventDict.Hashed (ev : EventDict) : Prop :=
  ∃ text, ev.payloadCanonical = .str text ∧ ev.payloadHash = .str (computePayloadHash (utf8 text))

theorem EventRow.Genuine.embedsPrev {e : EventRow} (h : e.Genuine) : e.toDict.EmbedsPrev := by
  obtain ⟨body, htext, -⟩ := h
  refine ⟨eventMembers e.eventId e.eventType e.enterpriseId e.l2Id e.ts e.prevEventHash body,
    e.prevEventHash, ?_, eventMembers_keys .., ?_, rfl⟩
  · rw [toDict_payloadCanonical, htext, eventPayload]
  · simp [eventMembers]

theorem EventRow.Genuine.hashed {e : EventRow} (h : e.Genuine) : e.toDict.Hashed := by
  obtain ⟨body, -, hhash⟩ := h
  exact ⟨e.payloadCanonical, rfl, by rw [toDict_payloadHash, hhash]⟩

theorem EventDict.canonicalBytes_of_str {ev : EventDict} {text : String}
    (h : ev.payloadCanonical = .str text) : ev.canonicalBytes = some (utf8 text) := by
  rw [EventDict.canonicalBytes, h]
  rfl

/-- Events of one hash have the same payload, and with it the same predecessor. -/
theorem CollisionFreeDicts.agree {events : List EventDict} (h : CollisionFreeDicts events)
    {x y : EventDict} (hx : x ∈ events) (hy : y ∈ events) (xh : x.Hashed) (yh : y.Hashed)
    (xe : x.EmbedsPrev) (ye : y.EmbedsPrev) (heq : x.payloadHash = y.payloadHash) :
    x.content = y.content ∧ x.prevEventHash = y.prevEventHash := by
  obtain ⟨s, hs, hsh⟩ := xh
  obtain ⟨t, ht, hth⟩ := yh
  have htext : s = t := by
    rw [hsh, hth] at heq
    exact utf8_injective (h.sha _ _ ⟨x, hx, EventDict.canonicalBytes_of_str hs⟩
      ⟨y, hy, EventDict.canonicalBytes_of_str ht⟩ (computePayloadHash_inj (PyVal.str.inj heq)))
  have hpayload : x.payloadCanonical = y.payloadCanonical := by rw [hs, ht, htext]
  have hprev : x.prevEventHash = y.prevEventHash := by
    obtain ⟨ms, pm, hms, -, hpm, hxp⟩ := xe
    obtain ⟨ns, pn, hns, hnodup, hpn, hyp⟩ := ye
    have hdumps : Json.dumps (.obj ms) = Json.dumps (.obj ns) := by
      rw [hms, hns] at hpayload
      exact PyVal.str.inj hpayload
    have hsort := Json.dumps_obj_value hdumps hnodup hpm hpn
    rw [hxp, hyp, Json.str.inj hsort]
  exact ⟨by rw [EventDict.content, EventDict.content, hpayload, heq, hprev], hprev⟩

/-- An unsigned count of zero leaves no unsigned event. -/
theorem unsigned_nil {events : List EventDict}
    (h : (verifyEventSignatures sch events).map SignatureReport.unsignedCount = some 0) :
    events.filter EventDict.unsigned = [] := by
  unfold verifyEventSignatures at h
  cases hbad : collectBad (signatureMatches sch) events with
  | none => rw [hbad] at h; cases h
  | some bad =>
      rw [hbad] at h
      exact List.length_eq_zero_iff.mp (Option.some.inj h)

/-- Dicts whose payload texts are those of collision-free rows. -/
theorem CollisionFree.dicts {rows : List EventRow} (h : CollisionFree rows)
    {events : List EventDict}
    (hsub : ∀ ev ∈ events, ∃ e ∈ rows, ev.payloadCanonical = .str e.payloadCanonical) :
    CollisionFreeDicts events where
  sha := h.sha.mono fun m hm => by
    obtain ⟨ev, hev, hbytes⟩ := hm
    obtain ⟨e, he, htext⟩ := hsub ev hev
    rw [EventDict.canonicalBytes_of_str htext] at hbytes
    exact ⟨e, he, (Option.some.inj hbytes).symm⟩
  genesis ev hev m hm := by
    obtain ⟨e, he, htext⟩ := hsub ev hev
    rw [EventDict.canonicalBytes_of_str htext] at hm
    obtain rfl := Option.some.inj hm
    exact h.genesis e he

/-- A row as a dict that leaves its signature out. -/
def EventRow.unsignedDict (e : EventRow) : EventDict :=
  { e with signatureB64u := none, signingKeyId := none }.toDict

def sampleRows : List EventRow :=
  (run sampleProcess () (recordOps sampleCalls)).committed.2.eventsOf "acme"

theorem sampleRows_genuine : ∀ e ∈ sampleRows, e.Genuine := fun e he =>
  (run_sound sampleProcess () _).committed.genuine e (Tables.mem_eventsOf.mp he).1

theorem sampleRows_length : sampleRows.length = 2 := by
  have hkeys := run_recorded sampleProcess "acme" sampleCalls
  rw [sample_keys] at hkeys
  simpa [sampleRows] using congrArg List.length hkeys

/-- The last event of the sample log, its signature stripped. -/
def strippedTail : List EventDict := (sampleRows.drop 1).map EventRow.unsignedDict

theorem strippedTail_collisionFree :
    CollisionFreeDicts (strippedTail ++ sampleRows.map EventRow.toDict) := by
  refine sample_collisionFree.dicts fun ev hev => ?_
  rcases List.mem_append.mp hev with hev | hev
  · obtain ⟨e, he, rfl⟩ := List.mem_map.mp hev
    exact ⟨e, (Tables.mem_eventsOf.mp (List.mem_of_mem_drop he)).1, rfl⟩
  · obtain ⟨e, he, rfl⟩ := List.mem_map.mp hev
    exact ⟨e, (Tables.mem_eventsOf.mp he).1, rfl⟩

/-- What the stripped tail passes. -/
theorem strippedTail_checks :
    (verifyChain strippedTail).ok = true ∧
      (verifyEventPayloadHashes strippedTail).map PayloadReport.ok = some true ∧
      (verifyEventSignatures SignatureScheme.transparent strippedTail).map SignatureReport.ok =
        some true ∧
      (∀ ev ∈ strippedTail, ev.EmbedsPrev) ∧
      strippedTail.getLast?.map EventDict.payloadHash =
        (sampleRows.map EventRow.toDict).getLast?.map EventDict.payloadHash := by
  obtain ⟨e, f, hrows⟩ := List.length_eq_two.mp sampleRows_length
  have hf : f.Genuine := sampleRows_genuine f (by rw [hrows]; simp)
  have htail : strippedTail = [f.unsignedDict] := by rw [strippedTail, hrows]; rfl
  rw [htail, hrows]
  refine ⟨rfl, verifyEventPayloadHashes_ok_iff.mpr fun ev hev => ?_,
    verifyEventSignatures_ok_iff.mpr fun ev hev => ?_, fun ev hev => ?_, rfl⟩
  · obtain rfl := List.mem_singleton.mp hev
    exact hf.hashed
  · obtain rfl := List.mem_singleton.mp hev
    exact .inl rfl
  · obtain rfl := List.mem_singleton.mp hev
    exact hf.embedsPrev

end EighthLayer.Reputation
