import EighthLayer.Lib.Calendar
import EighthLayer.Lib.Savepoint
import EighthLayer.Reputation.Event

/-!
# EighthLayer.Reputation.Record

`reputation.record_event`, statement by statement on a connection its caller
owns, with a failure possible at each of them. A call either leaves the
connection exactly as it was or appends one event and moves the chain-meta row
(`recordEvent_cases`); everything about runs follows from that and from what
appending does to the tables (`ChainInv.append`).
-/

namespace EighthLayer.Reputation

open Lib Lib.HashChain

variable {sch : SignatureScheme}

/-! ## One call -/

/-- The process that records: its environment and its loaded signing key
(`get_l2_privkey`, `None` when signing is disabled). -/
structure Process (sch : SignatureScheme) where
  env : Environ
  privkey : Option sch.PrivKey

/-- `sign_canonical_bytes`. -/
def signCanonicalBytes (p : Process sch) (canonical : Bytes) : Option String × Option String :=
  match p.privkey with
  | none => (none, none)
  | some pk => (some (signRaw sch pk canonical), some (publicKeyB64u sch pk))

/-- The arguments of `record_event`. -/
structure RecordCall where
  eventType : String
  body : List (String × Json)
  enterpriseId : Option String
  l2Id : Option String
  ts : Option String

/-- Where a call may raise. -/
inductive Stage where
  | savepoint
  | readChainMeta
  /-- Building, canonicalising, hashing and signing the payload. -/
  | prepare
  | insert
  | upsert
  | release
deriving DecidableEq

/-- What a call takes from its surroundings: the random bytes of the event id,
its readings of the clock, and which of its statements fail. -/
structure Draw where
  random : Bytes
  now : Stamp
  createdAt : Stamp
  updatedAt : Stamp
  fails : Stage → Bool

/-- The Enterprise a call writes to. -/
def RecordCall.enterprise (p : Process sch) (call : RecordCall) : String :=
  pyOr call.enterpriseId p.env.enterprise

/-- The timestamp a call writes. -/
def RecordCall.tsStr (call : RecordCall) (draw : Draw) : String := pyOr call.ts draw.now.iso

/-- The row a call inserts after an event of hash `prevEventHash`. -/
def newEvent (p : Process sch) (call : RecordCall) (draw : Draw) (prevEventHash : String) :
    EventRow :=
  let ent := call.enterprise p
  let l2 := pyOr call.l2Id p.env.selfL2Id
  let tsStr := call.tsStr draw
  let eventId := makeEventId draw.random
  let payload := eventPayload eventId call.eventType ent l2 tsStr prevEventHash call.body
  let canonical := canonicalPayloadBytes payload
  let signature := signCanonicalBytes p canonical
  { eventId := eventId, eventType := call.eventType, enterpriseId := ent, l2Id := l2, ts := tsStr
    prevEventHash := prevEventHash, payloadCanonical := canonicalPayload payload
    payloadHash := computePayloadHash canonical
    signatureB64u := signature.1, signingKeyId := signature.2, createdAt := draw.createdAt.iso }

variable {α : Type}

/-- The statements between the savepoint and its release, on a connection whose
contents are the caller's own tables and the reputation tables. An error carries
the connection as the exception found it. -/
def writeEvent (p : Process sch) (call : RecordCall) (draw : Draw) (c : Conn (α × Tables)) :
    Except (Conn (α × Tables)) (Conn (α × Tables) × String) :=
  let ent := call.enterprise p
  if draw.fails .readChainMeta then .error c
  else
    let row := newEvent p call draw (c.current.2.readChainMeta ent).2
    if draw.fails .prepare || draw.fails .insert then .error c
    else match c.current.2.insertEvent row with
      | none => .error c
      | some t =>
        let c₁ := c.write fun d => (d.1, t)
        if draw.fails .upsert then .error c₁
        else
          let c₂ := c₁.write fun d =>
            (d.1, d.2.upsertChainMeta ent row.eventId row.payloadHash draw.updatedAt.iso)
          if draw.fails .release then .error c₂
          else match c₂.release "rep_write" with
            | none => .error c₂
            | some c₃ => .ok (c₃, row.eventId)

/-- `record_event`. The statements of the exception handler are taken to succeed. -/
def recordEvent (p : Process sch) (call : RecordCall) (draw : Draw) (c : Conn (α × Tables)) :
    Conn (α × Tables) × Option String :=
  if draw.fails .savepoint then (c, none)
  else match writeEvent p call draw (c.savepoint "rep_write") with
    | .ok (c', eventId) => (c', some eventId)
    | .error c' => (((c'.rollbackTo "rep_write").bind (·.release "rep_write")).getD c', none)

/-- What a successful call does to the reputation tables. -/
def appendEvent (p : Process sch) (call : RecordCall) (draw : Draw) (t : Tables) : Option Tables :=
  let ent := call.enterprise p
  let row := newEvent p call draw (t.readChainMeta ent).2
  (t.insertEvent row).map
    (·.upsertChainMeta ent row.eventId row.payloadHash draw.updatedAt.iso)

/-- An exception finds the connection inside the call's savepoint; success has
released it over the appended event. -/
theorem writeEvent_cases (p : Process sch) (call : RecordCall) (draw : Draw)
    (c : Conn (α × Tables)) :
    (∃ d c', writeEvent p call draw (c.savepoint "rep_write") = .error c' ∧
      c.Bracket "rep_write" d c') ∨
    (∃ t c₁ c', appendEvent p call draw c.current.2 = some t ∧
      c.Bracket "rep_write" (c.current.1, t) c₁ ∧ c₁.release "rep_write" = some c' ∧
      writeEvent p call draw (c.savepoint "rep_write") =
        .ok (c', makeEventId draw.random)) := by
  have hopen := c.bracket_savepoint "rep_write"
  unfold writeEvent
  simp only [hopen.current]
  split
  · exact .inl ⟨_, _, rfl, hopen⟩
  · split
    · exact .inl ⟨_, _, rfl, hopen⟩
    · split
      · exact .inl ⟨_, _, rfl, hopen⟩
      · next t hinsert =>
          have hins := hopen.write fun d => (d.1, t)
          split
          · exact .inl ⟨_, _, rfl, hins⟩
          · have hups := hins.write fun d => (d.1, d.2.upsertChainMeta (call.enterprise p)
              (newEvent p call draw (c.current.2.readChainMeta (call.enterprise p)).2).eventId
              (newEvent p call draw (c.current.2.readChainMeta (call.enterprise p)).2).payloadHash
              draw.updatedAt.iso)
            split
            · exact .inl ⟨_, _, rfl, hups⟩
            · split
              · exact .inl ⟨_, _, rfl, hups⟩
              · next c' hrelease =>
                  refine .inr ⟨_, _, c', ?_, hups, hrelease, rfl⟩
                  simp only [appendEvent, hinsert, Option.map_some]

/-- **What a call can do.** It fails and leaves the connection as it was, or it
appends one event and leaves everything else as it was. -/
theorem recordEvent_cases (p : Process sch) (call : RecordCall) (draw : Draw)
    (c : Conn (α × Tables)) :
    recordEvent p call draw c = (c, none) ∨
    ∃ t c', appendEvent p call draw c.current.2 = some t ∧
      recordEvent p call draw c = (c', some (makeEventId draw.random)) ∧
      c'.current = (c.current.1, t) ∧ c'.tx = c.tx ∧ c'.savepoints = c.savepoints ∧
      c'.committed = if c.tx = .none then (c.current.1, t) else c.committed := by
  unfold recordEvent
  split
  · exact .inl rfl
  · rcases writeEvent_cases p call draw c with ⟨d, c', herr, hbr⟩ | ⟨t, c₁, c', happ, hbr, hrel, hok⟩
    · refine .inl ?_
      rw [herr]
      simp only [hbr.abandon, Option.getD_some]
    · obtain ⟨c'', hrel', hcur, htx, hsp, hcom⟩ := hbr.keep
      rw [hrel] at hrel'
      cases hrel'
      rw [hok]
      exact .inr ⟨t, c', happ, rfl, hcur, htx, hsp, hcom⟩

end EighthLayer.Reputation
