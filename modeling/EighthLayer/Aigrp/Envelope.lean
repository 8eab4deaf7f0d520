import EighthLayer.Aigrp.PairSecret
import EighthLayer.Lib.Json
import EighthLayer.Lib.ReplayCache

/-!
# EighthLayer.Aigrp.Envelope

`aigrp/envelope.py`: HMAC-signed envelopes between two L2s, with a freshness
window on the timestamp and a cache of the message ids accepted lately.

Times are in microseconds. RFC 8785 canonicalization and
`datetime.fromisoformat` are parameters (`Platform`).
-/

namespace EighthLayer.Aigrp

open Lib

/-! ## Envelopes -/

/-- `ENVELOPE_VERSION`. -/
def envelopeVersion : String := "v1"

/-- `_REPLAY_TS_TOLERANCE_SEC`, in microseconds. -/
def replayTsTolerance : Nat := 300000000

/-- `_REPLAY_CACHE_TTL_SEC`, in microseconds. -/
def replayCacheTtl : Int := 600000000

/-- `_REPLAY_CACHE_MAX`. -/
def replayCacheMax : Nat := 100000

/-- A parsed timestamp: without an offset, or an instant. -/
inductive Datetime where
  | naive
  | aware (micros : Int)
deriving DecidableEq

/-- What the module takes from outside. -/
structure Platform where
  /-- `rfc8785.dumps`; `none` when it raises. -/
  canonicalize : Json → Option Bytes
  /-- `datetime.fromisoformat`; `none` is its `ValueError`. -/
  fromisoformat : String → Option Datetime

/-- Why an envelope is refused: the cases of `EnvelopeVerificationError` with the
values their details quote, and exceptions of other types, which pass through. -/
inductive EnvelopeError where
  | notDict
  | missingField (name : String)
  | version (got : Json)
  | srcDst
  | dstMismatch (expected got : String)
  | pairMismatch (expected : String) (got : Json)
  | msgId
  | nonce
  | tsNotIso
  | tsNaive
  | tsOutOfBounds (skew : Nat)
  | macNotStr
  | macNotB64
  | mac
  | replay (msgId src : String)
  | raised

/-- `EnvelopeVerificationError.reason`. -/
def EnvelopeError.reason : EnvelopeError → Option String
  | notDict | missingField _ | srcDst | msgId | nonce | tsNotIso | tsNaive | macNotStr
  | macNotB64 => some "malformed"
  | version _ => some "version"
  | dstMismatch .. => some "dst_mismatch"
  | pairMismatch .. => some "pair_mismatch"
  | tsOutOfBounds _ => some "ts_out_of_bounds"
  | mac => some "mac"
  | replay .. => some "replay"
  | raised => none

/-- `_parse_iso`: a trailing `Z` is written out as an offset. -/
def parseIso (P : Platform) (ts : String) : Option Datetime :=
  P.fromisoformat (String.ofList
    (ts.toList.flatMap fun c => if c = 'Z' then "+00:00".toList else [c]))

/-- The values of the required fields. -/
structure Fields where
  version : Json
  pairId : Json
  src : Json
  dst : Json
  ts : Json
  nonce : Json
  msgId : Json
  payload : Json
  mac : Json

/-- `envelope[name]`, once it is known to be there. -/
def field (envelope : List (String × Json)) (name : String) : Except EnvelopeError Json :=
  match envelope.lookup name with
  | some v => .ok v
  | none => .error (.missingField name)

/-- The loop over `required`. -/
def requireFields (envelope : List (String × Json)) : Except EnvelopeError Fields := do
  let version ← field envelope "version"
  let pairId ← field envelope "pair_id"
  let src ← field envelope "src_l2_id"
  let dst ← field envelope "dst_l2_id"
  let ts ← field envelope "ts"
  let nonce ← field envelope "nonce"
  let msgId ← field envelope "msg_id"
  let payload ← field envelope "payload"
  let mac ← field envelope "mac"
  return ⟨version, pairId, src, dst, ts, nonce, msgId, payload, mac⟩

/-- The version, the two ids and the pair id; the sender's id. -/
def checkParties (f : Fields) (expectedDst : String) : Except EnvelopeError String :=
  match f.version with
  | .str v =>
    if v ≠ envelopeVersion then .error (.version (.str v))
    else match f.src, f.dst with
      | .str src, .str dst =>
        if src = "" ∨ dst = "" then .error .srcDst
        else if dst ≠ expectedDst then .error (.dstMismatch expectedDst dst)
        else match canonicalPairId src dst with
          | none => .error .raised
          | some pair =>
            match f.pairId with
            | .str got => if got ≠ pair then .error (.pairMismatch pair (.str got)) else .ok src
            | got => .error (.pairMismatch pair got)
      | _, _ => .error .srcDst
  | v => .error (.version v)

/-- The message id, and that the nonce decodes. -/
def checkMsgId (f : Fields) : Except EnvelopeError String :=
  match f.msgId with
  | .str msgId =>
    if msgId = "" then .error .msgId
    else match f.nonce with
      | .str nonce => if (b64uDecode nonce).isNone then .error .nonce else .ok msgId
      | _ => .error .nonce
  | _ => .error .msgId

/-- The timestamp, against the clock reading `now`. -/
def checkTs (P : Platform) (ts : Json) (now : Int) : Except EnvelopeError Int :=
  match ts with
  | .str s => match parseIso P s with
    | none => .error .tsNotIso
    | some .naive => .error .tsNaive
    | some (.aware t) =>
      if replayTsTolerance < (now - t).natAbs then .error (.tsOutOfBounds (now - t).natAbs)
      else .ok t
  -- `ts.replace` on another type is an AttributeError, which is not caught
  | _ => .error .raised

/-- The MAC over the envelope without it. -/
def checkMac (P : Platform) (envelope : List (String × Json)) (mac : Json) (pairSecret : Bytes) :
    Except EnvelopeError Unit :=
  match mac with
  | .str receivedB64 => match b64uDecode receivedB64 with
    | none => .error .macNotB64
    | some received =>
      match P.canonicalize (.obj (envelope.filter fun m => m.1 ≠ "mac")) with
      | none => .error .raised
      | some bytes => if hmacSha256 pairSecret bytes ≠ received then .error .mac else .ok ()
  | _ => .error .macNotStr

/-- One call of `verify_envelope`: its arguments and what it reads from the clocks. -/
structure Call where
  envelope : Json
  pairSecret : Bytes
  expectedDst : String
  /-- `now`, by default `datetime.now(UTC)`. -/
  now : Int
  /-- `time.monotonic()` in the replay cache. -/
  monotonic : Int

/-- What the checks before the replay check read out of an envelope. -/
structure Checked where
  src : String
  msgId : String
  ts : Int
  payload : Json

/-- `verify_envelope` up to the replay check. -/
def checkEnvelope (P : Platform) (call : Call) : Except EnvelopeError Checked :=
  match call.envelope with
  | .obj envelope => do
    let f ← requireFields envelope
    let src ← checkParties f call.expectedDst
    let msgId ← checkMsgId f
    let ts ← checkTs P f.ts call.now
    checkMac P envelope f.mac call.pairSecret
    return ⟨src, msgId, ts, f.payload⟩
  | _ => .error .notDict

/-- The replay cache, keyed by sender and message id. -/
abbrev Cache := ReplayCache (String × String)

/-- `make_replay_cache(ttl_sec, max_size)`. -/
def makeReplayCache (ttl : Int) (max : Nat) : Cache := ⟨ttl, max, []⟩

/-- `verify_envelope`: the replay check is the last step. -/
def verifyEnvelope (P : Platform) (cache : Cache) (call : Call) :
    Cache × Except EnvelopeError Json :=
  match checkEnvelope P call with
  | .error e => (cache, .error e)
  | .ok c =>
    match cache.checkAndRecord (c.src, c.msgId) call.monotonic with
    | (cache, true) => (cache, .ok c.payload)
    | (cache, false) => (cache, .error (.replay c.msgId c.src))

/-- The envelope of `sign_envelope` before its MAC is added. -/
def unsignedEnvelope (pairId src dst ts : String) (nonce : Bytes) (msgId : String)
    (payload : Json) : List (String × Json) :=
  [("version", .str envelopeVersion), ("pair_id", .str pairId), ("src_l2_id", .str src),
    ("dst_l2_id", .str dst), ("ts", .str ts), ("nonce", .str (b64u nonce)),
    ("msg_id", .str msgId), ("payload", payload)]

/-- `sign_envelope`, for the timestamp, nonce and message id it uses (given, or
read from the clock and the random source); `none` when it raises. -/
def signEnvelope (P : Platform) (pairSecret : Bytes) (src dst : String) (payload : Json)
    (ts : String) (nonce : Bytes) (msgId : String) : Option Json :=
  if pairSecret.length ≠ 32 then none
  else match canonicalPairId src dst with
    | none => none
    | some pairId =>
      let envelope := unsignedEnvelope pairId src dst ts nonce msgId payload
      (P.canonicalize (.obj envelope)).map fun bytes =>
        .obj (envelope ++ [("mac", .str (b64u (hmacSha256 pairSecret bytes)))])

/-! ## What the checks establish -/

theorem exists_of_bind_ok {ε α β : Type} {x : Except ε α} {f : α → Except ε β} {b : β}
    (h : (x >>= f) = .ok b) : ∃ a, x = .ok a ∧ f a = .ok b := by
  cases x with
  | error e => cases h
  | ok a => exact ⟨a, rfl, h⟩

theorem checkTs_ok {P : Platform} {ts : Json} {now t : Int} (h : checkTs P ts now = .ok t) :
    (∃ s, ts = .str s ∧ parseIso P s = some (.aware t)) ∧
      (now - t).natAbs ≤ replayTsTolerance := by
  unfold checkTs at h
  split at h
  · next s =>
      split at h
      · cases h
      · cases h
      · next t' hparse =>
          split at h
          · cases h
          · next hskew =>
              cases h
              exact ⟨⟨s, rfl, hparse⟩, Nat.le_of_not_lt hskew⟩
  · cases h

/-- The part of `checkEnvelope` that depends on the envelope alone. -/
theorem checkEnvelope_ok {P : Platform} {call : Call} {c : Checked}
    (h : checkEnvelope P call = .ok c) :
    ∃ members f, call.envelope = .obj members ∧ requireFields members = .ok f ∧
      checkParties f call.expectedDst = .ok c.src ∧ checkMsgId f = .ok c.msgId ∧
      checkTs P f.ts call.now = .ok c.ts ∧ checkMac P members f.mac call.pairSecret = .ok () ∧
      c.payload = f.payload := by
  unfold checkEnvelope at h
  split at h
  · next members henv =>
      obtain ⟨f, hf, h⟩ := exists_of_bind_ok h
      obtain ⟨src, hsrc, h⟩ := exists_of_bind_ok h
      obtain ⟨msgId, hmsgId, h⟩ := exists_of_bind_ok h
      obtain ⟨ts, hts, h⟩ := exists_of_bind_ok h
      obtain ⟨u, hmac, h⟩ := exists_of_bind_ok h
      cases h
      exact ⟨members, f, henv, hf, hsrc, hmsgId, hts, hmac, rfl⟩
  · cases h

/-- A sender id that passes is the one the envelope names, whoever expects it. -/
theorem checkParties_src {f : Fields} {dst src : String} (h : checkParties f dst = .ok src) :
    f.src = .str src := by
  unfold checkParties at h
  split at h
  · split at h
    · cases h
    · split at h
      · next s d hs hd =>
          split at h
          · cases h
          · split at h
            · cases h
            · split at h
              · cases h
              · split at h
                · split at h
                  · cases h
                  · cases h
                    exact hs
                · cases h
      · cases h
  · cases h

/-- A checked timestamp lies within the freshness window. -/
theorem checkEnvelope_fresh {P : Platform} {call : Call} {c : Checked}
    (h : checkEnvelope P call = .ok c) : (call.now - c.ts).natAbs ≤ replayTsTolerance := by
  obtain ⟨_, _, _, _, _, _, hts, _⟩ := checkEnvelope_ok h
  exact (checkTs_ok hts).2

/-- One envelope has one sender, one message id and one timestamp, whenever and
wherever it is checked. -/
theorem checkEnvelope_same {P : Platform} {call call' : Call} {c c' : Checked}
    (h : checkEnvelope P call = .ok c) (h' : checkEnvelope P call' = .ok c')
    (henv : call.envelope = call'.envelope) :
    c.src = c'.src ∧ c.msgId = c'.msgId ∧ c.ts = c'.ts := by
  obtain ⟨members, f, hobj, hf, hsrc, hmsgId, hts, -⟩ := checkEnvelope_ok h
  obtain ⟨members', f', hobj', hf', hsrc', hmsgId', hts', -⟩ := checkEnvelope_ok h'
  rw [hobj, hobj'] at henv
  cases henv
  rw [hf] at hf'
  cases hf'
  refine ⟨?_, ?_, ?_⟩
  · exact Json.str.inj ((checkParties_src hsrc).symm.trans (checkParties_src hsrc'))
  · exact Except.ok.inj (hmsgId.symm.trans hmsgId')
  · obtain ⟨⟨s, hs, hparse⟩, -⟩ := checkTs_ok hts
    obtain ⟨⟨s', hs', hparse'⟩, -⟩ := checkTs_ok hts'
    rw [hs] at hs'
    cases hs'
    rw [hparse] at hparse'
    exact Datetime.aware.inj (Option.some.inj hparse')

/-! ## Signed envelopes pass the checks -/

section Signed

variable (pairId src dst ts : String) (nonce : Bytes) (msgId : String) (payload : Json)
  (mac : String)

theorem requireFields_signed :
    requireFields (unsignedEnvelope pairId src dst ts nonce msgId payload ++ [("mac", .str mac)]) =
      .ok ⟨.str envelopeVersion, .str pairId, .str src, .str dst, .str ts, .str (b64u nonce),
        .str msgId, payload, .str mac⟩ := by
  simp [requireFields, field, unsignedEnvelope, List.lookup_cons, bind, Except.bind, pure, Except.pure]

theorem filter_mac_signed :
    (unsignedEnvelope pairId src dst ts nonce msgId payload ++ [("mac", Json.str mac)]).filter
      (fun m => m.1 ≠ "mac") = unsignedEnvelope pairId src dst ts nonce msgId payload := by
  simp [unsignedEnvelope]

end Signed

/-- **Round trip.** What `sign_envelope` builds passes the checks of its addressee
as long as its timestamp is fresh. -/
theorem checkEnvelope_signEnvelope {P : Platform} {pairSecret : Bytes} {src dst : String}
    {payload : Json} {ts : String} {nonce : Bytes} {msgId : String} {envelope : Json} {t now : Int}
    (hsign : signEnvelope P pairSecret src dst payload ts nonce msgId = some envelope)
    (hmsgId : msgId ≠ "") (hts : parseIso P ts = some (.aware t))
    (hfresh : (now - t).natAbs ≤ replayTsTolerance) (monotonic : Int) :
    checkEnvelope P ⟨envelope, pairSecret, dst, now, monotonic⟩ = .ok ⟨src, msgId, t, payload⟩ := by
  unfold signEnvelope at hsign
  split at hsign
  · cases hsign
  · split at hsign
    · cases hsign
    · next pairId hpair =>
        obtain ⟨bytes, hbytes, rfl⟩ := Option.map_eq_some_iff.mp hsign
        obtain ⟨hsrc, hdst⟩ := canonicalPairId_ne_empty hpair
        simp only [checkEnvelope, requireFields_signed, bind, Except.bind]
        have hparties : checkParties ⟨.str envelopeVersion, .str pairId, .str src, .str dst, .str ts,
            .str (b64u nonce), .str msgId, payload, .str (b64u (hmacSha256 pairSecret bytes))⟩ dst =
            .ok src := by
          simp [checkParties, hsrc, hdst, hpair]
        have hmsg : checkMsgId ⟨.str envelopeVersion, .str pairId, .str src, .str dst, .str ts,
            .str (b64u nonce), .str msgId, payload, .str (b64u (hmacSha256 pairSecret bytes))⟩ =
            .ok msgId := by
          simp [checkMsgId, hmsgId]
        have htime : checkTs P (.str ts) now = .ok t := by
          simp only [checkTs, hts, if_neg (Nat.not_lt.mpr hfresh)]
        have hmac : checkMac P (unsignedEnvelope pairId src dst ts nonce msgId payload ++
            [("mac", .str (b64u (hmacSha256 pairSecret bytes)))])
            (.str (b64u (hmacSha256 pairSecret bytes))) pairSecret = .ok () := by
          simp only [checkMac, b64uDecode_b64u]
          rw [filter_mac_signed]
          simp only [hbytes, ne_eq, not_true_eq_false, if_false]
        simp only [hparties, hmsg, htime, hmac, pure, Except.pure]

end EighthLayer.Aigrp
