import EighthLayer.Reputation.Chain

/-!
# EighthLayer.Reputation.Verifier

The event checks of `reputation_verifier.py`: linkage of the hash column,
re-derivation of the payload hashes, and the signatures. Events arrive as dicts
of arbitrary values, so a key may be missing and a value need not be a string;
where Python raises on such a value, the check has no result.
-/

namespace EighthLayer.Reputation

open Lib Lib.HashChain

/-! ## Event dicts -/

/-- A value of a dict. Values that are neither `None` nor strings are told apart
by a text of their own and carry their truth. -/
inductive PyVal where
  | none
  | str (s : String)
  | other (text : String) (truth : Bool)
deriving DecidableEq

namespace PyVal

/-- `v` as a string, when `isinstance(v, str)`. -/
def asStr : PyVal → Option String
  | .str s => some s
  | _ => Option.none

/-- `bool(v)`. -/
def truthy : PyVal → Bool
  | .none => false
  | .str s => s ≠ ""
  | .other _ truth => truth

/-- `None` or a string. -/
def ofOption : Option String → PyVal
  | Option.none => .none
  | some s => .str s

end PyVal

/-- An event dict. -/
abbrev EventDict := List (String × PyVal)

/-- `ev.get(key, default)`. -/
def EventDict.get (ev : EventDict) (key : String) (default : PyVal) : PyVal :=
  (ev.lookup key).getD default

/-- `ev.get("payload_hash")`. -/
def EventDict.payloadHash (ev : EventDict) : PyVal := ev.get "payload_hash" .none

/-- `ev.get("prev_event_hash")`. -/
def EventDict.prevEventHash (ev : EventDict) : PyVal := ev.get "prev_event_hash" .none

/-- `ev.get("payload_canonical", "")`. -/
def EventDict.payloadCanonical (ev : EventDict) : PyVal := ev.get "payload_canonical" (.str "")

/-- A table row as the dict a reader makes of it. -/
def EventRow.toDict (e : EventRow) : EventDict :=
  [("event_id", .str e.eventId), ("event_type", .str e.eventType),
    ("enterprise_id", .str e.enterpriseId), ("l2_id", .str e.l2Id), ("ts", .str e.ts),
    ("prev_event_hash", .str e.prevEventHash), ("payload_canonical", .str e.payloadCanonical),
    ("payload_hash", .str e.payloadHash), ("signature_b64u", .ofOption e.signatureB64u),
    ("signing_key_id", .ofOption e.signingKeyId), ("created_at", .str e.createdAt)]

@[simp] theorem toDict_payloadHash (e : EventRow) : e.toDict.payloadHash = .str e.payloadHash := rfl

@[simp] theorem toDict_prevEventHash (e : EventRow) :
    e.toDict.prevEventHash = .str e.prevEventHash := rfl

@[simp] theorem toDict_payloadCanonical (e : EventRow) :
    e.toDict.payloadCanonical = .str e.payloadCanonical := rfl

/-! ## Linkage -/

/-- The result of `verify_chain`. -/
structure ChainReport where
  ok : Bool
  brokenAtIndex : Option Nat
  brokenEventId : PyVal
  count : Nat
deriving DecidableEq

/-- The loop of `verify_chain`, from index `i` on: the first event that does not
name the payload hash of the one before it. -/
def firstBreak : (i : Nat) → (before : EventDict) → List EventDict → Option (Nat × PyVal)
  | _, _, [] => none
  | i, before, ev :: rest =>
    if ev.prevEventHash ≠ before.payloadHash then some (i, ev.get "event_id" .none)
    else firstBreak (i + 1) ev rest

/-- `verify_chain`. -/
def verifyChain : List EventDict → ChainReport
  | [] => ⟨true, none, .none, 0⟩
  | ev :: rest =>
    match firstBreak 1 ev rest with
    | some (i, eventId) => ⟨false, some i, eventId, rest.length + 1⟩
    | none => ⟨true, none, .none, rest.length + 1⟩

/-- One event of a list follows the one before it, by the columns. -/
abbrev FollowsBy (before ev : EventDict) : Prop :=
  Follows EventDict.prevEventHash EventDict.payloadHash before ev

theorem firstBreak_eq_none_iff : ∀ {i : Nat} {before : EventDict} {rest : List EventDict},
    firstBreak i before rest = none ↔ (before :: rest).IsChain FollowsBy
  | _, _, [] => by simp [firstBreak]
  | i, before, ev :: rest => by
      rw [firstBreak, List.isChain_cons_cons]
      split
      · next hne => simp only [reduceCtorEq, false_iff, not_and]; exact fun h => absurd h hne
      · next heq =>
          rw [firstBreak_eq_none_iff]
          exact ⟨fun h => ⟨not_not.mp heq, h⟩, fun h => h.2⟩

/-- `verify_chain` accepts exactly the lists in which each event follows the one before. -/
theorem verifyChain_ok_iff {events : List EventDict} :
    (verifyChain events).ok = true ↔ events.IsChain FollowsBy := by
  cases events with
  | nil => simp [verifyChain]
  | cons ev rest =>
      rw [← firstBreak_eq_none_iff (i := 1), verifyChain]
      cases firstBreak 1 ev rest with
      | none => simp
      | some b => simp

/-- Rows that are linked verify. -/
theorem verifyChain_of_linked {g : String} {l : List EventRow}
    (h : Linked EventRow.prevEventHash EventRow.payloadHash g l) :
    (verifyChain (l.map EventRow.toDict)).ok = true :=
  verifyChain_ok_iff.mpr
    (h.map (φ := PyVal.str) toDict_prevEventHash toDict_payloadHash).follows

/-! ## Payload hashes -/

/-- The result of `verify_event_payload_hashes`. -/
structure PayloadReport where
  ok : Bool
  tamperedEventIds : List PyVal
  count : Nat
deriving DecidableEq

/-- `ev.get("payload_canonical", "").encode("utf-8")`; `none` where the value is
no string and has no `encode`. -/
def EventDict.canonicalBytes (ev : EventDict) : Option Bytes :=
  ev.payloadCanonical.asStr.map utf8

/-- The event ids an event loop collects: of the events that fail `check`, in order. -/
def collectBad (check : EventDict → Option Bool) : List EventDict → Option (List PyVal)
  | [] => some []
  | ev :: rest => do
    let good ← check ev
    let bad ← collectBad check rest
    return if good then bad else ev.get "event_id" (.str "<no-id>") :: bad

/-- Nothing is collected exactly when every event passes. -/
theorem collectBad_eq_nil_iff {check : EventDict → Option Bool} : ∀ {events : List EventDict},
    collectBad check events = some [] ↔ ∀ ev ∈ events, check ev = some true
  | [] => by simp [collectBad]
  | ev :: rest => by
      have ih : collectBad check rest = some [] ↔ ∀ ev ∈ rest, check ev = some true :=
        collectBad_eq_nil_iff
      simp only [collectBad, List.mem_cons, forall_eq_or_imp, ← ih]
      cases hev : check ev with
      | none => simp
      | some good =>
          cases hrest : collectBad check rest with
          | none => simp
          | some bad => cases good <;> simp

/-- One step of `verify_event_payload_hashes`. -/
def payloadHashMatches (ev : EventDict) : Option Bool :=
  ev.canonicalBytes.map fun canonical => .str (computePayloadHash canonical) = ev.payloadHash

/-- `verify_event_payload_hashes`. -/
def verifyEventPayloadHashes (events : List EventDict) : Option PayloadReport :=
  (collectBad payloadHashMatches events).map fun bad => ⟨bad = [], bad, events.length⟩

/-- `verify_event_payload_hashes` accepts exactly the lists whose hash column is
the hash of the payload column. -/
theorem verifyEventPayloadHashes_ok_iff {events : List EventDict} :
    (verifyEventPayloadHashes events).map PayloadReport.ok = some true ↔
      ∀ ev ∈ events, ∃ text, ev.payloadCanonical = .str text ∧
        ev.payloadHash = .str (computePayloadHash (utf8 text)) := by
  have hcollect : (verifyEventPayloadHashes events).map PayloadReport.ok = some true ↔
      collectBad payloadHashMatches events = some [] := by
    unfold verifyEventPayloadHashes
    cases collectBad payloadHashMatches events with
    | none => simp
    | some bad => simp
  rw [hcollect, collectBad_eq_nil_iff]
  refine forall_congr' fun ev => forall_congr' fun _ => ?_
  unfold payloadHashMatches EventDict.canonicalBytes
  cases hp : ev.payloadCanonical with
  | none => simp [PyVal.asStr]
  | other text truth => simp [PyVal.asStr]
  | str text => simp [PyVal.asStr, eq_comm]

/-! ## Signatures -/

/-- The result of `verify_event_signatures`. -/
structure SignatureReport where
  ok : Bool
  badSignatureEventIds : List PyVal
  unsignedCount : Nat
  signedCount : Nat
  count : Nat
deriving DecidableEq

/-- `not sig or not kid`. -/
def EventDict.unsigned (ev : EventDict) : Bool :=
  !(ev.get "signature_b64u" .none).truthy || !(ev.get "signing_key_id" .none).truthy

/-- One step of `verify_event_signatures`; an unsigned event passes. A signed
event raises when a value it needs is no string. -/
def signatureMatches (sch : SignatureScheme) (ev : EventDict) : Option Bool :=
  if ev.unsigned then some true
  else do
    let canonical ← ev.canonicalBytes
    let kid ← (ev.get "signing_key_id" .none).asStr
    let sig ← (ev.get "signature_b64u" .none).asStr
    return verifyRaw sch kid canonical sig

/-- `verify_event_signatures`. -/
def verifyEventSignatures (sch : SignatureScheme) (events : List EventDict) :
    Option SignatureReport :=
  let unsigned := (events.filter EventDict.unsigned).length
  (collectBad (signatureMatches sch) events).map fun bad =>
    ⟨bad = [], bad, unsigned, events.length - unsigned, events.length⟩

/-- The event is signed, over its payload text, by the key it names. -/
def EventDict.SignedBy (sch : SignatureScheme) (ev : EventDict) (text : String) : Prop :=
  ∃ kid sig, ev.get "signing_key_id" .none = .str kid ∧ ev.get "signature_b64u" .none = .str sig ∧
    ev.payloadCanonical = .str text ∧ verifyRaw sch kid (utf8 text) sig = true

/-- `verify_event_signatures` accepts exactly the lists whose signed events carry
valid signatures. -/
theorem verifyEventSignatures_ok_iff {sch : SignatureScheme} {events : List EventDict} :
    (verifyEventSignatures sch events).map SignatureReport.ok = some true ↔
      ∀ ev ∈ events, ev.unsigned = true ∨ ∃ text, ev.SignedBy sch text := by
  have hcollect : (verifyEventSignatures sch events).map SignatureReport.ok = some true ↔
      collectBad (signatureMatches sch) events = some [] := by
    unfold verifyEventSignatures
    cases collectBad (signatureMatches sch) events with
    | none => simp
    | some bad => simp
  rw [hcollect, collectBad_eq_nil_iff]
  refine forall_congr' fun ev => forall_congr' fun _ => ?_
  unfold signatureMatches EventDict.SignedBy EventDict.canonicalBytes
  cases hu : ev.unsigned with
  | true => simp
  | false =>
      cases ev.payloadCanonical <;> cases ev.get "signing_key_id" .none <;>
        cases ev.get "signature_b64u" .none <;> simp [PyVal.asStr]


end EighthLayer.Reputation
