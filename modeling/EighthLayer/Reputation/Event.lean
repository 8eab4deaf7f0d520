import EighthLayer.Lib.Json
import EighthLayer.Lib.HashChain
import EighthLayer.Crypto
import EighthLayer.Environ

/-!
# EighthLayer.Reputation.Event

The data of `reputation.py`: the canonical payload of an event, the rows of
`reputation_events`, `reputation_chain_meta` and `reputation_roots`, and the
statements that read and write them.

The tables are one structure whose fields carry the primary keys, so that no
later proof has to re-establish them; an insert that would break one has no
result, as it is an `IntegrityError`.
-/

namespace EighthLayer.Reputation

open Lib

/-! ## Canonical payloads -/

/-- `GENESIS_PREV_HASH`. -/
def genesisPrevHash : String := "sha256:" ++ String.ofList (List.replicate 64 '0')

/-- `canonical_payload_bytes(payload).decode("utf-8")`. -/
def canonicalPayload (payload : Json) : String := payload.dumps

/-- `canonical_payload_bytes`. -/
def canonicalPayloadBytes (payload : Json) : Bytes := utf8 (canonicalPayload payload)

/-- `compute_payload_hash`. -/
def computePayloadHash (canonical : Bytes) : String :=
  "sha256:" ++ String.ofList (hex (sha256 canonical))

/-- A payload hash determines the digest. -/
theorem computePayloadHash_inj {a b : Bytes} (h : computePayloadHash a = computePayloadHash b) :
    sha256 a = sha256 b := by
  have hchars := congrArg String.toList h
  simp only [computePayloadHash, String.toList_append, List.append_cancel_left_eq,
    String.toList_ofList] at hchars
  exact hex_injective hchars

/-- `make_event_id`, of the bytes `secrets.token_hex(16)` drew. -/
def makeEventId (random : Bytes) : String := "evt_" ++ String.ofList (hex random)

/-- The members of the payload dict `record_event` builds. -/
def eventMembers (eventId eventType enterpriseId l2Id ts prevEventHash : String)
    (body : List (String × Json)) : List (String × Json) :=
  [("event_id", .str eventId), ("event_type", .str eventType),
    ("enterprise_id", .str enterpriseId), ("l2_id", .str l2Id), ("ts", .str ts),
    ("prev_event_hash", .str prevEventHash), ("body", .obj body)]

/-- The payload dict `record_event` builds. -/
def eventPayload (eventId eventType enterpriseId l2Id ts prevEventHash : String)
    (body : List (String × Json)) : Json :=
  .obj (eventMembers eventId eventType enterpriseId l2Id ts prevEventHash body)

theorem eventMembers_keys (i ty en l ts pr : String) (b : List (String × Json)) :
    ((eventMembers i ty en l ts pr b).map Prod.fst).Nodup := by
  have hkeys : ["event_id", "event_type", "enterprise_id", "l2_id", "ts", "prev_event_hash",
    "body"].Nodup := by decide
  exact hkeys

/-! ## Rows -/

/-- A row of `reputation_events`. -/
structure EventRow where
  eventId : String
  eventType : String
  enterpriseId : String
  l2Id : String
  ts : String
  prevEventHash : String
  payloadCanonical : String
  payloadHash : String
  signatureB64u : Option String
  signingKeyId : Option String
  createdAt : String
deriving DecidableEq

/-- A row of `reputation_chain_meta`. -/
structure ChainMeta where
  enterpriseId : String
  lastEventId : Option String
  lastEventHash : String
  lastRootPublishedDay : Option String
  updatedAt : String
deriving DecidableEq

/-- A row of `reputation_roots`. -/
structure RootRow where
  enterpriseId : String
  rootDate : String
  eventCount : Nat
  merkleRootHash : String
  firstEventId : Option String
  lastEventId : Option String
  signatureB64u : Option String
  signingKeyId : Option String
  computedAt : String
  publishedToDirectoryAt : Option String
deriving DecidableEq

/-- The three reputation tables, in the order of their rows' insertion. -/
structure Tables where
  events : List EventRow
  chainMeta : List ChainMeta
  roots : List RootRow
  events_pk : (events.map EventRow.eventId).Nodup
  chainMeta_pk : (chainMeta.map ChainMeta.enterpriseId).Nodup
  roots_pk : (roots.map fun r => (r.enterpriseId, r.rootDate)).Nodup

/-! ## Reading order -/

/-- `ORDER BY ts ASC, event_id ASC`. -/
def EventRow.ReadsBefore (e f : EventRow) : Prop :=
  e.ts < f.ts ∨ (e.ts = f.ts ∧ e.eventId ≤ f.eventId)

instance : DecidableRel EventRow.ReadsBefore :=
  fun e f => inferInstanceAs (Decidable (e.ts < f.ts ∨ (e.ts = f.ts ∧ e.eventId ≤ f.eventId)))

instance : Std.Total EventRow.ReadsBefore where
  total e f := by
    rcases lt_trichotomy e.ts f.ts with h | h | h
    · exact .inl (.inl h)
    · rcases le_total e.eventId f.eventId with hid | hid
      · exact .inl (.inr ⟨h, hid⟩)
      · exact .inr (.inr ⟨h.symm, hid⟩)
    · exact .inr (.inl h)

instance : IsTrans EventRow EventRow.ReadsBefore where
  trans e f g := by
    rintro (h | ⟨h, hid⟩) (h' | ⟨h', hid'⟩)
    · exact .inl (lt_trans h h')
    · exact .inl (h' ▸ h)
    · exact .inl (h ▸ h')
    · exact .inr ⟨h.trans h', le_trans hid hid'⟩

/-- The rows as every reader lists them. -/
def readingOrder (rows : List EventRow) : List EventRow := rows.insertionSort EventRow.ReadsBefore

theorem readingOrder_perm (rows : List EventRow) : (readingOrder rows).Perm rows :=
  List.perm_insertionSort _ _

namespace Tables

theorem events_pk_nil : (([] : List EventRow).map EventRow.eventId).Nodup := List.nodup_nil

theorem chainMeta_pk_nil : (([] : List ChainMeta).map ChainMeta.enterpriseId).Nodup :=
  List.nodup_nil

theorem roots_pk_nil : (([] : List RootRow).map fun r => (r.enterpriseId, r.rootDate)).Nodup :=
  List.nodup_nil

/-- The tables after the migration that creates them. -/
def empty : Tables := ⟨[], [], [], events_pk_nil, chainMeta_pk_nil, roots_pk_nil⟩

/-- An Enterprise's events, in the order they were written. -/
def eventsOf (t : Tables) (ent : String) : List EventRow :=
  t.events.filter fun e => e.enterpriseId = ent

/-- An Enterprise's chain-meta row. -/
def metaOf (t : Tables) (ent : String) : Option ChainMeta :=
  t.chainMeta.find? fun m => m.enterpriseId = ent

/-- `INSERT INTO reputation_events`; `none` when the event id is taken. -/
def insertEvent (t : Tables) (e : EventRow) : Option Tables :=
  if h : e.eventId ∈ t.events.map EventRow.eventId then none
  else some { t with
    events := t.events ++ [e]
    events_pk := by
      rw [List.map_append, List.map_singleton]
      exact List.nodup_append.mpr ⟨t.events_pk, List.nodup_singleton _, fun a ha b hb => by
        rw [List.mem_singleton.mp hb]
        rintro rfl
        exact h ha⟩ }

/-- `_read_chain_meta`: the last event's id and hash. -/
def readChainMeta (t : Tables) (ent : String) : Option String × String :=
  match t.metaOf ent with
  | none => (none, genesisPrevHash)
  | some m => (m.lastEventId, m.lastEventHash)

/-- The row `_upsert_chain_meta` writes over an existing one; the columns the
statement does not name keep their values. -/
def overwriteMeta (lastEventId lastEventHash updatedAt : String) (m : ChainMeta) : ChainMeta :=
  { m with lastEventId := some lastEventId, lastEventHash := lastEventHash, updatedAt := updatedAt }

/-- `_upsert_chain_meta`. -/
def upsertChainMeta (t : Tables) (ent lastEventId lastEventHash updatedAt : String) : Tables :=
  if h : ent ∈ t.chainMeta.map ChainMeta.enterpriseId then
    { t with
      chainMeta := t.chainMeta.map fun m =>
        if m.enterpriseId = ent then overwriteMeta lastEventId lastEventHash updatedAt m else m
      chainMeta_pk := by
        have hkeys : (t.chainMeta.map fun m => if m.enterpriseId = ent then
            overwriteMeta lastEventId lastEventHash updatedAt m else m).map
              ChainMeta.enterpriseId = t.chainMeta.map ChainMeta.enterpriseId := by
          rw [List.map_map]
          refine List.map_congr_left fun m _ => ?_
          simp only [Function.comp]
          split <;> rfl
        rw [hkeys]
        exact t.chainMeta_pk }
  else
    { t with
      chainMeta := t.chainMeta ++ [⟨ent, some lastEventId, lastEventHash, none, updatedAt⟩]
      chainMeta_pk := by
        rw [List.map_append, List.map_singleton]
        exact List.nodup_append.mpr ⟨t.chainMeta_pk, List.nodup_singleton _, fun a ha b hb => by
          rw [List.mem_singleton.mp hb]
          rintro rfl
          exact h ha⟩ }

/-! ### What the statements leave -/

theorem insertEvent_some {t t' : Tables} {e : EventRow} (h : t.insertEvent e = some t') :
    e.eventId ∉ t.events.map EventRow.eventId ∧ t'.events = t.events ++ [e] ∧
      t'.chainMeta = t.chainMeta ∧ t'.roots = t.roots := by
  unfold insertEvent at h
  split at h
  · cases h
  · next hfresh =>
      cases h
      exact ⟨hfresh, rfl, rfl, rfl⟩

@[simp] theorem upsertChainMeta_events (t : Tables) (ent i h u : String) :
    (t.upsertChainMeta ent i h u).events = t.events := by
  unfold upsertChainMeta
  split <;> rfl

@[simp] theorem upsertChainMeta_roots (t : Tables) (ent i h u : String) :
    (t.upsertChainMeta ent i h u).roots = t.roots := by
  unfold upsertChainMeta
  split <;> rfl

theorem eventsOf_append {t t' : Tables} {e : EventRow} (h : t'.events = t.events ++ [e])
    (ent : String) : t'.eventsOf ent =
      if e.enterpriseId = ent then t.eventsOf ent ++ [e] else t.eventsOf ent := by
  rw [eventsOf, eventsOf, h, List.filter_append]
  split
  · next heq => rw [List.filter_singleton, decide_eq_true heq]; rfl
  · next hne => rw [List.filter_singleton, decide_eq_false hne]; simp

theorem mem_eventsOf {t : Tables} {ent : String} {e : EventRow} :
    e ∈ t.eventsOf ent ↔ e ∈ t.events ∧ e.enterpriseId = ent := by
  rw [eventsOf, List.mem_filter, decide_eq_true_eq]

theorem eventsOf_ids_nodup (t : Tables) (ent : String) :
    ((t.eventsOf ent).map EventRow.eventId).Nodup :=
  t.events_pk.sublist (List.filter_sublist.map _)

/-- Looking a row up after rewriting rows without changing their keys. -/
theorem find_map_meta (l : List ChainMeta) (ent : String) {f : ChainMeta → ChainMeta}
    (hf : ∀ m, (f m).enterpriseId = m.enterpriseId) :
    (l.map f).find? (fun m => m.enterpriseId = ent) =
      (l.find? fun m => m.enterpriseId = ent).map f := by
  rw [List.find?_map]
  congr 2
  funext m
  simp only [Function.comp, hf]

theorem overwriteMeta_key (ent i h u : String) (m : ChainMeta) :
    (if m.enterpriseId = ent then overwriteMeta i h u m else m).enterpriseId = m.enterpriseId := by
  split <;> rfl

/-- The meta row after an upsert of the same Enterprise. -/
theorem metaOf_upsertChainMeta_self (t : Tables) (ent i h u : String) :
    (t.upsertChainMeta ent i h u).metaOf ent =
      some ⟨ent, some i, h, (t.metaOf ent).bind ChainMeta.lastRootPublishedDay, u⟩ := by
  unfold upsertChainMeta metaOf
  split
  · next hmem =>
      dsimp only
      rw [find_map_meta _ _ (overwriteMeta_key ent i h u)]
      obtain ⟨m, hm, rfl⟩ := List.mem_map.mp hmem
      cases hfind : t.chainMeta.find? (fun n => n.enterpriseId = m.enterpriseId) with
      | none => exact absurd (decide_eq_true rfl) (List.find?_eq_none.mp hfind m hm)
      | some n =>
          have hn : n.enterpriseId = m.enterpriseId := by simpa using List.find?_some hfind
          simp only [Option.map_some, hn, if_true, Option.bind_some, overwriteMeta]
  · next hmem =>
      have hnone : t.chainMeta.find? (fun n => n.enterpriseId = ent) = none := by
        rw [List.find?_eq_none]
        intro m hm heq
        exact hmem (List.mem_map.mpr ⟨m, hm, by simpa using heq⟩)
      rw [List.find?_append, hnone]
      simp

/-- An upsert leaves every other Enterprise's meta row alone. -/
theorem metaOf_upsertChainMeta_other (t : Tables) {ent ent' : String} (i h u : String)
    (hne : ent' ≠ ent) : (t.upsertChainMeta ent i h u).metaOf ent' = t.metaOf ent' := by
  unfold upsertChainMeta metaOf
  split
  · dsimp only
    rw [find_map_meta _ _ (overwriteMeta_key ent i h u)]
    cases hfind : t.chainMeta.find? (fun n => n.enterpriseId = ent') with
    | none => rfl
    | some n =>
        have hn : n.enterpriseId = ent' := by simpa using List.find?_some hfind
        rw [Option.map_some, if_neg (by rw [hn]; exact hne)]
  · rw [List.find?_append]
    simp [Ne.symm hne]

end Tables

end EighthLayer.Reputation
