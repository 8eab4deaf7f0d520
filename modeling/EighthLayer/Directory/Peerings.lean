import EighthLayer.Consults.Manual

/-!
# EighthLayer.Directory.Peerings

The rows of `aigrp_directory_peerings` with all their columns, and what writes them: the
announcements of admins, and the loop that pulls records from the directory.

A record is whatever JSON the directory has sent. The loop checks two signatures over two
texts of the record, and stores its other members as they are.
-/

namespace EighthLayer.Directory

open Lib Consults

/-! ## Members of a JSON object -/

/-- `d.get(key)`; of two members with one key, `json.loads` keeps the later one. -/
def member (d : Json) (key : String) : Option Json :=
  match d with
  | .obj ms => ms.reverse.lookup key
  | _ => none

/-- A value that is a text. -/
def asText : Json → Option String
  | .str s => some s
  | _ => none

/-- Python's truth of a value; a number is false when all its digits are zeros. -/
def isTrue : Json → Bool
  | .null => false
  | .bool b => b
  | .num n => (n.text.takeWhile fun c => c ≠ 'e').any fun c => c ≠ '0' && c ≠ '.' && c ≠ '-'
  | .str s => s ≠ ""
  | .arr xs => !xs.isEmpty
  | .obj ms => !ms.isEmpty

/-- `d.get(key) or []`. -/
def memberOrEmpty (d : Json) (key : String) : Json :=
  match member d key with
  | some v => if isTrue v then v else .arr []
  | none => .arr []

/-! ## Rows -/

/-- A row of `aigrp_directory_peerings`. The columns that hold JSON hold its value here. -/
structure PeeringRow where
  offerId : String
  fromEnterprise : String
  toEnterprise : String
  status : String
  contentPolicy : String
  consultLoggingPolicy : String
  topicFilters : Json
  activeFrom : Option String
  expiresAt : String
  offerPayload : String
  offerSignature : String
  offerSigningKeyId : String
  acceptPayload : String
  acceptSignature : String
  acceptSigningKeyId : String
  lastSyncedAt : String
  toL2Endpoints : Json

/-- An entry of a roster; whatever is no object is passed over. -/
def endpointOf (entry : Json) : Option L2Endpoint :=
  match entry with
  | .obj _ => some ⟨(member entry "l2_id").bind asText, (member entry "endpoint_url").bind asText⟩
  | _ => none

/-- The roster that the consults look their target up in. -/
def rosterOf : Json → List L2Endpoint
  | .arr entries => entries.filterMap endpointOf
  | _ => []

/-- The row as far as the consults read it. -/
def PeeringRow.toPeering (row : PeeringRow) : DirectoryPeering where
  offerId := row.offerId
  fromEnterprise := row.fromEnterprise
  toEnterprise := row.toEnterprise
  status := row.status
  contentPolicy := row.contentPolicy
  consultLoggingPolicy := row.consultLoggingPolicy
  activeFrom := row.activeFrom
  expiresAt := row.expiresAt
  offerSignature := row.offerSignature
  acceptSignature := row.acceptSignature
  lastSyncedAt := row.lastSyncedAt
  toL2Endpoints := rosterOf row.toL2Endpoints

/-- The table. -/
abbrev PeeringRows := Table PeeringRow.offerId

/-- The table as far as the consults read it. -/
def PeeringRows.toPeerings (t : PeeringRows) : PeeringTable where
  rows := t.rows.map PeeringRow.toPeering
  nodup := by
    rw [List.map_map]
    exact t.nodup

theorem PeeringRows.mem_toPeerings {t : PeeringRows} {p : DirectoryPeering} :
    p ∈ t.toPeerings ↔ ∃ row ∈ t, row.toPeering = p := List.mem_map

theorem PeeringRows.find_toPeerings (t : PeeringRows) (offerId : String) :
    t.toPeerings.find offerId = (t.find offerId).map PeeringRow.toPeering := by
  cases h : t.find offerId with
  | none =>
      refine Table.find_eq_none_iff.mpr fun p hp hid => ?_
      obtain ⟨row, hrow, rfl⟩ := PeeringRows.mem_toPeerings.mp hp
      exact Table.find_eq_none_iff.mp h row hrow hid
  | some row =>
      obtain ⟨hrow, hid⟩ := Table.find_eq_some_iff.mp h
      exact Table.find_eq_some_iff.mpr ⟨PeeringRows.mem_toPeerings.mpr ⟨row, hrow, rfl⟩, hid⟩

/-- A row in the place of one that is there: the two Enterprises stay. -/
def PeeringRow.over (row : PeeringRow) (old : Option PeeringRow) : PeeringRow :=
  { row with
    fromEnterprise := (old.map PeeringRow.fromEnterprise).getD row.fromEnterprise
    toEnterprise := (old.map PeeringRow.toEnterprise).getD row.toEnterprise }

/-- `upsert_directory_peering`. -/
def PeeringRows.upsertRow (t : PeeringRows) (row : PeeringRow) : PeeringRows :=
  t.upsert (row.over (t.find row.offerId))

theorem PeeringRows.mem_upsertRow {t : PeeringRows} {row x : PeeringRow} :
    x ∈ t.upsertRow row ↔
      x = row.over (t.find row.offerId) ∨ (x ∈ t ∧ x.offerId ≠ row.offerId) := Table.mem_upsert

/-- The consults see the table that `upsertDirectoryPeering` makes of theirs. -/
theorem PeeringRows.toPeerings_upsertRow (t : PeeringRows) (row : PeeringRow) :
    (t.upsertRow row).toPeerings = upsertDirectoryPeering t.toPeerings row.toPeering := by
  have hrow : { row.toPeering with
      fromEnterprise := ((t.toPeerings.find row.offerId).map
        DirectoryPeering.fromEnterprise).getD row.fromEnterprise
      toEnterprise := ((t.toPeerings.find row.offerId).map
        DirectoryPeering.toEnterprise).getD row.toEnterprise } =
      (row.over (t.find row.offerId)).toPeering := by
    rw [PeeringRows.find_toPeerings]
    cases t.find row.offerId with
    | none => rfl
    | some old => rfl
  unfold upsertDirectoryPeering upsertRow
  refine (congrArg (Table.upsert t.toPeerings) hrow).symm ▸ Table.ext ?_
  have hid : (row.over (t.find row.offerId)).offerId = row.offerId := rfl
  change (t.upsert (row.over (t.find row.offerId))).rows.map PeeringRow.toPeering =
    (t.toPeerings.upsert (row.over (t.find row.offerId)).toPeering).rows
  cases hfind : t.find row.offerId with
  | none =>
      rw [Table.rows_upsert_of_none (hid ▸ hfind), Table.rows_upsert_of_none, List.map_append]
      · rfl
      · exact (PeeringRows.find_toPeerings t row.offerId).trans (congrArg _ hfind)
  | some old =>
      rw [Table.rows_upsert_of_some (hid ▸ hfind), Table.rows_upsert_of_some, List.map_map]
      · change _ = (t.rows.map PeeringRow.toPeering).map _
        rw [List.map_map]
        refine List.map_congr_left fun x _ => ?_
        simp only [Function.comp_apply]
        split
        · rename_i h
          exact (if_pos h).symm
        · rename_i h
          exact (if_neg h).symm
      · exact (PeeringRows.find_toPeerings t row.offerId).trans (congrArg _ hfind)

/-! ## Announcing -/

/-- `_manual_envelope_blob`; `dumps` is `json.dumps`. -/
def manualEnvelopeBlob (dumps : Json → String) (admin role fromEnterprise toEnterprise l2Id
    ts : String) : String :=
  dumps (.obj [("source", .str "manual_directory_peer_announce"), ("role", .str role),
    ("admin_persona", .str admin), ("from_enterprise", .str fromEnterprise),
    ("to_enterprise", .str toEnterprise), ("peer_l2_id", .str l2Id), ("ts", .str ts)])

/-- The row that an announcement writes, with all its columns. -/
def manualRow (dumps : Json → String) (admin callerEnterprise : String) (req : AnnounceRequest)
    (times : AnnounceTimes req) : PeeringRow where
  offerId := buildOfferId callerEnterprise req.enterprise req.l2Id
  fromEnterprise := callerEnterprise
  toEnterprise := req.enterprise
  status := "active"
  contentPolicy := "manual"
  consultLoggingPolicy := "manual"
  topicFilters := .arr []
  activeFrom := some times.now.isoformat
  expiresAt := times.expires.isoformat
  offerPayload := manualEnvelopeBlob dumps admin "offer" callerEnterprise req.enterprise req.l2Id
    times.now.isoformat
  offerSignature := ""
  offerSigningKeyId := req.pubkey
  acceptPayload := manualEnvelopeBlob dumps admin "accept" callerEnterprise req.enterprise
    req.l2Id times.now.isoformat
  acceptSignature := ""
  acceptSigningKeyId := req.pubkey
  lastSyncedAt := times.now.isoformat
  toL2Endpoints := .arr [.obj [("l2_id", .str req.l2Id), ("endpoint_url", .str req.endpointUrl),
    ("pubkey", .str req.pubkey), ("group", .str req.group)]]

/-- `announce_directory_peering`, with all the columns of the row. The checks are those of
`announceDirectoryPeering`. -/
def announce (onCurve : Bytes → Bool) (dumps : Json → String) (t : PeeringRows) (admin : String)
    (caller : Option (Option String)) (req : AnnounceRequest) (times : AnnounceTimes req) :
    Except AnnounceRefusal PeeringRows :=
  match announceDirectoryPeering onCurve t.toPeerings caller req times with
  | .error e => .error e
  | .ok _ => .ok (t.upsertRow (manualRow dumps admin ((caller.bind id).getD "") req times))

/-- The consults read of the full row what they read of the announced one. -/
theorem toPeering_manualRow (dumps : Json → String) (admin callerEnterprise : String)
    (req : AnnounceRequest) (times : AnnounceTimes req) :
    (manualRow dumps admin callerEnterprise req times).toPeering =
      announcedRow callerEnterprise req times := rfl

/-! ## Pulling -/

/-- What the `sqlite3` driver and a `TEXT NOT NULL` column make of a value; `none` is an
exception. A text is stored as it is. -/
structure TextColumn where
  store : Json → Option String
  store_str : ∀ s, store (.str s) = some s

variable (sch : SignatureScheme)

/-- `_verify_peering_record`; `none` is an exception. -/
def verifyPeeringRecord (record : Json) (initiatorPubkey responderPubkey : String) :
    Option Bool := do
  let offerPayload ← (member record "offer_payload_canonical").bind asText
  let offerSignature ← (member record "offer_signature").bind asText
  let acceptPayload ← (member record "accept_payload_canonical").bind asText
  let acceptSignature ← (member record "accept_signature").bind asText
  some (verifyRaw sch initiatorPubkey (utf8 offerPayload) offerSignature &&
    verifyRaw sch responderPubkey (utf8 acceptPayload) acceptSignature)

/-- `d.get(key)` in a column that takes `NULL`. -/
def nullableOf (column : TextColumn) (d : Json) (key : String) : Option (Option String) :=
  match member d key with
  | none | some .null => some none
  | some v => (column.store v).map some

/-- The row that a record is to be stored as; `none` is an exception. -/
def rowOf (column : TextColumn) (now : String) (record : Json) : Option PeeringRow := do
  let offerId ← (member record "offer_id").bind column.store
  let fromEnterprise ← (member record "from_enterprise").bind column.store
  let toEnterprise ← (member record "to_enterprise").bind column.store
  let status ← (member record "status").bind column.store
  let contentPolicy ← (member record "content_policy").bind column.store
  let consultLoggingPolicy ← (member record "consult_logging_policy").bind column.store
  let activeFrom ← nullableOf column record "active_from"
  let expiresAt ← (member record "expires_at").bind column.store
  let offerPayload ← (member record "offer_payload_canonical").bind asText
  let offerSignature ← (member record "offer_signature").bind asText
  let offerSigningKeyId ← (member record "offer_signing_key_id").bind column.store
  let acceptPayload ← (member record "accept_payload_canonical").bind asText
  let acceptSignature ← (member record "accept_signature").bind asText
  let acceptSigningKeyId ← (member record "accept_signing_key_id").bind column.store
  some
    { offerId, fromEnterprise, toEnterprise, status, contentPolicy, consultLoggingPolicy
      topicFilters := memberOrEmpty record "topic_filters"
      activeFrom, expiresAt, offerPayload, offerSignature, offerSigningKeyId, acceptPayload
      acceptSignature, acceptSigningKeyId
      lastSyncedAt := now
      toL2Endpoints := memberOrEmpty record "to_l2_endpoints" }

/-- What becomes of a record. -/
inductive Pulled where
  /-- An exception, which ends the cycle. -/
  | failed
  /-- A root key is missing, or a signature is invalid. -/
  | skipped
  | persisted (row : PeeringRow)

/-- The body of the loop of `_pull_and_persist_once`. `keyOf` is `_fetch_enterprise_pubkey`, as
the directory answers it: a key, none, or an exception. -/
def pullRecord (column : TextColumn) (keyOf : Json → Option (Option String)) (now : String)
    (record : Json) : Pulled :=
  match (member record "from_enterprise").bind keyOf, (member record "to_enterprise").bind keyOf with
  | some (some initiatorPubkey), some (some responderPubkey) =>
    match verifyPeeringRecord sch record initiatorPubkey responderPubkey with
    | none => .failed
    | some false => .skipped
    | some true =>
      match rowOf column now record with
      | none => .failed
      | some row => .persisted row
  | some none, some _ | some (some _), some none => .skipped
  | _, _ => .failed

/-- `_pull_and_persist_once`, from the response on: the table, and how many records were
persisted; `none` is an exception, and what was stored before it stays. -/
def pullAndPersist (column : TextColumn) (keyOf : Json → Option (Option String)) (now : String) :
    PeeringRows → List Json → PeeringRows × Option Nat
  | t, [] => (t, some 0)
  | t, record :: records =>
    match pullRecord sch column keyOf now record with
    | .failed => (t, none)
    | .skipped => pullAndPersist column keyOf now t records
    | .persisted row =>
      let rest := pullAndPersist column keyOf now (t.upsertRow row) records
      (rest.1, rest.2.map (· + 1))

/-- The row holds the payloads and the signatures that are verified. -/
theorem rowOf_payloads {column : TextColumn} {now : String} {record : Json} {row : PeeringRow}
    (h : rowOf column now record = some row) :
    (member record "offer_payload_canonical").bind asText = some row.offerPayload ∧
      (member record "offer_signature").bind asText = some row.offerSignature ∧
      (member record "accept_payload_canonical").bind asText = some row.acceptPayload ∧
      (member record "accept_signature").bind asText = some row.acceptSignature := by
  unfold rowOf at h
  obtain ⟨_, -, h⟩ := Option.bind_eq_some_iff.mp h
  obtain ⟨_, -, h⟩ := Option.bind_eq_some_iff.mp h
  obtain ⟨_, -, h⟩ := Option.bind_eq_some_iff.mp h
  obtain ⟨_, -, h⟩ := Option.bind_eq_some_iff.mp h
  obtain ⟨_, -, h⟩ := Option.bind_eq_some_iff.mp h
  obtain ⟨_, -, h⟩ := Option.bind_eq_some_iff.mp h
  obtain ⟨_, -, h⟩ := Option.bind_eq_some_iff.mp h
  obtain ⟨_, -, h⟩ := Option.bind_eq_some_iff.mp h
  obtain ⟨offerPayload, hofferPayload, h⟩ := Option.bind_eq_some_iff.mp h
  obtain ⟨offerSignature, hofferSignature, h⟩ := Option.bind_eq_some_iff.mp h
  obtain ⟨_, -, h⟩ := Option.bind_eq_some_iff.mp h
  obtain ⟨acceptPayload, hacceptPayload, h⟩ := Option.bind_eq_some_iff.mp h
  obtain ⟨acceptSignature, hacceptSignature, h⟩ := Option.bind_eq_some_iff.mp h
  obtain ⟨_, -, h⟩ := Option.bind_eq_some_iff.mp h
  cases h
  exact ⟨hofferPayload, hofferSignature, hacceptPayload, hacceptSignature⟩

theorem verifyPeeringRecord_eq {record : Json} {row : PeeringRow} {column : TextColumn}
    {now : String} (h : rowOf column now record = some row)
    (initiatorPubkey responderPubkey : String) :
    verifyPeeringRecord sch record initiatorPubkey responderPubkey =
      some (verifyRaw sch initiatorPubkey (utf8 row.offerPayload) row.offerSignature &&
        verifyRaw sch responderPubkey (utf8 row.acceptPayload) row.acceptSignature) := by
  obtain ⟨hofferPayload, hofferSignature, hacceptPayload, hacceptSignature⟩ := rowOf_payloads h
  unfold verifyPeeringRecord
  rw [hofferPayload, hofferSignature, hacceptPayload, hacceptSignature]
  rfl

/-- What is persisted has been verified, under the keys that the directory has named. -/
theorem pullRecord_persisted {column : TextColumn} {keyOf : Json → Option (Option String)}
    {now : String} {record : Json} {row : PeeringRow}
    (h : pullRecord sch column keyOf now record = .persisted row) :
    rowOf column now record = some row ∧ ∃ initiatorPubkey responderPubkey,
      (member record "from_enterprise").bind keyOf = some (some initiatorPubkey) ∧
      (member record "to_enterprise").bind keyOf = some (some responderPubkey) ∧
      verifyPeeringRecord sch record initiatorPubkey responderPubkey = some true := by
  unfold pullRecord at h
  split at h
  · rename_i initiatorPubkey responderPubkey hinitiator hresponder
    split at h
    · cases h
    · cases h
    · rename_i hverify
      split at h
      · cases h
      · rename_i row' hrow
        cases h
        exact ⟨hrow, initiatorPubkey, responderPubkey, hinitiator, hresponder, hverify⟩
  · cases h
  · cases h
  · cases h

end EighthLayer.Directory
