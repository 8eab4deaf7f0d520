import EighthLayer.Directory.Peerings

/-!
# EighthLayer.Directory.SignedFacts

Whether what the pull loop stores is what the two parties have signed.

The loop verifies the signatures over the two payloads of a record, and stores the record's
other members, which nobody has signed; where a row with the offer id is there, its two
Enterprises stay in the place of the record's. So the stored row says what the payloads say
exactly where the directory's record does and the row that was there names the same
Enterprises (`pull_signed_facts`).
-/

namespace EighthLayer.Directory

open Lib Consults

/-! ## What the payloads say -/

/-- A canonical payload says so: it is the text of an object that has this member. -/
def Says (payload key : String) (v : Json) : Prop :=
  ∃ ms, payload = String.ofList (Json.print (.obj ms)) ∧ member (.obj ms) key = some v

/-- The list that a canonical payload gives, the empty one where it gives none. -/
def SaysList (payload key : String) (v : Json) : Prop :=
  ∃ ms, payload = String.ofList (Json.print (.obj ms)) ∧ memberOrEmpty (.obj ms) key = v

/-- A payload says one thing. -/
theorem Says.unique {payload key : String} {v w : Json} (h : Says payload key v)
    (h' : Says payload key w) : v = w := by
  obtain ⟨ms, rfl, hv⟩ := h
  obtain ⟨ms', heq, hw⟩ := h'
  have hprint := Json.print_injective (String.ofList_injective heq)
  cases hprint
  exact Option.some.inj (hv.symm.trans hw)

/-- A column agrees with what a payload says. -/
def SaysText (column : TextColumn) (payload key text : String) : Prop :=
  ∃ v, Says payload key v ∧ column.store v = some text

theorem SaysText.unique {column : TextColumn} {payload key text text' : String}
    (h : SaysText column payload key text) (h' : SaysText column payload key text') :
    text = text' := by
  obtain ⟨v, hv, hstore⟩ := h
  obtain ⟨w, hw, hstore'⟩ := h'
  rw [hv.unique hw] at hstore
  exact Option.some.inj (hstore.symm.trans hstore')

/-- Every column of the row that the consults rely on agrees with the payloads of the row. The
offer gives the parties, the policies, the topics and the expiry, the acceptance its time, and
either of them the status and the roster. -/
structure Signed (column : TextColumn) (row : PeeringRow) : Prop where
  fromEnterprise : SaysText column row.offerPayload "from_enterprise" row.fromEnterprise
  toEnterprise : SaysText column row.offerPayload "to_enterprise" row.toEnterprise
  status : SaysText column row.offerPayload "status" row.status ∨
    SaysText column row.acceptPayload "status" row.status
  contentPolicy : SaysText column row.offerPayload "content_policy" row.contentPolicy
  consultLoggingPolicy :
    SaysText column row.offerPayload "consult_logging_policy" row.consultLoggingPolicy
  topicFilters : SaysList row.offerPayload "topic_filters" row.topicFilters
  activeFrom : ∃ accepted ∈ row.activeFrom,
    SaysText column row.acceptPayload "accept_ts" accepted
  expiresAt : SaysText column row.offerPayload "expires_at" row.expiresAt
  toL2Endpoints : SaysList row.offerPayload "to_l2_endpoints" row.toL2Endpoints ∨
    SaysList row.acceptPayload "to_l2_endpoints" row.toL2Endpoints

/-! ## One record -/

/-- A row that is there under the offer id names the same Enterprises. -/
def SameEnterprises (t : PeeringRows) (row : PeeringRow) : Prop :=
  ∀ old ∈ t, old.offerId = row.offerId →
    old.fromEnterprise = row.fromEnterprise ∧ old.toEnterprise = row.toEnterprise

/-- The row is stored in the table as the parties have signed it, and was sent so. -/
def StoredAsSigned (column : TextColumn) (t : PeeringRows) (row : PeeringRow) : Prop :=
  Signed column row ∧
    ∃ stored, (t.upsertRow row).find row.offerId = some stored ∧ Signed column stored

theorem find_upsertRow (t : PeeringRows) (row : PeeringRow) :
    (t.upsertRow row).find row.offerId = some (row.over (t.find row.offerId)) :=
  Table.find_upsert_self t (row.over (t.find row.offerId))

/-- A row that names the same Enterprises changes nothing. -/
theorem over_eq_self {t : PeeringRows} {row : PeeringRow} (h : SameEnterprises t row) :
    row.over (t.find row.offerId) = row := by
  cases hfind : t.find row.offerId with
  | none => rfl
  | some old =>
      obtain ⟨hold, hid⟩ := Table.find_eq_some_iff.mp hfind
      obtain ⟨hfrom, hto⟩ := h old hold hid
      unfold PeeringRow.over
      rw [Option.map_some, Option.map_some, Option.getD_some, Option.getD_some, hfrom, hto]

/-- **One record.** It is stored as signed exactly where it was sent as signed and nothing else
is there under its offer id. -/
theorem storedAsSigned_iff {column : TextColumn} {t : PeeringRows} {row : PeeringRow} :
    StoredAsSigned column t row ↔ Signed column row ∧ SameEnterprises t row := by
  constructor
  · rintro ⟨hrow, stored, hfind, hstored⟩
    obtain rfl := Option.some.inj ((find_upsertRow t row).symm.trans hfind)
    refine ⟨hrow, fun old hold hid => ?_⟩
    have hold' : t.find row.offerId = some old := Table.find_eq_some_iff.mpr ⟨hold, hid⟩
    rw [hold'] at hstored
    -- the stored row has the old names, and the payload has one name for each
    exact ⟨hstored.fromEnterprise.unique hrow.fromEnterprise,
      hstored.toEnterprise.unique hrow.toEnterprise⟩
  · rintro ⟨hrow, hsame⟩
    refine ⟨hrow, row, ?_, hrow⟩
    rw [find_upsertRow, over_eq_self hsame]

/-! ## A cycle -/

variable (sch : SignatureScheme) (column : TextColumn) (keyOf : Json → Option (Option String))
  (now : String)

/-- Each record that a cycle persists has a property, of the table it comes to, the record and
the row. -/
def EachPersisted (P : PeeringRows → Json → PeeringRow → Prop) : PeeringRows → List Json → Prop
  | _, [] => True
  | t, record :: records =>
    match pullRecord sch column keyOf now record with
    | .failed => True
    | .skipped => EachPersisted P t records
    | .persisted row => P t record row ∧ EachPersisted P (t.upsertRow row) records

/-- Both payloads of the row are signed, under the keys that the directory has for the two
Enterprises of the record. -/
def Verified (record : Json) (row : PeeringRow) : Prop :=
  ∃ initiatorPubkey responderPubkey,
    (member record "from_enterprise").bind keyOf = some (some initiatorPubkey) ∧
    (member record "to_enterprise").bind keyOf = some (some responderPubkey) ∧
    verifyRaw sch initiatorPubkey (utf8 row.offerPayload) row.offerSignature = true ∧
    verifyRaw sch responderPubkey (utf8 row.acceptPayload) row.acceptSignature = true

variable {sch column keyOf now}

theorem EachPersisted.imp {P P' : PeeringRows → Json → PeeringRow → Prop}
    (himp : ∀ t record row, pullRecord sch column keyOf now record = .persisted row →
      P t record row → P' t record row) {records : List Json} :
    ∀ {t : PeeringRows}, EachPersisted sch column keyOf now P t records →
      EachPersisted sch column keyOf now P' t records := by
  induction records with
  | nil => exact fun _ => trivial
  | cons record records ih =>
      intro t h
      unfold EachPersisted at h ⊢
      split
      · trivial
      · rename_i hskipped
        rw [hskipped] at h
        exact ih h
      · rename_i row hpersisted
        rw [hpersisted] at h
        exact ⟨himp t record row hpersisted h.1, ih h.2⟩

theorem eachPersisted_of_all {P : PeeringRows → Json → PeeringRow → Prop}
    (hall : ∀ t record row, pullRecord sch column keyOf now record = .persisted row →
      P t record row) (t : PeeringRows) (records : List Json) :
    EachPersisted sch column keyOf now P t records := by
  induction records generalizing t with
  | nil => trivial
  | cons record records ih =>
      unfold EachPersisted
      split
      · trivial
      · exact ih t
      · rename_i row hpersisted
        exact ⟨hall t record row hpersisted, ih _⟩

/-- What is persisted is verified, over the payloads that are stored. -/
theorem verified_of_persisted {record : Json} {row : PeeringRow}
    (h : pullRecord sch column keyOf now record = .persisted row) :
    Verified sch keyOf record row := by
  obtain ⟨hrow, initiatorPubkey, responderPubkey, hinitiator, hresponder, hverify⟩ :=
    pullRecord_persisted sch h
  rw [verifyPeeringRecord_eq sch hrow, Option.some.injEq, Bool.and_eq_true] at hverify
  exact ⟨initiatorPubkey, responderPubkey, hinitiator, hresponder, hverify⟩

/-- The rows after a cycle are those before it and those it has stored. -/
theorem mem_pullAndPersist {records : List Json} {t : PeeringRows}
    (h : EachPersisted sch column keyOf now (fun t _ row => StoredAsSigned column t row) t records)
    {row : PeeringRow} (hrow : row ∈ (pullAndPersist sch column keyOf now t records).1) :
    row ∈ t ∨ Signed column row := by
  induction records generalizing t with
  | nil => exact .inl hrow
  | cons record records ih =>
      unfold pullAndPersist at hrow
      unfold EachPersisted at h
      split at hrow
      · exact .inl hrow
      · rename_i hskipped
        rw [hskipped] at h
        exact ih h hrow
      · rename_i pulled hpersisted
        rw [hpersisted] at h
        obtain ⟨⟨-, stored, hfind, hsigned⟩, hrest⟩ := h
        rcases ih hrest hrow with hmem | hsigned'
        · rcases PeeringRows.mem_upsertRow.mp hmem with rfl | ⟨hmem, -⟩
          · obtain rfl := Option.some.inj ((find_upsertRow t pulled).symm.trans hfind)
            exact .inr hsigned
          · exact .inl hmem
        · exact .inr hsigned'

/-- **What a pull stores.** Whatever the directory has sent: each record that is persisted has
two payloads signed by the parties. Each is stored as it is signed exactly where the directory
has sent it as it is signed, and no row under its offer id names other Enterprises; and then
the cycle leaves no row but such rows and those that were there. -/
theorem pull_signed_facts (sch : SignatureScheme) (column : TextColumn)
    (keyOf : Json → Option (Option String)) (now : String) (t : PeeringRows)
    (records : List Json) :
    EachPersisted sch column keyOf now (fun _ record row => Verified sch keyOf record row) t
        records ∧
      (EachPersisted sch column keyOf now (fun t _ row => StoredAsSigned column t row) t records ↔
        EachPersisted sch column keyOf now
          (fun t _ row => Signed column row ∧ SameEnterprises t row) t records) ∧
      (EachPersisted sch column keyOf now
          (fun t _ row => Signed column row ∧ SameEnterprises t row) t records →
        ∀ row ∈ (pullAndPersist sch column keyOf now t records).1,
          row ∈ t ∨ Signed column row) := by
  refine ⟨eachPersisted_of_all (fun _ _ _ => verified_of_persisted) t records, ⟨?_, ?_⟩, ?_⟩
  · exact EachPersisted.imp fun _ _ _ _ => storedAsSigned_iff.mp
  · exact EachPersisted.imp fun _ _ _ _ => storedAsSigned_iff.mpr
  · intro h row hrow
    exact mem_pullAndPersist (h.imp fun _ _ _ _ => storedAsSigned_iff.mpr) hrow

/-! ### A peering of acme and globex

The offer allows summaries. -/

/-- A column that takes texts only. -/
def textsOnly : TextColumn where
  store := asText
  store_str _ := rfl

/-- The offer and the acceptance. -/
def offerFields : List (String × Json) :=
  [("consult_logging_policy", .str "mutual_log_required"), ("content_policy", .str "summary_only"),
    ("expires_at", .str "2026-12-31T23:59:59Z"), ("from_enterprise", .str "acme"),
    ("offer_id", .str "off1"), ("status", .str "active"), ("to_enterprise", .str "globex")]

def acceptFields : List (String × Json) :=
  [("accept_ts", .str "2026-05-01T20:45:00Z"), ("offer_id", .str "off1")]

/-- The canonical text of some members. -/
def canonicalText (ms : List (String × Json)) : String := String.ofList (Json.print (.obj ms))

/-- The directory's answers, for the public keys of the two Enterprises. -/
def sampleKeyOf (acmePubkey globexPubkey : String) (enterprise : Json) :
    Option (Option String) :=
  (asText enterprise).map fun name =>
    if name = "acme" then some acmePubkey
    else if name = "globex" then some globexPubkey
    else none

/-- The texts of a record: the payloads and their signatures. -/
structure SampleTexts where
  offer : String
  offerSignature : String
  accept : String
  acceptSignature : String

/-- The record of the peering, with a content policy of the directory's choice. -/
def sampleRecord (texts : SampleTexts) (contentPolicy : String) : Json :=
  .obj [("offer_id", .str "off1"), ("from_enterprise", .str "acme"),
    ("to_enterprise", .str "globex"), ("status", .str "active"),
    ("content_policy", .str contentPolicy),
    ("consult_logging_policy", .str "mutual_log_required"),
    ("active_from", .str "2026-05-01T20:45:00Z"), ("expires_at", .str "2026-12-31T23:59:59Z"),
    ("offer_payload_canonical", .str texts.offer), ("offer_signature", .str texts.offerSignature),
    ("offer_signing_key_id", .str "acme-root"), ("accept_payload_canonical", .str texts.accept),
    ("accept_signature", .str texts.acceptSignature),
    ("accept_signing_key_id", .str "globex-root")]

/-- The row it becomes. -/
def sampleRow (texts : SampleTexts) (contentPolicy : String) : PeeringRow where
  offerId := "off1"
  fromEnterprise := "acme"
  toEnterprise := "globex"
  status := "active"
  contentPolicy
  consultLoggingPolicy := "mutual_log_required"
  topicFilters := .arr []
  activeFrom := some "2026-05-01T20:45:00Z"
  expiresAt := "2026-12-31T23:59:59Z"
  offerPayload := texts.offer
  offerSignature := texts.offerSignature
  offerSigningKeyId := "acme-root"
  acceptPayload := texts.accept
  acceptSignature := texts.acceptSignature
  acceptSigningKeyId := "globex-root"
  lastSyncedAt := "2026-06-01T00:00:00Z"
  toL2Endpoints := .arr []

/-- The texts are the payloads above, signed by the two Enterprises. -/
structure SampleTexts.Genuine (texts : SampleTexts) (sch : SignatureScheme)
    (acmePubkey globexPubkey : String) : Prop where
  offer : texts.offer = canonicalText offerFields
  accept : texts.accept = canonicalText acceptFields
  offerVerifies : verifyRaw sch acmePubkey (utf8 texts.offer) texts.offerSignature = true
  acceptVerifies : verifyRaw sch globexPubkey (utf8 texts.accept) texts.acceptSignature = true

theorem exists_genuine (sch : SignatureScheme) (acmeKey globexKey : sch.PrivKey) :
    ∃ texts : SampleTexts,
      texts.Genuine sch (publicKeyB64u sch acmeKey) (publicKeyB64u sch globexKey) :=
  ⟨⟨canonicalText offerFields, signRaw sch acmeKey (utf8 (canonicalText offerFields)),
      canonicalText acceptFields, signRaw sch globexKey (utf8 (canonicalText acceptFields))⟩,
    rfl, rfl, verifyRaw_signRaw sch _ _, verifyRaw_signRaw sch _ _⟩

section Genuine

variable {texts : SampleTexts} {sch : SignatureScheme} {acmePubkey globexPubkey : String}

theorem sampleRecord_persisted (hgenuine : texts.Genuine sch acmePubkey globexPubkey)
    (contentPolicy : String) :
    pullRecord sch textsOnly (sampleKeyOf acmePubkey globexPubkey) "2026-06-01T00:00:00Z"
      (sampleRecord texts contentPolicy) = .persisted (sampleRow texts contentPolicy) := by
  have hrow : rowOf textsOnly "2026-06-01T00:00:00Z" (sampleRecord texts contentPolicy) =
      some (sampleRow texts contentPolicy) := by
    simp [rowOf, nullableOf, memberOrEmpty, member, sampleRecord, List.lookup_cons, sampleRow,
      textsOnly, asText]
  have hinitiator : (member (sampleRecord texts contentPolicy) "from_enterprise").bind
      (sampleKeyOf acmePubkey globexPubkey) = some (some acmePubkey) := by
    simp [member, sampleRecord, List.lookup_cons, sampleKeyOf, asText]
  have hresponder : (member (sampleRecord texts contentPolicy) "to_enterprise").bind
      (sampleKeyOf acmePubkey globexPubkey) = some (some globexPubkey) := by
    simp [member, sampleRecord, List.lookup_cons, sampleKeyOf, asText]
  have hverify : verifyPeeringRecord sch (sampleRecord texts contentPolicy) acmePubkey
      globexPubkey = some true := by
    rw [verifyPeeringRecord_eq _ hrow]
    simp only [sampleRow, hgenuine.offerVerifies, hgenuine.acceptVerifies, Bool.and_self]
  unfold pullRecord
  rw [hinitiator, hresponder]
  simp only [hverify, hrow]

/-- The members of the payloads, as they are read back. -/
theorem offer_says (hgenuine : texts.Genuine sch acmePubkey globexPubkey) {key : String} {v : Json}
    (h : member (.obj offerFields) key = some v) : Says texts.offer key v :=
  ⟨offerFields, hgenuine.offer, h⟩

theorem accept_says (hgenuine : texts.Genuine sch acmePubkey globexPubkey) {key : String} {v : Json}
    (h : member (.obj acceptFields) key = some v) : Says texts.accept key v :=
  ⟨acceptFields, hgenuine.accept, h⟩

/-- The row is as signed with the policy of the offer. -/
theorem sampleRow_signed (hgenuine : texts.Genuine sch acmePubkey globexPubkey) :
    Signed textsOnly (sampleRow texts "summary_only") where
  fromEnterprise := ⟨.str "acme",
    offer_says hgenuine (by simp [member, offerFields, List.lookup_cons]), rfl⟩
  toEnterprise := ⟨.str "globex", offer_says hgenuine (by simp [member, offerFields]), rfl⟩
  status := .inl ⟨.str "active",
    offer_says hgenuine (by simp [member, offerFields, List.lookup_cons]), rfl⟩
  contentPolicy := ⟨.str "summary_only",
    offer_says hgenuine (by simp [member, offerFields, List.lookup_cons]), rfl⟩
  consultLoggingPolicy := ⟨.str "mutual_log_required",
    offer_says hgenuine (by simp [member, offerFields, List.lookup_cons]), rfl⟩
  topicFilters := ⟨offerFields, hgenuine.offer,
    by simp [memberOrEmpty, member, offerFields, List.lookup_cons, sampleRow]⟩
  activeFrom := ⟨_, rfl, .str "2026-05-01T20:45:00Z",
    accept_says hgenuine (by simp [member, acceptFields, List.lookup_cons]), rfl⟩
  expiresAt := ⟨.str "2026-12-31T23:59:59Z",
    offer_says hgenuine (by simp [member, offerFields, List.lookup_cons]), rfl⟩
  toL2Endpoints := .inl ⟨offerFields, hgenuine.offer,
    by simp [memberOrEmpty, member, offerFields, List.lookup_cons, sampleRow]⟩

end Genuine

/-- What acme and globex have signed, under a scheme whose signatures are plain. -/
theorem plain_genuine : ∃ texts : SampleTexts, texts.Genuine .transparent (b64u [1]) (b64u [2]) :=
  exists_genuine .transparent [1] [2]

/-- A record that is sent as it is signed is stored so. -/
theorem pull_signed_facts_sample :
    ∃ texts : SampleTexts, texts.Genuine .transparent (b64u [1]) (b64u [2]) ∧
      ∀ row ∈ (pullAndPersist .transparent textsOnly (sampleKeyOf (b64u [1]) (b64u [2]))
        "2026-06-01T00:00:00Z" .empty [sampleRecord texts "summary_only"]).1,
          row ∈ (Table.empty : PeeringRows) ∨ Signed textsOnly row := by
  obtain ⟨texts, hgenuine⟩ := plain_genuine
  have h := pull_signed_facts .transparent textsOnly (sampleKeyOf (b64u [1]) (b64u [2]))
    "2026-06-01T00:00:00Z" .empty [sampleRecord texts "summary_only"]
  refine ⟨texts, hgenuine, h.2.2 ?_⟩
  unfold EachPersisted
  simp only [sampleRecord_persisted hgenuine]
  exact ⟨⟨sampleRow_signed hgenuine, fun _ hold => absurd hold (Table.not_mem_empty _)⟩, trivial⟩

/-- The directory has changed the content policy, and the signatures hold: the row is stored
with a policy that nobody has signed. -/
theorem unsigned_policy_stored :
    ∃ texts : SampleTexts, texts.Genuine .transparent (b64u [1]) (b64u [2]) ∧
      pullRecord .transparent textsOnly (sampleKeyOf (b64u [1]) (b64u [2]))
        "2026-06-01T00:00:00Z" (sampleRecord texts "full") = .persisted (sampleRow texts "full") ∧
      ¬ EachPersisted .transparent textsOnly (sampleKeyOf (b64u [1]) (b64u [2]))
        "2026-06-01T00:00:00Z" (fun t _ row => StoredAsSigned textsOnly t row) .empty
        [sampleRecord texts "full"] := by
  obtain ⟨texts, hgenuine⟩ := plain_genuine
  refine ⟨texts, hgenuine, sampleRecord_persisted hgenuine "full", fun h => ?_⟩
  unfold EachPersisted at h
  simp only [sampleRecord_persisted hgenuine] at h
  have hsaid : SaysText textsOnly texts.offer "content_policy" "summary_only" :=
    ⟨.str "summary_only", offer_says hgenuine (by simp [member, offerFields, List.lookup_cons]), rfl⟩
  have heq : "full" = "summary_only" := h.1.1.contentPolicy.unique hsaid
  exact absurd heq (by decide)

end EighthLayer.Directory
