import EighthLayer.Directory.SignedFacts
import EighthLayer.Lib.Runs

/-!
# EighthLayer.Directory.Bearers

Whether two peerings ever have one bearer.

A bearer is derived from the two signatures of a row, one after the other. A pulled row has two
Ed25519 signatures; an announced one has none, so that all announced rows have the bearer of the
empty text. `distinct_bearers` says what tables keep their bearers apart.
-/

namespace EighthLayer.Directory

open Lib Consults

/-! ## The material of a bearer -/

/-- A scheme whose signatures have the 64 bytes that Ed25519 signatures have. -/
structure SignatureScheme64 extends SignatureScheme where
  verify_length : ∀ pub msg sig, verify pub msg sig = true → sig.length = 64

/-- The input of the derivation in `derive_peering_bearer`; `none` when a signature does not
decode. -/
def peeringMaterial (offerSignature acceptSignature : String) : Option Bytes :=
  match b64uDecode offerSignature, b64uDecode acceptSignature with
  | some offer, some accept => some (offer ++ accept)
  | _, _ => none

theorem derivePeeringBearer_eq (offerSignature acceptSignature : String) :
    derivePeeringBearer offerSignature acceptSignature =
      (peeringMaterial offerSignature acceptSignature).map fun material =>
        b64u (hkdfSha256 (List.replicate 32 0) material (utf8 "8l-x-enterprise-bearer-v1")) := by
  unfold derivePeeringBearer peeringMaterial
  cases b64uDecode offerSignature with
  | none => rfl
  | some offer =>
      cases b64uDecode acceptSignature with
      | none => rfl
      | some accept => rfl

/-- The material of a row. -/
def PeeringRow.material (row : PeeringRow) : Option Bytes :=
  peeringMaterial row.offerSignature row.acceptSignature

theorem PeeringRow.bearer_eq (row : PeeringRow) :
    row.toPeering.bearer = row.material.map fun material =>
      b64u (hkdfSha256 (List.replicate 32 0) material (utf8 "8l-x-enterprise-bearer-v1")) :=
  derivePeeringBearer_eq row.offerSignature row.acceptSignature

/-- Two signatures that verify: their bytes, 64 each, are the material. -/
theorem material_of_verified {sch : SignatureScheme64} {offerPub offerSignature acceptPub
    acceptSignature : String} {offerMsg acceptMsg : Bytes}
    (hoffer : verifyRaw sch.toSignatureScheme offerPub offerMsg offerSignature = true)
    (haccept : verifyRaw sch.toSignatureScheme acceptPub acceptMsg acceptSignature = true) :
    ∃ offer accept, b64uDecode offerSignature = some offer ∧
      b64uDecode acceptSignature = some accept ∧ offer.length = 64 ∧ accept.length = 64 ∧
        peeringMaterial offerSignature acceptSignature = some (offer ++ accept) := by
  have hbytes : ∀ {pub signature : String} {msg : Bytes},
      verifyRaw sch.toSignatureScheme pub msg signature = true →
        ∃ bytes, b64uDecode signature = some bytes ∧ bytes.length = 64 := by
    intro pub signature msg h
    unfold verifyRaw at h
    split at h
    · rename_i key bytes hkey hdecode
      exact ⟨bytes, hdecode, sch.verify_length key msg bytes h⟩
    · cases h
  obtain ⟨offer, hdecodeOffer, hlenOffer⟩ := hbytes hoffer
  obtain ⟨accept, hdecodeAccept, hlenAccept⟩ := hbytes haccept
  refine ⟨offer, accept, hdecodeOffer, hdecodeAccept, hlenOffer, hlenAccept, ?_⟩
  unfold peeringMaterial
  rw [hdecodeOffer, hdecodeAccept]

/-! ## The writers -/

/-- What writes the table: an announcement, and a record of a pull. -/
inductive PeeringWrite where
  | announce (admin : String) (caller : Option (Option String)) (req : AnnounceRequest)
      (times : AnnounceTimes req)
  | pull (keyOf : Json → Option (Option String)) (now : String) (record : Json)

section Writes

variable (sch : SignatureScheme64) (column : TextColumn) (onCurve : Bytes → Bool)
  (dumps : Json → String)

/-- One write; a refused announcement and a record that is not persisted write nothing. -/
def PeeringWrite.apply (t : PeeringRows) : PeeringWrite → PeeringRows
  | announce admin caller req times =>
    match Directory.announce onCurve dumps t admin caller req times with
    | .ok t' => t'
    | .error _ => t
  | pull keyOf now record =>
    match pullRecord sch.toSignatureScheme column keyOf now record with
    | .persisted row => t.upsertRow row
    | .skipped | .failed => t

/-- The table after some writes. -/
def rowsAfter (writes : List PeeringWrite) : PeeringRows :=
  writes.foldl (PeeringWrite.apply sch column onCurve dumps) .empty

/-- The row is one of a record that was pulled, with two signatures that verify under the keys
that the directory has named for its Enterprises. -/
def SignedIn (writes : List PeeringWrite) (row : PeeringRow) : Prop :=
  ∃ keyOf now record, PeeringWrite.pull keyOf now record ∈ writes ∧
    Verified sch.toSignatureScheme keyOf record row

/-- Two peerings have two materials, and whoever has a material has the signatures of both
parties, of which it is made (`material_of_signedIn`). -/
structure BearersApart (writes : List PeeringWrite) (t : PeeringRows) : Prop where
  distinct : ∀ p ∈ t, ∀ q ∈ t, p.offerId ≠ q.offerId → p.material ≠ q.material
  signed : ∀ p ∈ t, SignedIn sch writes p

/-- The checks of an announcement, on what it is called with. -/
def Acceptable (caller : Option (Option String)) (req : AnnounceRequest) : Prop :=
  validateL2Id req.l2Id req.enterprise req.group = true ∧
    validatePubkey onCurve req.pubkey = true ∧ ∃ callerEnterprise,
      caller = some (some callerEnterprise) ∧ req.enterprise ≠ "default-enterprise" ∧
        callerEnterprise ≠ "default-enterprise" ∧ callerEnterprise ≠ req.enterprise

/-- An announcement fails its checks; a record that passes its own finds no row under another
offer id with its two signatures. -/
def KeepsApart (t : PeeringRows) : PeeringWrite → Prop
  | .announce _ caller req _ => ¬ Acceptable onCurve caller req
  | .pull keyOf now record =>
    ∀ row, rowOf column now record = some row → Verified sch.toSignatureScheme keyOf record row →
      ∀ old ∈ t, old.offerId ≠ row.offerId →
        ¬ (b64uDecode old.offerSignature = b64uDecode row.offerSignature ∧
          b64uDecode old.acceptSignature = b64uDecode row.acceptSignature)

variable {sch column onCurve dumps} {writes : List PeeringWrite} {t : PeeringRows}

theorem SignedIn.mono {row : PeeringRow} (h : SignedIn sch writes row) (write : PeeringWrite) :
    SignedIn sch (writes ++ [write]) row := by
  obtain ⟨keyOf, now, record, hmem, hverified⟩ := h
  exact ⟨keyOf, now, record, List.mem_append_left _ hmem, hverified⟩

theorem BearersApart.mono (h : BearersApart sch writes t) (write : PeeringWrite) :
    BearersApart sch (writes ++ [write]) t where
  distinct := h.distinct
  signed := fun p hp => (h.signed p hp).mono write

/-- An announced row is not signed. -/
theorem not_signed_of_manual {row : PeeringRow} (hempty : row.offerSignature = "") :
    ¬ SignedIn sch writes row := by
  rintro ⟨keyOf, now, record, -, initiatorPubkey, responderPubkey, -, -, hoffer, haccept⟩
  obtain ⟨offer, accept, hdecode, -, hlength, -⟩ := material_of_verified hoffer haccept
  rw [hempty] at hdecode
  cases hdecode
  cases hlength

theorem announce_ok_iff {caller : Option (Option String)} {req : AnnounceRequest}
    {times : AnnounceTimes req} {t : PeeringTable} :
    (∃ t', announceDirectoryPeering onCurve t caller req times = .ok t') ↔
      Acceptable onCurve caller req := by
  unfold announceDirectoryPeering Acceptable
  cases validateL2Id req.l2Id req.enterprise req.group with
  | false => simp
  | true =>
      cases validatePubkey onCurve req.pubkey with
      | false => simp
      | true =>
          cases caller with
          | none => simp
          | some callerEnterprise =>
              cases callerEnterprise with
              | none => simp
              | some callerEnterprise =>
                  by_cases hsentinel : req.enterprise = "default-enterprise"
                  · simp [hsentinel]
                  · by_cases hcaller : callerEnterprise = "default-enterprise"
                    · simp [hsentinel, hcaller]
                    · by_cases hown : callerEnterprise = req.enterprise
                      · simp [hown, hsentinel]
                      · simp [hsentinel, hcaller, hown]

/-- An announcement keeps the bearers apart exactly where it is refused. -/
theorem apart_announce_iff (h : BearersApart sch writes t) (admin : String)
    (caller : Option (Option String)) (req : AnnounceRequest) (times : AnnounceTimes req) :
    BearersApart sch (writes ++ [.announce admin caller req times])
        ((PeeringWrite.announce admin caller req times).apply sch column onCurve dumps t) ↔
      KeepsApart sch column onCurve t (.announce admin caller req times) := by
  have hchecks : (∃ t', announceDirectoryPeering onCurve t.toPeerings caller req times = .ok t') ↔
      Acceptable onCurve caller req := announce_ok_iff
  cases hok : announceDirectoryPeering onCurve t.toPeerings caller req times with
  | error e =>
      refine iff_of_true ?_ fun hacceptable => ?_
      · unfold PeeringWrite.apply Directory.announce
        simp only [hok]
        exact h.mono _
      · obtain ⟨t', ht'⟩ := hchecks.mpr hacceptable
        rw [hok] at ht'
        cases ht'
  | ok t' =>
      refine iff_of_false (fun hafter => ?_) (not_not_intro (hchecks.mp ⟨t', hok⟩))
      -- the new row is there, and has no signature
      have hrow : (manualRow dumps admin ((caller.bind id).getD "") req times).over
            (t.find (manualRow dumps admin ((caller.bind id).getD "") req times).offerId) ∈
          (PeeringWrite.announce admin caller req times).apply sch column onCurve dumps t := by
        unfold PeeringWrite.apply Directory.announce
        simp only [hok]
        exact PeeringRows.mem_upsertRow.mpr (.inl rfl)
      exact not_signed_of_manual rfl (hafter.signed _ hrow)

theorem pullRecord_persisted_iff {keyOf : Json → Option (Option String)} {now : String}
    {record : Json} {row : PeeringRow} :
    pullRecord sch.toSignatureScheme column keyOf now record = .persisted row ↔
      rowOf column now record = some row ∧
        Verified sch.toSignatureScheme keyOf record row := by
  constructor
  · intro h
    exact ⟨(pullRecord_persisted _ h).1, verified_of_persisted h⟩
  · rintro ⟨hrow, initiatorPubkey, responderPubkey, hinitiator, hresponder, hoffer, haccept⟩
    have hverify := verifyPeeringRecord_eq sch.toSignatureScheme hrow initiatorPubkey
      responderPubkey
    rw [hoffer, haccept, Bool.and_self] at hverify
    unfold pullRecord
    rw [hinitiator, hresponder]
    simp only [hverify, hrow]

/-- A row whose signatures are verified has them for its material. -/
theorem material_of_signedIn {row : PeeringRow} (h : SignedIn sch writes row) :
    ∃ offer accept, b64uDecode row.offerSignature = some offer ∧
      b64uDecode row.acceptSignature = some accept ∧ offer.length = 64 ∧ accept.length = 64 ∧
        row.material = some (offer ++ accept) := by
  obtain ⟨keyOf, now, record, -, initiatorPubkey, responderPubkey, -, -, hoffer, haccept⟩ := h
  exact material_of_verified hoffer haccept

/-- Two such rows have one material exactly where they have one offer and one acceptance. -/
theorem material_eq_iff {p q : PeeringRow} (hp : SignedIn sch writes p)
    (hq : SignedIn sch writes q) :
    p.material = q.material ↔ b64uDecode p.offerSignature = b64uDecode q.offerSignature ∧
      b64uDecode p.acceptSignature = b64uDecode q.acceptSignature := by
  obtain ⟨offer, accept, hoffer, haccept, hlength, -, hmaterial⟩ := material_of_signedIn hp
  obtain ⟨offer', accept', hoffer', haccept', hlength', -, hmaterial'⟩ := material_of_signedIn hq
  rw [hoffer, haccept, hoffer', haccept', hmaterial, hmaterial', Option.some.injEq,
    Option.some.injEq, Option.some.injEq]
  constructor
  · intro happend
    exact List.append_inj happend (hlength.trans hlength'.symm)
  · rintro ⟨rfl, rfl⟩
    rfl

/-- A record keeps the bearers apart exactly where no other row has its two signatures. -/
theorem apart_pull_iff (h : BearersApart sch writes t) (keyOf : Json → Option (Option String))
    (now : String) (record : Json) :
    BearersApart sch (writes ++ [.pull keyOf now record])
        ((PeeringWrite.pull keyOf now record).apply sch column onCurve dumps t) ↔
      KeepsApart sch column onCurve t (.pull keyOf now record) := by
  cases hpull : pullRecord sch.toSignatureScheme column keyOf now record with
  | persisted row =>
      obtain ⟨hrow, hverified⟩ := pullRecord_persisted_iff.mp hpull
      have happly : (PeeringWrite.pull keyOf now record).apply sch column onCurve dumps t =
          t.upsertRow row := by
        unfold PeeringWrite.apply
        simp only [hpull]
      have hsigned : SignedIn sch (writes ++ [.pull keyOf now record])
          (row.over (t.find row.offerId)) :=
        ⟨keyOf, now, record, List.mem_append_right _ (List.mem_singleton_self _), hverified⟩
      have hmono := h.mono (.pull keyOf now record)
      rw [happly]
      constructor
      · intro hafter row' hrow' _ old hold hne hsame
        obtain rfl := Option.some.inj (hrow.symm.trans hrow')
        exact hafter.distinct old (PeeringRows.mem_upsertRow.mpr (.inr ⟨hold, hne⟩)) _
          (PeeringRows.mem_upsertRow.mpr (.inl rfl)) hne
          ((material_eq_iff (hmono.signed old hold) hsigned).mpr hsame)
      · intro hkeeps
        have hother : ∀ old ∈ t, old.offerId ≠ row.offerId →
            old.material ≠ (row.over (t.find row.offerId)).material := fun old hold hne hmaterial =>
          hkeeps row hrow hverified old hold hne
            ((material_eq_iff (hmono.signed old hold) hsigned).mp hmaterial)
        constructor
        · intro p hp q hq hne
          rcases PeeringRows.mem_upsertRow.mp hp with rfl | ⟨hp, hpne⟩
          · rcases PeeringRows.mem_upsertRow.mp hq with rfl | ⟨hq, hqne⟩
            · exact absurd rfl hne
            · exact (hother q hq hqne).symm
          · rcases PeeringRows.mem_upsertRow.mp hq with rfl | ⟨hq, hqne⟩
            · exact hother p hp hpne
            · exact h.distinct p hp q hq hne
        · intro p hp
          rcases PeeringRows.mem_upsertRow.mp hp with rfl | ⟨hp, -⟩
          · exact hsigned
          · exact hmono.signed p hp
  | failed | skipped =>
      have happly : (PeeringWrite.pull keyOf now record).apply sch column onCurve dumps t = t := by
        unfold PeeringWrite.apply
        simp only [hpull]
      rw [happly]
      refine iff_of_true (h.mono _) fun row hrow hverified => ?_
      rw [pullRecord_persisted_iff.mpr ⟨hrow, hverified⟩] at hpull
      cases hpull

/-- **One write.** -/
theorem apart_apply_iff (h : BearersApart sch writes t) (write : PeeringWrite) :
    BearersApart sch (writes ++ [write]) (write.apply sch column onCurve dumps t) ↔
      KeepsApart sch column onCurve t write := by
  cases write with
  | announce admin caller req times => exact apart_announce_iff h admin caller req times
  | pull keyOf now record => exact apart_pull_iff h keyOf now record

/-- No two rows of a table collide under the derivation. -/
def CollisionFree (t : PeeringRows) : Prop :=
  ∀ p ∈ t, ∀ q ∈ t, p.toPeering.bearer ≠ none → p.toPeering.bearer = q.toPeering.bearer →
    p.material = q.material

theorem row_of_bearer (h : BearersApart sch writes t) (hfree : CollisionFree t)
    {p q : PeeringRow} (hp : p ∈ t) (hq : q ∈ t) {bearer : String}
    (hbearer : p.toPeering.bearer = some bearer) (hbearer' : q.toPeering.bearer = some bearer) :
    p = q := by
  refine Table.eq_of_key_eq hp hq (Decidable.byContradiction fun hne => ?_)
  exact h.distinct p hp q hq hne
    (hfree p hp q hq (hbearer ▸ Option.some_ne_none _) (hbearer.trans hbearer'.symm))

end Writes

/-- A scheme with signatures of 64 bytes: the key and the message, cut or filled up. -/
def plain64 : SignatureScheme64 where
  PrivKey := Bytes
  publicKey k := k
  sign k msg := (k ++ msg ++ List.replicate 64 0).take 64
  verify pub msg sig := sig = (pub ++ msg ++ List.replicate 64 0).take 64
  verify_sign _ _ := decide_eq_true rfl
  verify_length pub msg sig h := by
    rw [of_decide_eq_true h, List.length_take, List.length_append, List.length_replicate]
    omega

/-- The peering of acme and globex is pulled. -/
def samplePull (texts : SampleTexts) : List PeeringWrite :=
  [.pull (sampleKeyOf (b64u [1]) (b64u [2])) "2026-06-01T00:00:00Z"
    (sampleRecord texts "summary_only")]

theorem opsId_length : 3 ≤ "globex/ops".length ∧ "globex/ops".length ≤ 128 := by decide
theorem opsEnterprise_length : 1 ≤ "globex".length ∧ "globex".length ≤ 64 := by decide
theorem opsGroup_length : 1 ≤ "ops".length ∧ "ops".length ≤ 64 := by decide

/-- Another L2 of globex. -/
def announceOps : AnnounceRequest :=
  sampleAnnounce "globex/ops" "globex" "ops" opsId_length opsEnterprise_length opsGroup_length

/-- An admin of acme has announced two L2s of globex. -/
def announcedTwice : List PeeringWrite :=
  [.announce "alice" (some (some "acme")) announceGlobex globexTimes,
    .announce "alice" (some (some "acme")) announceOps
      ⟨oneOClock, inThirtyDays, globexTimes.expires_eq⟩]

end EighthLayer.Directory
