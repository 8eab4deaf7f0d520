import EighthLayer.Reputation.DailyRoot

/-!
# EighthLayer.Reputation.RootAudit

What `verify_root` says about the events it is given. A valid signature pins the
payload to the one the writer signed, and the payload's Merkle root pins the
events' hashes, but only among lists of as many well-formed hashes as the
payload counts: that comparison is left to the caller.
-/

namespace EighthLayer.Reputation

open Lib

variable {sch : SignatureScheme}

/-! ## From the signature to the payload -/

theorem eq_of_sortKeys_str {v : Json} {s : String} (h : v.sortKeys = .str s) : v = .str s := by
  cases v <;> simp_all [Json.sortKeys]

theorem eq_of_sortKeys_ofNat {v : Json} {n : Nat} (h : v.sortKeys = .ofNat n) : v = .ofNat n := by
  cases v <;> simp_all [Json.sortKeys, Json.ofNat]

theorem eq_of_sortKeys_ofOption {v : Json} {o : Option String}
    (h : v.sortKeys = .ofOption o) : v = .ofOption o := by
  cases o <;> cases v <;> simp_all [Json.sortKeys, Json.ofOption]

theorem RootDict.members_keys (root : RootDict) : (root.members.map Prod.fst).Nodup := by
  have hkeys : ["enterprise_id", "root_date", "event_count", "merkle_root_hash",
    "first_event_id", "last_event_id"].Nodup := by decide
  exact hkeys

/-- A root dict that names what a row names. -/
structure RootDict.Names (root : RootDict) (row : RootRow) : Prop where
  enterpriseId : root.enterpriseId = .str row.enterpriseId
  rootDate : root.rootDate = .str row.rootDate
  eventCount : root.eventCount = .ofNat row.eventCount
  merkleRootHash : root.merkleRootHash = .str row.merkleRootHash
  firstEventId : root.firstEventId = .ofOption row.firstEventId
  lastEventId : root.lastEventId = .ofOption row.lastEventId

/-- The signed bytes determine what is named. -/
theorem RootDict.names_of_canonicalBytes {root : RootDict} {row : RootRow}
    (h : root.canonicalBytes = row.toDict.canonicalBytes) : root.Names row := by
  have hdumps : Json.dumps (.obj root.members) = Json.dumps (.obj row.toDict.members) :=
    utf8_injective h
  have hvalue : ∀ {k v w}, (k, v) ∈ root.members → (k, w) ∈ row.toDict.members →
      v.sortKeys = w.sortKeys := fun hv hw =>
    Json.dumps_obj_value hdumps (RootDict.members_keys _) hv hw
  refine ⟨eq_of_sortKeys_str ?_, eq_of_sortKeys_str ?_, eq_of_sortKeys_ofNat ?_,
    eq_of_sortKeys_str ?_, eq_of_sortKeys_ofOption ?_, eq_of_sortKeys_ofOption ?_⟩
  · exact hvalue (k := "enterprise_id") (v := root.enterpriseId) (w := .str row.enterpriseId)
      (by simp [members]) (by simp [members, RootRow.toDict])
  · exact hvalue (k := "root_date") (v := root.rootDate) (w := .str row.rootDate)
      (by simp [members]) (by simp [members, RootRow.toDict])
  · exact hvalue (k := "event_count") (v := root.eventCount) (w := .ofNat row.eventCount)
      (by simp [members]) (by simp [members, RootRow.toDict])
  · exact hvalue (k := "merkle_root_hash") (v := root.merkleRootHash)
      (w := .str row.merkleRootHash) (by simp [members]) (by simp [members, RootRow.toDict])
  · rw [← Json.sortKeys_ofOption]
    exact hvalue (k := "first_event_id") (by simp [members]) (by simp [members, RootRow.toDict])
  · rw [← Json.sortKeys_ofOption]
    exact hvalue (k := "last_event_id") (by simp [members]) (by simp [members, RootRow.toDict])

/-- A signature that is present was checked. -/
theorem verifyRaw_of_rootSignatureValid {root : RootDict}
    (hsigned : root.signatureB64u.truthy = true ∧ root.signingKeyId.truthy = true)
    (h : rootSignatureValid sch root = some none ∨ rootSignatureValid sch root = some (some true)) :
    ∃ kid sig, root.signingKeyId = .str kid ∧ root.signatureB64u = .str sig ∧
      verifyRaw sch kid root.canonicalBytes sig = true := by
  unfold rootSignatureValid at h
  rw [hsigned.1, hsigned.2] at h
  cases hk : root.signingKeyId with
  | none => simp [hk, PyVal.asStr] at h
  | other text truth => simp [hk, PyVal.asStr] at h
  | str kid =>
      cases hs : root.signatureB64u with
      | none => simp [hk, hs, PyVal.asStr] at h
      | other text truth => simp [hk, hs, PyVal.asStr] at h
      | str sig => exact ⟨kid, sig, rfl, rfl, by simpa [hk, hs, PyVal.asStr] using h⟩

/-! ## From the root to the leaves -/

/-- What is hashed between a day's events and its root, and the empty day's text. -/
def dayMessages (rows : List EventRow) (m : Bytes) : Prop :=
  m = utf8 "8l-reputation-empty-day-v1" ∨ (∃ e ∈ rows, m = utf8 e.payloadCanonical) ∨
    pairMessages (rows.map fun e => sha256 (utf8 e.payloadCanonical)) m

/-- The digests of the events whose hash is a text `merkle_root` can read. -/
def leafDigests (events : List EventDict) : List Bytes :=
  events.filterMap fun ev => ev.payloadHash.asStr.bind stripPrefix

/-- A hash as `compute_payload_hash` writes it. -/
def EventDict.WellHashed (ev : EventDict) : Prop :=
  ∃ digest : Bytes, digest.length = 32 ∧ ev.payloadHash = .str (digestText digest)

theorem leafDigests_cons {ev : EventDict} {digest : Bytes} (events : List EventDict)
    (h : ev.payloadHash = .str (digestText digest)) :
    leafDigests (ev :: events) = digest :: leafDigests events := by
  simp [leafDigests, h, PyVal.asStr]

theorem leafDigests_cons_none {ev : EventDict} (events : List EventDict)
    (h : ev.payloadHash = .none) : leafDigests (ev :: events) = leafDigests events := by
  simp [leafDigests, h, PyVal.asStr]

theorem leafDigests_wellHashed : ∀ {events : List EventDict},
    (∀ ev ∈ events, ev.WellHashed) →
      (∀ d ∈ leafDigests events, d.length = 32) ∧
      events.map EventDict.payloadHash = (leafDigests events).map (fun d => .str (digestText d)) ∧
      events.filterMap (fun ev => ev.payloadHash.asStr) = (leafDigests events).map digestText
  | [], _ => by simp [leafDigests]
  | ev :: events, h => by
      obtain ⟨d, hd, hev⟩ := h ev (List.mem_cons_self ..)
      obtain ⟨hlen, hmap, hfilter⟩ :=
        leafDigests_wellHashed fun e he => h e (List.mem_cons_of_mem _ he)
      have hcons := leafDigests_cons events hev
      refine ⟨fun e he => ?_, ?_, ?_⟩
      · rw [hcons] at he
        rcases List.mem_cons.mp he with rfl | he
        · exact hd
        · exact hlen e he
      · rw [hcons, List.map_cons, List.map_cons, hmap, hev]
      · rw [hcons, List.map_cons, ← hfilter]
        simp [hev, PyVal.asStr]

theorem genuine_payloadHashes {rows : List EventRow} (h : ∀ e ∈ rows, e.Genuine) :
    rows.map EventRow.payloadHash =
      (rows.map fun e => sha256 (utf8 e.payloadCanonical)).map digestText := by
  rw [List.map_map]
  refine List.map_congr_left fun e he => ?_
  obtain ⟨body, -, hhash⟩ := h e he
  exact hhash

/-- The empty day's text is no payload text. -/
theorem emptyDay_ne_payload {e : EventRow} (h : e.Genuine) :
    utf8 "8l-reputation-empty-day-v1" ≠ utf8 e.payloadCanonical := by
  intro heq
  obtain ⟨body, htext, -⟩ := h
  have hhead := Json.dumps_obj_head
    (eventMembers e.eventId e.eventType e.enterpriseId e.l2Id e.ts e.prevEventHash body)
  have hsame : "8l-reputation-empty-day-v1" = Json.dumps (.obj (eventMembers e.eventId
      e.eventType e.enterpriseId e.l2Id e.ts e.prevEventHash body)) :=
    (utf8_injective heq).trans htext
  rw [← hsame] at hhead
  exact absurd hhead (by decide)

/-- The root of a day with events is not the empty day's. -/
theorem dayRoot_ne_empty {rows : List EventRow} (hgenuine : ∀ e ∈ rows, e.Genuine)
    (hne : rows ≠ []) (hfree : CollisionFreeOn sha256 (dayMessages rows)) :
    merkleRoot (rows.map EventRow.payloadHash) ≠ some emptyDayRoot := by
  intro hroot
  have hds : rows.map (fun e => sha256 (utf8 e.payloadCanonical)) ≠ [] := by simpa using hne
  rw [genuine_payloadHashes hgenuine, merkleRoot_digests hds] at hroot
  obtain ⟨top, htop, htext⟩ := Option.map_eq_some_iff.mp hroot
  have hdigest : top = sha256 (utf8 "8l-reputation-empty-day-v1") := digestText_injective htext
  by_cases htwo : 2 ≤ (rows.map fun e => sha256 (utf8 e.payloadCanonical)).length
  · -- an inner node hashes sixty-four bytes
    obtain ⟨q, hq, heq⟩ := Merkle.root_hashed hashPair htwo htop
    have hqlen := hashed_length (fun d hd => by
      obtain ⟨e, -, rfl⟩ := List.mem_map.mp hd
      exact sha256_length _) q hq
    have hmsg : q.1 ++ q.2 = utf8 "8l-reputation-empty-day-v1" :=
      hfree _ _ (.inr (.inr ⟨q, hq, rfl⟩)) (.inl rfl) (heq.symm.trans hdigest)
    have hlen := congrArg List.length hmsg
    rw [List.length_append, hqlen.1, hqlen.2] at hlen
    exact absurd hlen (by decide)
  · -- the only leaf is the hash of a payload
    obtain ⟨e, rfl⟩ : ∃ e, rows = [e] := by
      rw [List.length_map] at htwo
      exact List.length_eq_one_iff.mp (by have := List.length_pos_iff.mpr hne; omega)
    have hleaf : sha256 (utf8 e.payloadCanonical) = top := Option.some.inj htop
    have hmsg : utf8 e.payloadCanonical = utf8 "8l-reputation-empty-day-v1" :=
      hfree _ _ (.inr (.inl ⟨e, List.mem_singleton_self e, rfl⟩)) (.inl rfl)
        (hleaf.trans hdigest)
    exact emptyDay_ne_payload (hgenuine e (List.mem_singleton_self e)) hmsg.symm

/-! ## Soundness -/

/-- **Why the count is needed.** Repeating the last of an odd number of at least
three well-hashed events changes nothing for `verify_root`. -/
theorem verifyRoot_repeat_last {root : RootDict} {events : List EventDict} {ev : EventDict}
    (heven : events.length % 2 = 0) (hne : events ≠ [])
    (hwell : ∀ e ∈ events ++ [ev], e.WellHashed) :
    (verifyRoot sch root (events ++ [ev, ev])).map RootReport.ok = some true ↔
      (verifyRoot sch root (events ++ [ev])).map RootReport.ok = some true := by
  have hwell' : ∀ e ∈ events, e.WellHashed := fun e he => hwell e (List.mem_append_left _ he)
  obtain ⟨d, -, hd⟩ := hwell ev (by simp)
  obtain ⟨-, hmap, hfilter⟩ := leafDigests_wellHashed hwell'
  have hlength : events.length = (leafDigests events).length := by
    simpa using congrArg List.length hmap
  have hroot : merkleRoot ((leafDigests events ++ [d, d]).map digestText) =
      merkleRoot ((leafDigests events ++ [d]).map digestText) := by
    rw [merkleRoot_digests (by simp), merkleRoot_digests (by simp),
      Merkle.root_duplicate_last hashPair d (by rw [← hlength]; exact heven)
        (fun hnil => hne (List.length_eq_zero_iff.mp (by rw [hlength, hnil]; rfl)))]
  have htwo : (events ++ [ev, ev]).filterMap (fun e => e.payloadHash.asStr) =
      (leafDigests events ++ [d, d]).map digestText := by
    rw [List.filterMap_append, hfilter, List.map_append]
    simp [hd, PyVal.asStr]
  have hone : (events ++ [ev]).filterMap (fun e => e.payloadHash.asStr) =
      (leafDigests events ++ [d]).map digestText := by
    rw [List.filterMap_append, hfilter, List.map_append]
    simp [hd, PyVal.asStr]
  rw [verifyRoot_ok_iff, verifyRoot_ok_iff, htwo, hone, hroot]

/-! ### The root of a day with one event -/

/-- The root of the sample day, as a dict. -/
def sampleRoot : RootDict :=
  (newRoot sampleProcess sampleMidnight "acme" sampleDate.iso [sampleFirst]
    sampleFirst.payloadHash).toDict

theorem eventDay_events :
    readDayEvents (runDays sampleProcess eventDay) "acme" sampleDate.iso = [sampleFirst] := rfl

theorem eventDay_built :
    merkleRoot ((readDayEvents (runDays sampleProcess eventDay) "acme" sampleDate.iso).map
      EventRow.payloadHash) = some sampleFirst.payloadHash := by
  rw [eventDay_events]
  exact sample_merkleRoot

/-- A process with a key signs the roots it builds. -/
theorem newRoot_truthy {p : Process sch} {pk : sch.PrivKey} (hkey : p.privkey = some pk)
    (hpub : sch.publicKey pk ≠ []) (hsign : ∀ m, sch.sign pk m ≠ []) (c : Stamp)
    (ent day : String) (rows : List EventRow) (rootHash : String) :
    (newRoot p c ent day rows rootHash).toDict.signatureB64u.truthy = true ∧
      (newRoot p c ent day rows rootHash).toDict.signingKeyId.truthy = true := by
  simp only [newRoot, signCanonicalBytes, hkey, RootRow.toDict, PyVal.ofOption, PyVal.truthy,
    signRaw, publicKeyB64u, decide_eq_true_eq, ne_eq]
  exact ⟨b64u_ne_empty (hsign _), b64u_ne_empty hpub⟩

theorem sampleRoot_signed :
    sampleRoot.signatureB64u.truthy = true ∧ sampleRoot.signingKeyId.truthy = true := by
  have hkey : sampleProcess.privkey = some (List.replicate 32 7) := rfl
  exact newRoot_truthy hkey (List.cons_ne_nil _ _) (fun _ => List.cons_ne_nil _ _) ..

theorem sampleFirst_digest :
    sampleFirst.payloadHash = digestText (sha256 (utf8 sampleFirst.payloadCanonical)) := by
  obtain ⟨body, -, hhash⟩ := newEvent_genuine sampleProcess sampleCall (sampleDraw [2])
    genesisPrevHash
  exact hhash

/-- Nothing collides on the way from one event to its day's root. -/
theorem eventDay_collisionFree {events : List EventDict}
    (hone : leafDigests events = [sha256 (utf8 sampleFirst.payloadCanonical)]) :
    CollisionFreeOn sha256 fun m =>
      dayMessages (readDayEvents (runDays sampleProcess eventDay) "acme" sampleDate.iso) m ∨
        pairMessages (leafDigests events) m := by
  have hpairs : ∀ {m}, ¬ pairMessages [sha256 (utf8 sampleFirst.payloadCanonical)] m := by
    rintro m ⟨q, hq, -⟩
    exact absurd hq List.not_mem_nil
  have honly : ∀ m, (dayMessages (readDayEvents (runDays sampleProcess eventDay) "acme"
      sampleDate.iso) m ∨ pairMessages (leafDigests events) m) →
      m = utf8 "8l-reputation-empty-day-v1" ∨ m = utf8 sampleFirst.payloadCanonical := by
    rw [eventDay_events, hone]
    rintro m ((hm | ⟨e, he, hm⟩ | hm) | hm)
    · exact .inl hm
    · exact .inr (by rw [hm, List.mem_singleton.mp he])
    · exact absurd hm hpairs
    · exact absurd hm hpairs
  have hne : sha256 (utf8 "8l-reputation-empty-day-v1") ≠
      sha256 (utf8 sampleFirst.payloadCanonical) := by
    intro heq
    have hempty : emptyDayRoot = digestText (sha256 (utf8 "8l-reputation-empty-day-v1")) := rfl
    exact emptyDayRoot_ne_sample
      (hempty.trans ((congrArg digestText heq).trans sampleFirst_digest.symm))
  exact collisionFreeOn_pair hne honly

theorem sampleRoot_accepts {events : List EventDict}
    (hleaves : events.filterMap (fun ev => ev.payloadHash.asStr) = [sampleFirst.payloadHash]) :
    (verifyRoot SignatureScheme.transparent sampleRoot events).map RootReport.ok = some true :=
  verifyRoot_ok_iff.mpr ⟨sampleFirst.payloadHash, by rw [hleaves]; exact sample_merkleRoot, rfl,
    newRoot_signed sampleProcess sampleMidnight "acme" sampleDate.iso [sampleFirst] _⟩

theorem sampleFirst_hashed : sampleFirst.toDict.payloadHash =
    .str (digestText (sha256 (utf8 sampleFirst.payloadCanonical))) :=
  congrArg PyVal.str sampleFirst_digest

theorem sampleFirst_leaf :
    leafDigests [sampleFirst.toDict] = [sha256 (utf8 sampleFirst.payloadCanonical)] :=
  leafDigests_cons [] sampleFirst_hashed

/-- The event of the sample day and a dict without any hash. -/
def paddedEvents : List EventDict := [sampleFirst.toDict, []]

theorem paddedEvents_leaf :
    leafDigests paddedEvents = [sha256 (utf8 sampleFirst.payloadCanonical)] := by
  rw [paddedEvents, leafDigests_cons _ sampleFirst_hashed, leafDigests_cons_none _ rfl]
  rfl

end EighthLayer.Reputation
