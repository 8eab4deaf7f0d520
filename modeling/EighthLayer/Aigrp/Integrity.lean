import EighthLayer.Aigrp.Replay
import EighthLayer.Lib.Canonical

/-!
# EighthLayer.Aigrp.Integrity

What the MAC of an envelope covers: `verify_envelope` returns what `sign_envelope` was
given, and an accepted envelope that carries the MAC of a `sign_envelope` call has the
fields of that call and no others.

RFC 8785 is the law `Canonicalizes`. HMAC is taken to have no collision among the
messages in play: the canonical bytes of the envelope and of the calls.
-/

namespace EighthLayer.Aigrp

open Lib

variable {number : NumText → Option NumText} {P : Platform} {pairSecret : Bytes}

/-! ## Calls of sign_envelope -/

/-- A call of `sign_envelope`: its arguments, and the timestamp, nonce and message id it
uses, be they given or drawn. -/
structure SignCall where
  src : String
  dst : String
  payload : Json
  ts : String
  nonce : Bytes
  msgId : String
  /-- `msg_id or str(uuid.uuid4())` -/
  msgId_ne : msgId ≠ ""

/-- What the call returns; `none` when it raises. -/
def SignCall.result (P : Platform) (pairSecret : Bytes) (s : SignCall) : Option Json :=
  signEnvelope P pairSecret s.src s.dst s.payload s.ts s.nonce s.msgId

/-- The envelope before its MAC is added. -/
def SignCall.unsigned (s : SignCall) (pairId : String) : List (String × Json) :=
  unsignedEnvelope pairId s.src s.dst s.ts s.nonce s.msgId s.payload

/-- The bytes the call computes the MAC of. -/
def SignCall.macInput (P : Platform) (s : SignCall) : Option Bytes :=
  (canonicalPairId s.src s.dst).bind fun pairId => P.canonicalize (.obj (s.unsigned pairId))

/-- The bytes `verify_envelope` computes the MAC of. -/
def verifiedInput (P : Platform) : Json → Option Bytes
  | .obj members => P.canonicalize (.obj (members.filter fun m => m.1 ≠ "mac"))
  | _ => none

/-- The MAC an envelope carries, decoded. -/
def carriedMac : Json → Option Bytes
  | .obj members => match members.lookup "mac" with
    | some (.str mac) => b64uDecode mac
    | _ => none
  | _ => none

/-- A call that returns has a MAC input, and its envelope carries the MAC of it. -/
theorem SignCall.result_carries {s : SignCall} {envelope : Json}
    (h : s.result P pairSecret = some envelope) :
    ∃ bytes, s.macInput P = some bytes ∧ verifiedInput P envelope = some bytes ∧
      carriedMac envelope = some (hmacSha256 pairSecret bytes) := by
  unfold SignCall.result signEnvelope at h
  split at h
  · cases h
  · split at h
    · cases h
    · next pairId hpair =>
        obtain ⟨bytes, hbytes, rfl⟩ := Option.map_eq_some_iff.mp h
        refine ⟨bytes, ?_, ?_, ?_⟩
        · rw [SignCall.macInput, hpair, Option.bind_some]
          exact hbytes
        · rw [verifiedInput, filter_mac_signed]
          exact hbytes
        · simp [carriedMac, unsignedEnvelope, List.lookup_cons]

/-! ## What an accepted envelope carries -/

theorem requireFields_lookup {members : List (String × Json)} {f : Fields}
    (h : requireFields members = .ok f) :
    members.lookup "src_l2_id" = some f.src ∧ members.lookup "dst_l2_id" = some f.dst ∧
      members.lookup "ts" = some f.ts ∧ members.lookup "msg_id" = some f.msgId ∧
      members.lookup "payload" = some f.payload ∧ members.lookup "mac" = some f.mac := by
  have hfield : ∀ {name : String} {v : Json}, field members name = .ok v →
      members.lookup name = some v := by
    intro name v hv
    unfold field at hv
    split at hv
    · next hlookup =>
        cases hv
        exact hlookup
    · cases hv
  unfold requireFields at h
  obtain ⟨_, _, h⟩ := exists_of_bind_ok h
  obtain ⟨_, _, h⟩ := exists_of_bind_ok h
  obtain ⟨_, hsrc, h⟩ := exists_of_bind_ok h
  obtain ⟨_, hdst, h⟩ := exists_of_bind_ok h
  obtain ⟨_, hts, h⟩ := exists_of_bind_ok h
  obtain ⟨_, _, h⟩ := exists_of_bind_ok h
  obtain ⟨_, hmsgId, h⟩ := exists_of_bind_ok h
  obtain ⟨_, hpayload, h⟩ := exists_of_bind_ok h
  obtain ⟨_, hmac, h⟩ := exists_of_bind_ok h
  cases h
  exact ⟨hfield hsrc, hfield hdst, hfield hts, hfield hmsgId, hfield hpayload, hfield hmac⟩

/-- A MAC that passes is the HMAC of the canonical bytes of the rest. -/
theorem checkMac_ok {members : List (String × Json)} {mac : Json}
    (h : checkMac P members mac pairSecret = .ok ()) :
    ∃ text bytes, mac = .str text ∧
      P.canonicalize (.obj (members.filter fun m => m.1 ≠ "mac")) = some bytes ∧
      b64uDecode text = some (hmacSha256 pairSecret bytes) := by
  unfold checkMac at h
  split at h
  · next text =>
      split at h
      · cases h
      · next received hdecode =>
          split at h
          · cases h
          · next bytes hbytes =>
              split at h
              · cases h
              · next heq =>
                  refine ⟨text, bytes, rfl, hbytes, ?_⟩
                  rw [hdecode, not_not.mp heq]
  · cases h

/-- An accepted envelope carries the MAC of its own canonical bytes, and its payload is
what is returned. -/
theorem verifyEnvelope_carries {cache : Cache} {call : Call} {payload : Json}
    (h : (verifyEnvelope P cache call).2 = .ok payload) :
    ∃ members bytes, call.envelope = .obj members ∧ verifiedInput P call.envelope = some bytes ∧
      carriedMac call.envelope = some (hmacSha256 call.pairSecret bytes) ∧
      members.lookup "payload" = some payload ∧
      (∃ v, members.lookup "src_l2_id" = some v) ∧ (∃ v, members.lookup "dst_l2_id" = some v) ∧
      (∃ v, members.lookup "ts" = some v) ∧ ∃ v, members.lookup "msg_id" = some v := by
  unfold verifyEnvelope at h
  split at h
  · cases h
  · next c hc =>
      have hpayload : c.payload = payload := by
        split at h
        · exact Except.ok.inj h
        · cases h
      obtain ⟨members, f, hobj, hf, -, -, -, hmac, hread⟩ := checkEnvelope_ok hc
      obtain ⟨hsrc, hdst, hts, hmsgId, hpay, hmacField⟩ := requireFields_lookup hf
      obtain ⟨text, bytes, htext, hbytes, hdecode⟩ := checkMac_ok hmac
      refine ⟨members, bytes, hobj, ?_, ?_, ?_, ⟨_, hsrc⟩, ⟨_, hdst⟩, ⟨_, hts⟩, _, hmsgId⟩
      · rw [hobj, verifiedInput, hbytes]
      · rw [hobj, carriedMac, hmacField, htext]
        exact hdecode
      · rw [hpay, ← hread, hpayload]

/-! ## The fields a MAC determines -/

/-- An envelope has the fields of a call, and no others but its MAC. -/
structure HasFields (number : NumText → Option NumText) (members : List (String × Json))
    (s : SignCall) : Prop where
  src : members.lookup "src_l2_id" = some (.str s.src)
  dst : members.lookup "dst_l2_id" = some (.str s.dst)
  ts : members.lookup "ts" = some (.str s.ts)
  msgId : members.lookup "msg_id" = some (.str s.msgId)
  payload : ∃ v, members.lookup "payload" = some v ∧ Json.Same number v s.payload
  others : ∀ m ∈ members, m.1 ∈ ["version", "pair_id", "src_l2_id", "dst_l2_id", "ts", "nonce",
    "msg_id", "payload", "mac"]

theorem keys_unsigned (s : SignCall) (pairId : String) :
    (s.unsigned pairId).map Prod.fst = ["version", "pair_id", "src_l2_id", "dst_l2_id", "ts",
      "nonce", "msg_id", "payload"] := rfl

theorem nodup_unsigned (s : SignCall) (pairId : String) :
    ((s.unsigned pairId).map Prod.fst).Nodup := by
  rw [keys_unsigned]
  decide

theorem mem_unsigned (s : SignCall) (pairId : String) :
    ("src_l2_id", .str s.src) ∈ s.unsigned pairId ∧ ("dst_l2_id", .str s.dst) ∈ s.unsigned pairId ∧
      ("ts", .str s.ts) ∈ s.unsigned pairId ∧ ("nonce", .str (b64u s.nonce)) ∈ s.unsigned pairId ∧
      ("msg_id", .str s.msgId) ∈ s.unsigned pairId ∧
      ("payload", s.payload) ∈ s.unsigned pairId := by
  simp [SignCall.unsigned, unsignedEnvelope]

theorem mem_of_lookup {members : List (String × Json)} {k : String} {v : Json}
    (h : members.lookup k = some v) : (k, v) ∈ members := by
  obtain ⟨before, after, rfl, -⟩ := List.lookup_eq_some_iff.mp h
  simp

/-- **The canonical bytes determine the fields.** An envelope whose canonical bytes are
those of a call has the call's fields. -/
theorem hasFields_of_macInput (hcanonical : Canonicalizes number P.canonicalize)
    {members : List (String × Json)} {s : SignCall} {bytes : Bytes} {payload : Json}
    (hinput : verifiedInput P (.obj members) = some bytes) (hsigned : s.macInput P = some bytes)
    (hpayload : members.lookup "payload" = some payload)
    (hsrc : ∃ v, members.lookup "src_l2_id" = some v)
    (hdst : ∃ v, members.lookup "dst_l2_id" = some v) (hts : ∃ v, members.lookup "ts" = some v)
    (hmsgId : ∃ v, members.lookup "msg_id" = some v) :
    HasFields number members s ∧ Json.Same number payload s.payload := by
  obtain ⟨pairId, -, hbytes⟩ := Option.bind_eq_some_iff.mp hsigned
  have hsame := hcanonical.same hinput hbytes
  obtain ⟨msrc, mdst, mts, -, mmsgId, mpayload⟩ := mem_unsigned s pairId
  -- a field of the envelope under another key than the MAC's is the call's
  have hvalue : ∀ {k : String} {v w : Json}, members.lookup k = some v → k ≠ "mac" →
      (k, w) ∈ s.unsigned pairId → Json.Same number v w := by
    intro k v w hv hk hw
    refine hsame.value (nodup_unsigned s pairId) (List.mem_filter.mpr ⟨mem_of_lookup hv, ?_⟩) hw
    exact decide_eq_true hk
  have htext : ∀ {k t : String}, (∃ v, members.lookup k = some v) → k ≠ "mac" →
      (k, .str t) ∈ s.unsigned pairId → members.lookup k = some (.str t) := by
    intro k t hv hk ht
    obtain ⟨v, hv⟩ := hv
    rw [hv, (hvalue hv hk ht).eq_str]
  have hpay := hvalue hpayload (by decide) mpayload
  refine ⟨⟨htext hsrc (by decide) msrc, htext hdst (by decide) mdst, htext hts (by decide) mts,
    htext hmsgId (by decide) mmsgId, ⟨payload, hpayload, hpay⟩, fun m hm => ?_⟩, hpay⟩
  by_cases hmac : m.1 = "mac"
  · simp [hmac]
  · have hkey : m.1 ∈ (members.filter fun m => m.1 ≠ "mac").map Prod.fst :=
      List.mem_map_of_mem (List.mem_filter.mpr ⟨hm, decide_eq_true hmac⟩)
    have hmem := hsame.keys.mem_iff.mp hkey
    rw [keys_unsigned] at hmem
    exact List.mem_append_left ["mac"] hmem

/-- Calls of one MAC input have the same fields. -/
theorem signCall_of_macInput (hcanonical : Canonicalizes number P.canonicalize)
    {s s' : SignCall} {bytes : Bytes} (h : s.macInput P = some bytes)
    (h' : s'.macInput P = some bytes) :
    s.src = s'.src ∧ s.dst = s'.dst ∧ s.ts = s'.ts ∧ s.nonce = s'.nonce ∧ s.msgId = s'.msgId ∧
      Json.Same number s.payload s'.payload := by
  obtain ⟨pairId, -, hbytes⟩ := Option.bind_eq_some_iff.mp h
  obtain ⟨pairId', -, hbytes'⟩ := Option.bind_eq_some_iff.mp h'
  have hsame := hcanonical.same hbytes hbytes'
  obtain ⟨msrc, mdst, mts, mnonce, mmsgId, mpayload⟩ := mem_unsigned s pairId
  obtain ⟨msrc', mdst', mts', mnonce', mmsgId', mpayload'⟩ := mem_unsigned s' pairId'
  have hnodup := nodup_unsigned s' pairId'
  have hnonce := (hsame.value hnodup mnonce mnonce').str_eq
  refine ⟨(hsame.value hnodup msrc msrc').str_eq, (hsame.value hnodup mdst mdst').str_eq,
    (hsame.value hnodup mts mts').str_eq, ?_, (hsame.value hnodup mmsgId mmsgId').str_eq,
    hsame.value hnodup mpayload mpayload'⟩
  have hdecode := congrArg b64uDecode hnonce
  rw [b64uDecode_b64u, b64uDecode_b64u] at hdecode
  exact Option.some.inj hdecode

/-! ## Round trip and integrity -/

/-- A message that is not remembered passes the replay check. -/
theorem checkAndRecord_fresh {cache : Cache} {key : String × String} {monotonic : Int}
    (h : key ∉ (cache.evictExpired monotonic).entries.map Prod.fst) :
    (cache.checkAndRecord key monotonic).2 = true := by
  unfold ReplayCache.checkAndRecord
  simp only [if_neg h]

/-- **Round trip**, with the replay check: a message not remembered is returned. -/
theorem verifyEnvelope_result {s : SignCall} {envelope : Json} {cache : Cache}
    {t now monotonic : Int} (hsign : s.result P pairSecret = some envelope)
    (hts : parseIso P s.ts = some (.aware t)) (hfresh : (now - t).natAbs ≤ replayTsTolerance)
    (hnew : (s.src, s.msgId) ∉ (cache.evictExpired monotonic).entries.map Prod.fst) :
    (verifyEnvelope P cache ⟨envelope, pairSecret, s.dst, now, monotonic⟩).2 = .ok s.payload := by
  have hcheck := checkEnvelope_signEnvelope hsign s.msgId_ne hts hfresh monotonic
  have hrecord := checkAndRecord_fresh hnew
  unfold verifyEnvelope
  simp only [hcheck]
  split
  · rfl
  · next hrefuse =>
      rw [hrefuse] at hrecord
      cases hrecord

/-- **Integrity.** Signed envelopes verify to their payload. An accepted envelope whose MAC
some `sign_envelope` call of this secret issued has the fields of such a call. Calls of
different fields never share the bytes that are MACed. -/
theorem envelope_integrity (hcanonical : Canonicalizes number P.canonicalize)
    (pairSecret : Bytes) :
    (∀ (s : SignCall) (envelope : Json) (cache : Cache) (t now monotonic : Int),
      s.result P pairSecret = some envelope → parseIso P s.ts = some (.aware t) →
      (now - t).natAbs ≤ replayTsTolerance →
      (s.src, s.msgId) ∉ (cache.evictExpired monotonic).entries.map Prod.fst →
      (verifyEnvelope P cache ⟨envelope, pairSecret, s.dst, now, monotonic⟩).2 = .ok s.payload) ∧
    (∀ (signed : SignCall → Prop) (cache : Cache) (call : Call) (payload : Json),
      call.pairSecret = pairSecret → (verifyEnvelope P cache call).2 = .ok payload →
      (∃ s out, signed s ∧ s.result P pairSecret = some out ∧
        carriedMac out = carriedMac call.envelope) →
      CollisionFreeOn (hmacSha256 pairSecret) (fun bytes =>
        verifiedInput P call.envelope = some bytes ∨ ∃ s, signed s ∧ s.macInput P = some bytes) →
      ∃ s members, signed s ∧ call.envelope = .obj members ∧ HasFields number members s ∧
        Json.Same number payload s.payload) ∧
    ∀ (s s' : SignCall) (bytes : Bytes), s.macInput P = some bytes → s'.macInput P = some bytes →
      s.src = s'.src ∧ s.dst = s'.dst ∧ s.ts = s'.ts ∧ s.nonce = s'.nonce ∧ s.msgId = s'.msgId ∧
        Json.Same number s.payload s'.payload := by
  refine ⟨fun s envelope cache t now monotonic => verifyEnvelope_result, ?_,
    fun s s' bytes => signCall_of_macInput hcanonical⟩
  intro signed cache call payload hsecret haccept hissued hfree
  obtain ⟨members, bytes, hobj, hinput, hmac, hpayload, hsrc, hdst, hts, hmsgId⟩ :=
    verifyEnvelope_carries haccept
  obtain ⟨s, out, hs, hresult, hcarried⟩ := hissued
  obtain ⟨bytes', hsigned, -, hmac'⟩ := s.result_carries hresult
  rw [hmac', hmac, hsecret] at hcarried
  have heq := hfree _ _ (.inr ⟨s, hs, hsigned⟩) (.inl hinput) (Option.some.inj hcarried)
  subst heq
  rw [hobj] at hinput
  obtain ⟨hfields, hsame⟩ := hasFields_of_macInput hcanonical hinput hsigned hpayload hsrc hdst
    hts hmsgId
  exact ⟨s, members, hs, hobj, hfields, hsame⟩

/-- The call of the sample envelope. -/
def sampleSign : SignCall where
  src := "acme/eng"
  dst := "acme/ops"
  payload := .obj []
  ts := "2026-01-01T00:00:00+00:00"
  nonce := List.replicate 16 1
  msgId := "msg-1"
  msgId_ne := by decide

/-- The sample envelope, verified by a receiver that has seen nothing yet. -/
theorem envelope_integrity_sample :
    (verifyEnvelope samplePlatform (makeReplayCache replayCacheTtl replayCacheMax)
      sampleFirst).2 = .ok (.obj []) ∧
    ∃ s members, s = sampleSign ∧ sampleFirst.envelope = .obj members ∧
      HasFields some members s ∧ Json.Same some (.obj []) s.payload := by
  have hresult : sampleSign.result samplePlatform (List.replicate 32 7) =
      some sampleFirst.envelope := sampleEnvelope_signed _
  have hcanonical : Canonicalizes some samplePlatform.canonicalize := canonicalizes_dumps
  obtain ⟨hround, hforge, -⟩ := envelope_integrity hcanonical (List.replicate 32 7)
  have haccept := hround sampleSign sampleFirst.envelope
    (makeReplayCache replayCacheTtl replayCacheMax) 1767225600000000 1767225600000000 0 hresult
    (by decide) (by decide) List.not_mem_nil
  refine ⟨haccept, hforge (fun s => s = sampleSign) _ sampleFirst (.obj []) rfl haccept
    ⟨sampleSign, _, rfl, hresult, rfl⟩ ?_⟩
  -- the envelope and its call have one MAC input
  obtain ⟨bytes, hinput, hverified, -⟩ := sampleSign.result_carries hresult
  have hone : ∀ b, (verifiedInput samplePlatform sampleFirst.envelope = some b ∨
      ∃ s, s = sampleSign ∧ s.macInput samplePlatform = some b) → b = bytes := by
    intro b hb
    rcases hb with hb | ⟨s, rfl, hb⟩
    · exact Option.some.inj (hb.symm.trans hverified)
    · exact Option.some.inj (hb.symm.trans hinput)
  intro b b' hb hb' _
  rw [hone b hb, hone b' hb']

end EighthLayer.Aigrp
