import EighthLayer.Aigrp.Envelope
import Mathlib.Data.List.Induction

/-!
# EighthLayer.Aigrp.Replay

Runs of `verify_envelope` calls against one replay cache.

The cache forgets an entry once it is older than its retention time, which is
twice the freshness tolerance. An envelope is accepted at most one tolerance
before its timestamp, so by the time its entry is forgotten the timestamp is
more than one tolerance old.
-/

namespace EighthLayer.Aigrp

open Lib

/-! ## Runs -/

/-- An accepted call and what was read out of its envelope. -/
structure Acceptance where
  call : Call
  checked : Checked

/-- The cache key of an acceptance: the source L2 and the message id. -/
def Acceptance.key (a : Acceptance) : String × String := (a.checked.src, a.checked.msgId)

/-- The cache entry an acceptance makes. -/
def Acceptance.entry (a : Acceptance) : (String × String) × Int := (a.key, a.call.monotonic)

/-- The cache, and the calls accepted so far in the order they ran. -/
structure RunState where
  cache : Cache
  accepted : List Acceptance

/-- One call of a run; it is accepted when `verify_envelope` returns. -/
def runCall (P : Platform) (st : RunState) (call : Call) : RunState :=
  match verifyEnvelope P st.cache call, checkEnvelope P call with
  | (cache, .ok _), .ok c => ⟨cache, st.accepted ++ [⟨call, c⟩]⟩
  | (cache, _), _ => { st with cache }

/-- A run of calls from an empty cache. -/
def runCalls (P : Platform) (max : Nat) (calls : List Call) : RunState :=
  calls.foldl (runCall P) ⟨makeReplayCache replayCacheTtl max, []⟩

/-- The calls read one clock that does not run backwards: the wall clock reads the
monotonic one plus the same offset every time. -/
structure OneClock (boot : Int) (calls : List Call) : Prop where
  monotone : calls.Pairwise fun a b => a.now ≤ b.now
  reading : ∀ call ∈ calls, call.now = boot + call.monotonic

/-- Fewer than `max` calls are accepted in any replay window. -/
def FewAccepted (max : Nat) (st : RunState) : Prop :=
  ReplayCache.Room replayCacheTtl max (st.accepted.map Acceptance.entry)

/-! ## One call -/

/-- A fresh key makes a checked call an accepted one. -/
theorem runCall_accept {P : Platform} {st : RunState} {call : Call} {c : Checked} {cache : Cache}
    (hcheck : checkEnvelope P call = .ok c)
    (hrecord : st.cache.checkAndRecord (c.src, c.msgId) call.monotonic = (cache, true)) :
    runCall P st call = ⟨cache, st.accepted ++ [⟨call, c⟩]⟩ := by
  simp only [runCall, verifyEnvelope, hcheck, hrecord]

/-- **Step.** A call leaves the accepted calls as they are, or adds itself, fresh and
newly recorded. -/
theorem runCall_cases (P : Platform) (st : RunState) (call : Call) :
    (∃ cache, runCall P st call = { st with cache } ∧
      (cache = st.cache ∨
        ∃ key, st.cache.checkAndRecord key call.monotonic = (cache, false))) ∨
    (∃ c cache, runCall P st call = ⟨cache, st.accepted ++ [⟨call, c⟩]⟩ ∧
      checkEnvelope P call = .ok c ∧
      st.cache.checkAndRecord (c.src, c.msgId) call.monotonic = (cache, true)) := by
  cases hcheck : checkEnvelope P call with
  | error e => exact .inl ⟨st.cache, by simp only [runCall, verifyEnvelope, hcheck], .inl rfl⟩
  | ok c =>
      rcases hrecord : st.cache.checkAndRecord (c.src, c.msgId) call.monotonic with ⟨cache, fresh⟩
      cases fresh with
      | false =>
          refine .inl ⟨cache, ?_, .inr ⟨_, hrecord⟩⟩
          simp only [runCall, verifyEnvelope, hcheck, hrecord]
      | true => exact .inr ⟨c, cache, runCall_accept hcheck hrecord, rfl, hrecord⟩

/-- What a run keeps: the cache tracks the accepted calls, each of which was fresh. -/
structure RunInv (P : Platform) (max : Nat) (calls : List Call) (st : RunState) : Prop where
  tracks : ∀ t : Int, (∀ call ∈ calls, call.monotonic ≤ t) →
    st.cache.Tracks (st.accepted.map Acceptance.entry) t
  ttl : st.cache.ttl = replayCacheTtl
  max : st.cache.max = max
  checked : ∀ a ∈ st.accepted, a.call ∈ calls ∧ checkEnvelope P a.call = .ok a.checked

variable {P : Platform} {max : Nat} {boot : Int}

theorem OneClock.left {calls rest : List Call} (h : OneClock boot (calls ++ rest)) :
    OneClock boot calls :=
  ⟨(List.pairwise_append.mp h.monotone).1,
    fun call hcall => h.reading call (List.mem_append_left _ hcall)⟩

/-- No call reads the clock later than the last one. -/
theorem OneClock.le_last {calls : List Call} {last : Call} (h : OneClock boot (calls ++ [last])) :
    ∀ call ∈ calls, call.monotonic ≤ last.monotonic := by
  intro call hcall
  have hle := (List.pairwise_append.mp h.monotone).2.2 call hcall last (List.mem_singleton.mpr rfl)
  rw [h.reading call (List.mem_append_left _ hcall),
    h.reading last (List.mem_append_right _ (List.mem_singleton.mpr rfl))] at hle
  omega

/-- **Run.** Every run keeps the invariant, as long as few calls are accepted. -/
theorem runCalls_inv : ∀ {calls : List Call}, OneClock boot calls →
    FewAccepted max (runCalls P max calls) → RunInv P max calls (runCalls P max calls) := by
  intro calls
  induction calls using List.reverseRecOn with
  | nil =>
      intro _ _
      exact ⟨fun t _ => ReplayCache.tracks_nil .., rfl, rfl, fun a ha => absurd ha List.not_mem_nil⟩
  | append_singleton calls last ih =>
      intro hclock hfew
      have hrun : runCalls P max (calls ++ [last]) = runCall P (runCalls P max calls) last :=
        List.foldl_concat ..
      rw [hrun] at hfew ⊢
      have hlast : ∀ t : Int, (∀ call ∈ calls ++ [last], call.monotonic ≤ t) →
          last.monotonic ≤ t :=
        fun t ht => ht last (List.mem_append_right _ (List.mem_singleton.mpr rfl))
      rcases runCall_cases P (runCalls P max calls) last with
        ⟨cache, hst, hcache⟩ | ⟨c, cache, hst, hcheck, hrecord⟩
      · rw [hst] at hfew ⊢
        have inv := ih hclock.left hfew
        have hchecked : ∀ a ∈ (runCalls P max calls).accepted,
            a.call ∈ calls ++ [last] ∧ checkEnvelope P a.call = .ok a.checked :=
          fun a ha => ⟨List.mem_append_left _ (inv.checked a ha).1, (inv.checked a ha).2⟩
        rcases hcache with rfl | ⟨key, hrefuse⟩
        · exact ⟨fun t ht => inv.tracks t fun call hcall => ht call (List.mem_append_left _ hcall),
            inv.ttl, inv.max, hchecked⟩
        · obtain ⟨htracks, httl, hmax⟩ := (inv.tracks _ hclock.le_last).refuse (le_refl _) hrefuse
          exact ⟨fun t ht => htracks.mono (hlast t ht), httl.trans inv.ttl, hmax.trans inv.max,
            hchecked⟩
      · rw [hst] at hfew ⊢
        unfold FewAccepted at hfew
        rw [List.map_append] at hfew
        have inv := ih hclock.left (ReplayCache.Room.left hfew)
        have hroom : ReplayCache.Room (runCalls P max calls).cache.ttl (runCalls P max calls).cache.max
            ((runCalls P max calls).accepted.map Acceptance.entry ++
              [((c.src, c.msgId), last.monotonic)]) := by
          rw [inv.ttl, inv.max]
          exact hfew
        have httl : 0 ≤ (runCalls P max calls).cache.ttl := by
          rw [inv.ttl]
          decide
        obtain ⟨htracks, httl', hmax⟩ :=
          (inv.tracks _ hclock.le_last).record (le_refl _) httl hroom hrecord
        refine ⟨fun t ht => ?_, httl'.trans inv.ttl, hmax.trans inv.max, fun a ha => ?_⟩
        · rw [List.map_append]
          exact htracks.mono (hlast t ht)
        · rcases List.mem_append.mp ha with ha | ha
          · exact ⟨List.mem_append_left _ (inv.checked a ha).1, (inv.checked a ha).2⟩
          · rw [List.mem_singleton.mp ha]
            exact ⟨List.mem_append_right _ (List.mem_singleton.mpr rfl), hcheck⟩

/-! ## Replay safety -/

/-- No (source L2, message id) pair is accepted twice. -/
def NoPairTwice (st : RunState) : Prop := st.accepted.Pairwise fun a b => a.key ≠ b.key

/-- The freshness window of an acceptance has passed at time `t`. -/
def Stale (a : Acceptance) (t : Int) : Prop := a.checked.ts + replayTsTolerance < t

theorem RunInv.fresh {calls : List Call} {st : RunState} (inv : RunInv P max calls st)
    {a : Acceptance} (ha : a ∈ st.accepted) :
    (a.call.now - a.checked.ts).natAbs ≤ replayTsTolerance :=
  checkEnvelope_fresh (inv.checked a ha).2

/-- Some time is not before any call. -/
theorem exists_bound : ∀ calls : List Call, ∃ t : Int, ∀ call ∈ calls, call.monotonic ≤ t
  | [] => ⟨0, fun _ h => absurd h List.not_mem_nil⟩
  | call :: calls => by
      obtain ⟨t, ht⟩ := exists_bound calls
      refine ⟨Max.max call.monotonic t, fun c hc => ?_⟩
      rcases List.mem_cons.mp hc with rfl | hc
      · exact le_max_left ..
      · exact (ht c hc).trans (le_max_right ..)

/-- Two acceptances of one pair are more than the retention time apart, and the
second finds the first one stale. -/
theorem RunInv.spaced {calls : List Call} {st : RunState} (inv : RunInv P max calls st)
    (hclock : OneClock boot calls) :
    st.accepted.Pairwise fun a b => a.key = b.key →
      a.call.now + replayCacheTtl < b.call.now ∧ Stale a b.call.now := by
  obtain ⟨t, ht⟩ := exists_bound calls
  have hspaced := List.pairwise_map.mp (inv.tracks t ht).spaced
  rw [inv.ttl] at hspaced
  refine hspaced.imp_of_mem fun {a b} ha hb hab hkey => ?_
  have hgap : a.call.monotonic < b.call.monotonic - replayCacheTtl := hab hkey
  have hread := hclock.reading _ (inv.checked a ha).1
  have hread' := hclock.reading _ (inv.checked b hb).1
  have hfresh := inv.fresh ha
  unfold Stale
  unfold replayCacheTtl replayTsTolerance at *
  constructor <;> omega

/-- Days from 1970-01-01 to a date. -/
def epochDays (y m d : Nat) : Int :=
  let y := if m ≤ 2 then y - 1 else y
  ((365 * y + y / 4 - y / 100 + y / 400 + (153 * ((m + 9) % 12) + 2) / 5 + d : Nat) : Int) - 719469

/-- `datetime.fromisoformat` on the texts `isoformat` writes for UTC times of whole seconds. -/
def utcFromisoformat (s : String) : Option Datetime :=
  match s.toList with
  | [y1, y2, y3, y4, '-', m1, m2, '-', d1, d2, 'T', h1, h2, ':', n1, n2, ':', s1, s2,
      '+', '0', '0', ':', '0', '0'] =>
    let num : List Char → Nat := fun cs => cs.foldl (fun n c => 10 * n + (c.toNat - 48)) 0
    if [y1, y2, y3, y4, m1, m2, d1, d2, h1, h2, n1, n2, s1, s2].all Char.isDigit then
      let seconds := epochDays (num [y1, y2, y3, y4]) (num [m1, m2]) (num [d1, d2]) * 86400 +
        num [h1, h2] * 3600 + num [n1, n2] * 60 + num [s1, s2]
      some (.aware (seconds * 1000000))
    else none
  | _ => none

/-- Canonicalization and timestamps as far as the sample needs them. -/
def samplePlatform : Platform where
  canonicalize j := some (utf8 (Json.dumps j))
  fromisoformat := utcFromisoformat

/-- What `acme/eng` sends to `acme/ops` at a time, always under one message id. -/
def sampleEnvelope (ts : String) : Json :=
  (signEnvelope samplePlatform (List.replicate 32 7) "acme/eng" "acme/ops" (.obj []) ts
    (List.replicate 16 1) "msg-1").getD .null

theorem sampleEnvelope_signed (ts : String) :
    signEnvelope samplePlatform (List.replicate 32 7) "acme/eng" "acme/ops" (.obj []) ts
      (List.replicate 16 1) "msg-1" = some (sampleEnvelope ts) := by
  have hpair : canonicalPairId "acme/eng" "acme/ops" = some "aigrp-pair:acme/eng:acme/ops" := by
    decide
  unfold sampleEnvelope signEnvelope
  rw [if_neg (by decide), hpair]
  rfl

/-- The receiver's check of such an envelope at the second it is sent, `seconds` after boot. -/
def sampleCall (ts : String) (seconds : Int) : Call where
  envelope := sampleEnvelope ts
  pairSecret := List.replicate 32 7
  expectedDst := "acme/ops"
  now := 1767225600000000 + seconds * 1000000
  monotonic := seconds * 1000000

theorem sampleCall_checked {ts : String} {seconds : Int}
    (hts : parseIso samplePlatform ts = some (.aware (1767225600000000 + seconds * 1000000))) :
    checkEnvelope samplePlatform (sampleCall ts seconds) =
      .ok ⟨"acme/eng", "msg-1", 1767225600000000 + seconds * 1000000, .obj []⟩ := by
  refine checkEnvelope_signEnvelope (sampleEnvelope_signed ts) (by decide) hts ?_ _
  rw [Int.sub_self]
  decide

/-- The first message, and one of the same id 700 seconds later. -/
def sampleFirst : Call := sampleCall "2026-01-01T00:00:00+00:00" 0

def sampleSecond : Call := sampleCall "2026-01-01T00:11:40+00:00" 700

theorem sample_clock : OneClock 1767225600000000 [sampleFirst, sampleSecond] where
  monotone := by simp [sampleFirst, sampleSecond, sampleCall]
  reading call hcall := by
    rcases List.mem_pair.mp hcall with rfl | rfl <;> rfl

theorem sample_accepted :
    (runCalls samplePlatform replayCacheMax [sampleFirst, sampleSecond]).accepted =
      [⟨sampleFirst, ⟨"acme/eng", "msg-1", 1767225600000000, .obj []⟩⟩,
        ⟨sampleSecond, ⟨"acme/eng", "msg-1", 1767226300000000, .obj []⟩⟩] := by
  have hfirst : checkEnvelope samplePlatform sampleFirst = _ := sampleCall_checked (by decide)
  have hsecond : checkEnvelope samplePlatform sampleSecond = _ := sampleCall_checked (by decide)
  unfold runCalls
  rw [List.foldl_cons, List.foldl_cons, List.foldl_nil, runCall_accept hfirst rfl,
    runCall_accept hsecond rfl]
  rfl

theorem sample_fewAccepted :
    FewAccepted replayCacheMax
      (runCalls samplePlatform replayCacheMax [sampleFirst, sampleSecond]) := by
  intro t
  rw [sample_accepted]
  exact (List.length_filter_le ..).trans_lt (by decide)

theorem not_noPairTwice {st : RunState} {call call' : Call} {c c' : Checked}
    (h : st.accepted = [⟨call, c⟩, ⟨call', c'⟩]) (hsrc : c.src = c'.src)
    (hmsgId : c.msgId = c'.msgId) : ¬ NoPairTwice st := by
  unfold NoPairTwice
  rw [h, List.pairwise_pair]
  exact fun hne => hne (Prod.ext hsrc hmsgId)

end EighthLayer.Aigrp
