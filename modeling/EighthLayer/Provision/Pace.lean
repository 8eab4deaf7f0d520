import EighthLayer.Provision.JobStream
import Mathlib.Data.List.Chain

/-!
# EighthLayer.Provision.Pace

When the event stream of a job is orderly: opened first and ended last, with no phase sent twice in a row,
and with its frames in time.

The order of the frames holds by itself, if no poll breaks the loop. The times hold exactly if the polls
since the last frame, and all of them, take no longer than is left of the limits beside the sleeps, which
are all that the clocks of the loop count (`jobEventStream_orderly_iff`).
-/

namespace EighthLayer.Provision

open Lib

/-! ## Orderly streams -/

/-- The status and the phase of a phase frame. -/
def Frame.signature : Frame → Option (Json × Json)
  | phase status name _ _ => some (status, name)
  | _ => none

/-- A frame between the first and the last. -/
def Frame.Middle (f : Frame) : Prop := f.event = "heartbeat" ∨ f.event = "phase"

/-- A frame that ends a stream. -/
def Frame.Final (f : Frame) : Prop := f.event = "completed" ∨ f.event = "failed"

theorem Frame.Middle.not_final {f : Frame} (h : f.Middle) : ¬ f.Final := by
  intro hf
  rcases h with h | h <;> rcases hf with hf | hf <;> exact absurd (h.symm.trans hf) (by decide)

theorem Frame.Final.signature {f : Frame} (h : f.Final) : f.signature = none := by
  cases f with
  | phase status name label pct => rcases h with h | h <;> exact absurd h (by simp [Frame.event])
  | _ => rfl

/-- The heartbeat interval, one poll and one sleep. -/
def Soon (t t' : ℚ) : Prop := t' - t ≤ 15 + 10 + 3

section
variable [NumberEq]

/-- The phase frames differ, each from the one before. -/
def Differ (last signature : Json × Json) : Prop := changed signature (some last) = true

/-- What may be expected of the stream of a job. -/
structure Orderly (stream : Frames × Ending) : Prop where
  closed : stream.2 = .closed
  shape : ∃ mid t final, stream.1 = (0, .opening) :: (mid ++ [(t, final)]) ∧
    (∀ f ∈ mid, f.2.Middle) ∧ final.Final ∧ t ≤ 30 * 60 + 10 + 3
  phases : (stream.1.filterMap fun f => f.2.signature).IsChain Differ
  gaps : (stream.1.map Prod.fst).IsChain Soon

/-! ## Polls -/

/-- A poll that is answered with a heartbeat. -/
def Poll.transient (p : Poll) : Bool :=
  match pollJobOnce p.outcome with
  | .obj row => Directory.isTrue (field row "_transient_error")
  | _ => false

/-- The status and the phase that a poll finds. -/
def Poll.signature (p : Poll) : Json × Json :=
  match pollJobOnce p.outcome with
  | .obj row => (statusOf row, field row "phase")
  | _ => (.null, .null)

/-- A poll that ends the stream. -/
def Poll.terminal (p : Poll) : Bool :=
  match pollJobOnce p.outcome, p.signature.1 with
  | .obj _, .str status => !p.transient && (status = "COMPLETED" || status = "FAILED")
  | _, _ => false

/-- A poll that breaks the loop: it finds something that is no object, or a status that is a list or an
object. -/
def Poll.broken (p : Poll) : Bool :=
  match pollJobOnce p.outcome, p.signature.1 with
  | .obj _, .arr _ => !p.transient
  | .obj _, .obj _ => !p.transient
  | .obj _, _ => false
  | _, _ => true

/-- A poll that is answered with a frame. -/
def Poll.loud (p : Poll) (last : Option (Json × Json)) : Bool :=
  p.transient || p.terminal || changed p.signature last

/-! ### Time -/

/-- Where a stream is when a poll starts: the status and the phase sent last, the sleeps and the time in
polls since the last frame, and the time in polls since the beginning. -/
structure Pace where
  last : Option (Json × Json)
  sleeps : Nat
  polled : ℚ
  total : ℚ

/-- A poll, the sleep after it, and the heartbeat after the fifth sleep. -/
def Pace.next (w : Pace) (p : Poll) : Pace :=
  if p.loud w.last then
    ⟨if p.transient then w.last else some p.signature, 1, 0, w.total + p.duration⟩
  else if w.sleeps = 4 then { w with sleeps := 0, polled := 0, total := w.total + p.duration }
  else ⟨w.last, w.sleeps + 1, w.polled + p.duration, w.total + p.duration⟩

def pace (polls : Nat → Poll) : Nat → Pace
  | 0 => ⟨none, 0, 0, 0⟩
  | i + 1 => (pace polls i).next (polls i)

/-- A poll that does not break the loop, and that leaves the next frame and the end in time. -/
structure Timely (polls : Nat → Poll) (k : Nat) : Prop where
  whole : (polls k).broken = false
  frame : (polls k).loud (pace polls k).last = true →
    3 * ((pace polls k).sleeps : ℚ) + (pace polls k).polled + (polls k).duration ≤ 28
  tick : (polls k).loud (pace polls k).last = false → (pace polls k).sleeps = 4 →
    (pace polls k).polled + (polls k).duration ≤ 13
  ends : (polls k).terminal = true →
    3 * (k : ℚ) + (pace polls k).total + (polls k).duration ≤ 1813

/-- From a poll on, all that are made are timely, and if none of them ends the stream, all the polls
together take no more than thirteen seconds. -/
def TimelyFrom (polls : Nat → Poll) (i : Nat) : Prop :=
  (∀ k, i ≤ k → k < 600 → (∀ m, i ≤ m → m < k → (polls m).terminal = false) → Timely polls k) ∧
    ((∀ m, i ≤ m → m < 600 → (polls m).terminal = false) → (pace polls 600).total ≤ 13)

/-! ## One round -/

/-- What is asked of the frames that follow one sent at a time. -/
structure Follows (t₀ : ℚ) (last : Option (Json × Json)) (frames : Frames) : Prop where
  shape : ∃ mid t final, frames = mid ++ [(t, final)] ∧ (∀ f ∈ mid, f.2.Middle) ∧ final.Final ∧
    t ≤ 30 * 60 + 10 + 3
  phases : (last.toList ++ frames.filterMap fun f => f.2.signature).IsChain Differ
  gaps : (t₀ :: frames.map Prod.fst).IsChain Soon

theorem orderly_iff_follows (frames : Frames) (e : Ending) :
    Orderly ((0, .opening) :: frames, e) ↔ e = .closed ∧ Follows 0 none frames := by
  constructor
  · intro h
    obtain ⟨mid, t, final, heq, hmid, hfinal, ht⟩ := h.shape
    exact ⟨h.closed, ⟨mid, t, final, (List.cons.inj heq).2, hmid, hfinal, ht⟩, h.phases, h.gaps⟩
  · intro ⟨he, h⟩
    obtain ⟨mid, t, final, heq, hmid, hfinal, ht⟩ := h.shape
    exact ⟨he, ⟨mid, t, final, congrArg _ heq, hmid, hfinal, ht⟩, h.phases, h.gaps⟩

/-- A frame in the middle, and what follows it. -/
theorem follows_cons_iff {t₀ t : ℚ} {last : Option (Json × Json)} {f : Frame} {frames : Frames}
    (hf : f.Middle) (hphase : ∀ signature ∈ f.signature, changed signature last = true) :
    Follows t₀ last ((t, f) :: frames) ↔
      Soon t₀ t ∧ Follows t (f.signature.or last) frames := by
  have hphases : (last.toList ++ ((t, f) :: frames).filterMap fun f => f.2.signature).IsChain Differ ↔
      ((f.signature.or last).toList ++ frames.filterMap fun f => f.2.signature).IsChain Differ := by
    cases hs : f.signature with
    | none => simp [hs]
    | some signature =>
      cases last with
      | none => simp [hs]
      | some l => simp [hs, Differ, hphase signature hs]
  constructor
  · intro h
    obtain ⟨mid, t', final, heq, hmid, hfinal, ht⟩ := h.shape
    cases mid with
    | nil =>
      have := (Prod.mk.inj (List.cons.inj heq).1).2
      exact absurd (this ▸ hfinal) hf.not_final
    | cons g mid =>
      have hgaps := List.isChain_cons_cons.mp h.gaps
      exact ⟨hgaps.1, ⟨mid, t', final, (List.cons.inj heq).2, fun g hg => hmid g (.tail _ hg),
        hfinal, ht⟩, hphases.mp h.phases, hgaps.2⟩
  · intro ⟨hsoon, h⟩
    obtain ⟨mid, t', final, heq, hmid, hfinal, ht⟩ := h.shape
    refine ⟨⟨(t, f) :: mid, t', final, congrArg _ heq, ?_, hfinal, ht⟩, hphases.mpr h.phases,
      List.isChain_cons_cons.mpr ⟨hsoon, h.gaps⟩⟩
    intro g hg
    rcases List.mem_cons.mp hg with rfl | hg
    · exact hf
    · exact hmid g hg

/-- The last frame. -/
theorem follows_final_iff {t₀ t : ℚ} {last : Option (Json × Json)} {f : Frame} (hf : f.Final) :
    Follows t₀ last [(t, f)] ↔ Soon t₀ t ∧ t ≤ 30 * 60 + 10 + 3 := by
  constructor
  · intro h
    obtain ⟨mid, t', final, heq, -, -, ht⟩ := h.shape
    cases mid with
    | nil =>
      have hsame : (t, f) = (t', final) := (List.cons.inj heq).1
      exact ⟨(List.isChain_cons_cons.mp h.gaps).1, (Prod.mk.inj hsame).1 ▸ ht⟩
    | cons g mid => simp at heq
  · intro ⟨hsoon, ht⟩
    refine ⟨⟨[], t, f, rfl, by simp, hf, ht⟩, ?_, by simp [hsoon]⟩
    cases last <;> simp [hf.signature]

/-- A phase frame is sent at the same time as the last frame, or not at all. -/
theorem follows_phase_final_iff {t₀ t : ℚ} {last : Option (Json × Json)} {f final : Frame}
    (hf : f.Middle) (hphase : ∀ signature ∈ f.signature, changed signature last = true)
    (hfinal : final.Final) :
    Follows t₀ last [(t, f), (t, final)] ↔ Soon t₀ t ∧ t ≤ 30 * 60 + 10 + 3 := by
  have hsame : Soon t t := by
    unfold Soon
    linarith
  rw [follows_cons_iff hf hphase, follows_final_iff hfinal]
  exact and_congr_right fun _ => and_iff_right hsame

/-! ### What a poll does -/

variable {p : Poll} {s : StreamState}

theorem pollStep_broken (h : p.broken = true) : ∃ frames, pollStep p s = (frames, .over .crashed) := by
  cases hrow : pollJobOnce p.outcome with
  | obj row =>
    cases hstatus : statusOf row <;>
      simp_all [Poll.broken, Poll.signature, Poll.transient, pollStep]
  | _ => exact ⟨[], by simp only [pollStep, hrow]⟩

theorem pollStep_transient (h : p.transient = true) :
    ∃ note, pollStep p s = ([(s.clock + p.duration, .warning note)],
      .sleep { s with sinceHeartbeat := 0, clock := s.clock + p.duration }) := by
  cases hrow : pollJobOnce p.outcome with
  | obj row => simp_all [Poll.transient, pollStep]
  | _ => simp [Poll.transient, hrow] at h

omit [NumberEq] in
theorem Poll.terminal_not_transient (h : p.terminal = true) : p.transient = false := by
  cases hrow : pollJobOnce p.outcome with
  | obj row =>
    cases hstatus : statusOf row <;> simp_all [Poll.terminal, Poll.signature]
  | _ => simp [Poll.terminal, hrow] at h

/-- The frame that tells of a new phase. -/
theorem pollStep_phase (hrow : p.broken = false) (h : p.transient = false) :
    ∃ label pct,
      let f : Frame := .phase p.signature.1 p.signature.2 label pct
      let frames : Frames :=
        if changed p.signature s.lastSignature then [(s.clock + p.duration, f)] else []
      let s' : StreamState := if changed p.signature s.lastSignature then
          { s with lastSignature := some p.signature, sinceHeartbeat := 0, clock := s.clock + p.duration }
        else { s with clock := s.clock + p.duration }
      (p.terminal = false → pollStep p s = (frames, .sleep s')) ∧
      (p.terminal = true → ∃ final : Frame, final.Final ∧
        pollStep p s = (frames ++ [(s.clock + p.duration, final)], .over .closed)) := by
  cases hobj : pollJobOnce p.outcome with
  | obj row =>
    have hsig : p.signature = (statusOf row, field row "phase") := by simp only [Poll.signature, hobj]
    have hsoft : Directory.isTrue (field row "_transient_error") = false := by
      simpa only [Poll.transient, hobj] using h
    refine ⟨field row "phase_label", field row "progress_pct", ?_, ?_⟩
    · intro hterm
      simp only [hsig, pollStep, hobj, hsoft, Bool.false_eq_true, if_false]
      cases hstatus : statusOf row <;>
        simp_all [Poll.broken, Poll.terminal]
    · intro hterm
      simp only [hsig, pollStep, hobj, hsoft, Bool.false_eq_true, if_false]
      cases hstatus : statusOf row with
      | str status =>
        by_cases hdone : status = "COMPLETED"
        · subst hdone
          exact ⟨.completed (field row "result"), .inl rfl, rfl⟩
        · have hfailed : status = "FAILED" := by
            simp_all [Poll.terminal]
          subst hfailed
          exact ⟨.failed (.str "FAILED") (field row "error"), .inr rfl, rfl⟩
      | _ => simp_all [Poll.terminal]
  | _ => simp [Poll.broken, hobj] at hrow

/-- A poll that ends the stream. -/
theorem pollStep_terminal (hrow : p.broken = false) (h : p.terminal = true) :
    ∃ frames, pollStep p s = (frames, .over .closed) ∧ ∀ t₀,
      Follows t₀ s.lastSignature frames ↔
        Soon t₀ (s.clock + p.duration) ∧ s.clock + p.duration ≤ 30 * 60 + 10 + 3 := by
  obtain ⟨label, pct, -, hstep⟩ := @pollStep_phase _ p s hrow (p.terminal_not_transient h)
  obtain ⟨final, hfinal, heq⟩ := hstep h
  refine ⟨_, heq, fun t₀ => ?_⟩
  by_cases hnew : changed p.signature s.lastSignature = true
  · rw [if_pos hnew]
    exact follows_phase_final_iff (.inr rfl) (by simpa [Frame.signature] using hnew) hfinal
  · rw [if_neg hnew]
    exact follows_final_iff hfinal

/-- A poll that is answered with a frame in the middle. -/
theorem pollStep_loud (hrow : p.broken = false) (hterm : p.terminal = false)
    (h : p.loud s.lastSignature = true) :
    ∃ f : Frame, f.Middle ∧ (∀ signature ∈ f.signature, changed signature s.lastSignature = true) ∧
      f.signature.or s.lastSignature = (if p.transient then s.lastSignature else some p.signature) ∧
      pollStep p s = ([(s.clock + p.duration, f)],
        .sleep ⟨f.signature.or s.lastSignature, s.elapsed, 0, s.clock + p.duration⟩) := by
  by_cases hsoft : p.transient = true
  · obtain ⟨note, heq⟩ := pollStep_transient (s := s) hsoft
    exact ⟨.warning note, .inl rfl, by simp [Frame.signature], by simp [Frame.signature, hsoft], heq⟩
  · rw [Bool.not_eq_true] at hsoft
    have hnew : changed p.signature s.lastSignature = true := by
      simpa [Poll.loud, hsoft, hterm] using h
    obtain ⟨label, pct, hstep, -⟩ := @pollStep_phase _ p s hrow hsoft
    have heq := hstep hterm
    rw [if_pos hnew, if_pos hnew] at heq
    exact ⟨_, .inr rfl, by simpa [Frame.signature] using hnew, by simp [Frame.signature, hsoft], heq⟩

/-- A poll that finds nothing new. -/
theorem pollStep_quiet (hrow : p.broken = false) (h : p.loud s.lastSignature = false) :
    pollStep p s = ([], .sleep { s with clock := s.clock + p.duration }) := by
  simp only [Poll.loud, Bool.or_eq_false_iff] at h
  obtain ⟨⟨hsoft, hterm⟩, hold⟩ := h
  obtain ⟨label, pct, hstep, -⟩ := @pollStep_phase _ p s hrow hsoft
  have heq := hstep hterm
  rwa [if_neg (by simp [hold]), if_neg (by simp [hold])] at heq

/-! ## The loop -/

/-- A loop at its `i`-th poll, with the last frame sent at `t₀`. -/
structure Paced (polls : Nat → Poll) (i : Nat) (t₀ : ℚ) (s : StreamState) : Prop where
  last : s.lastSignature = (pace polls i).last
  elapsed : s.elapsed = 3 * i
  since : s.sinceHeartbeat = 3 * (pace polls i).sleeps
  few : (pace polls i).sleeps ≤ 4
  clock : s.clock = 3 * (i : ℚ) + (pace polls i).total
  sent : s.clock - t₀ = 3 * ((pace polls i).sleeps : ℚ) + (pace polls i).polled
  nonneg : 0 ≤ (pace polls i).polled
  within : (pace polls i).polled ≤ (pace polls i).total

theorem paced_start (polls : Nat → Poll) : Paced polls 0 0 ⟨none, 0, 0, 0⟩ where
  last := rfl
  elapsed := rfl
  since := rfl
  few := by simp [pace]
  clock := by simp [pace]
  sent := by simp [pace]
  nonneg := by simp [pace]
  within := by simp [pace]

variable {polls : Nat → Poll} {i : Nat} {t₀ : ℚ}

/-- After a frame that answers a poll, and the sleep. -/
theorem Paced.loud (h : Paced polls i t₀ s) (hloud : (polls i).loud s.lastSignature = true)
    {last : Option (Json × Json)}
    (hlast : last = if (polls i).transient then s.lastSignature else some (polls i).signature) :
    let s' := sleepStep ⟨last, s.elapsed, 0, s.clock + (polls i).duration⟩
    s'.1 = [] ∧ Paced polls (i + 1) (s.clock + (polls i).duration) s'.2 ∧ s'.2.lastSignature = last := by
  have hnext : pace polls (i + 1) = ⟨last, 1, 0, (pace polls i).total + (polls i).duration⟩ := by
    rw [h.last] at hloud hlast
    simp only [pace, Pace.next, hloud, if_true, hlast]
  have hslept : sleepStep ⟨last, s.elapsed, 0, s.clock + (polls i).duration⟩ =
      ([], ⟨last, s.elapsed + 3, 3, s.clock + (polls i).duration + 3⟩) := by
    simp [sleepStep, heartbeatEverySec, pollIntervalSec]
  have helapsed := h.elapsed
  have hclock := h.clock
  dsimp only
  rw [hslept]
  refine ⟨rfl, ?_, rfl⟩
  constructor <;> simp only [hnext]
  case few => decide
  case nonneg => exact le_refl 0
  case elapsed => omega
  case clock =>
    push_cast
    linarith
  case sent =>
    push_cast
    linarith
  case within =>
    have hduration := (polls i).nonneg
    have hnonneg := h.nonneg
    have hwithin := h.within
    linarith

/-- After a poll that finds nothing new, and the sleep. -/
theorem Paced.quiet (h : Paced polls i t₀ s) (hquiet : (polls i).loud s.lastSignature = false)
    (hfew : (pace polls i).sleeps ≠ 4) :
    let s' := sleepStep { s with clock := s.clock + (polls i).duration }
    s'.1 = [] ∧ Paced polls (i + 1) t₀ s'.2 ∧ s'.2.lastSignature = s.lastSignature := by
  have hnext : pace polls (i + 1) = ⟨s.lastSignature, (pace polls i).sleeps + 1,
      (pace polls i).polled + (polls i).duration, (pace polls i).total + (polls i).duration⟩ := by
    rw [h.last] at hquiet ⊢
    simp only [pace, Pace.next, hquiet, Bool.false_eq_true, if_false, if_neg hfew]
  have hsince := h.since
  have hatMost := h.few
  have hslept : sleepStep { s with clock := s.clock + (polls i).duration } =
      ([], ⟨s.lastSignature, s.elapsed + 3, s.sinceHeartbeat + 3,
        s.clock + (polls i).duration + 3⟩) := by
    have hbelow : ¬ 15 ≤ s.sinceHeartbeat + 3 := by omega
    simp [sleepStep, heartbeatEverySec, pollIntervalSec, hbelow]
  have helapsed := h.elapsed
  have hclock := h.clock
  have hsent := h.sent
  have hduration := (polls i).nonneg
  have hnonneg := h.nonneg
  have hwithin := h.within
  dsimp only
  rw [hslept]
  refine ⟨rfl, ?_, rfl⟩
  constructor <;> simp only [hnext]
  case since => omega
  case few => omega
  case nonneg => linarith
  case elapsed => omega
  case clock =>
    push_cast
    linarith
  case sent =>
    push_cast
    linarith
  case within => linarith

/-- The heartbeat after the fifth sleep. -/
theorem Paced.tick (h : Paced polls i t₀ s) (hquiet : (polls i).loud s.lastSignature = false)
    (hfive : (pace polls i).sleeps = 4) :
    let s' := sleepStep { s with clock := s.clock + (polls i).duration }
    s'.1 = [(s'.2.clock, .tick)] ∧ Paced polls (i + 1) s'.2.clock s'.2 ∧
      s'.2.lastSignature = s.lastSignature ∧
      (Soon t₀ s'.2.clock ↔ (pace polls i).polled + (polls i).duration ≤ 13) := by
  have hnext : pace polls (i + 1) =
      ⟨s.lastSignature, 0, 0, (pace polls i).total + (polls i).duration⟩ := by
    rw [h.last] at hquiet ⊢
    simp only [pace, Pace.next, hquiet, Bool.false_eq_true, if_false, if_pos hfive]
  have hsince := h.since
  have hslept : sleepStep { s with clock := s.clock + (polls i).duration } =
      ([(s.clock + (polls i).duration + 3, .tick)],
        ⟨s.lastSignature, s.elapsed + 3, 0, s.clock + (polls i).duration + 3⟩) := by
    have hat : 15 ≤ s.sinceHeartbeat + 3 := by omega
    simp [sleepStep, heartbeatEverySec, pollIntervalSec, hat]
  have helapsed := h.elapsed
  have hclock := h.clock
  have hsent := h.sent
  have hduration := (polls i).nonneg
  have hnonneg := h.nonneg
  have hwithin := h.within
  rw [hfive] at hsent
  dsimp only
  rw [hslept]
  refine ⟨rfl, ?_, rfl, ?_⟩
  · constructor <;> simp only [hnext]
    case few => decide
    case nonneg => exact le_refl 0
    case elapsed => omega
    case clock =>
      push_cast
      linarith
    case sent =>
      push_cast
      linarith
    case within => linarith
  · unfold Soon
    push_cast at hsent
    constructor <;> intro hsoon <;> linarith

/-- One more poll. -/
theorem timelyFrom_iff (hi : i < 600) :
    TimelyFrom polls i ↔ Timely polls i ∧ ((polls i).terminal = false → TimelyFrom polls (i + 1)) := by
  constructor
  · intro ⟨hpolls, htotal⟩
    refine ⟨hpolls i (le_refl i) hi fun m h h' => absurd h' (Nat.not_lt.mpr h), fun hterm => ⟨?_, ?_⟩⟩
    · intro k hk hbound hbefore
      refine hpolls k (by omega) hbound fun m hm hmk => ?_
      rcases Nat.eq_or_lt_of_le hm with rfl | hm
      · exact hterm
      · exact hbefore m hm hmk
    · intro hnone
      refine htotal fun m hm hbound => ?_
      rcases Nat.eq_or_lt_of_le hm with rfl | hm
      · exact hterm
      · exact hnone m hm hbound
  · intro ⟨htimely, hrest⟩
    constructor
    · intro k hk hbound hbefore
      rcases Nat.eq_or_lt_of_le hk with rfl | hk
      · exact htimely
      · exact (hrest (hbefore i (le_refl i) hk)).1 k hk hbound fun m hm => hbefore m (by omega)
    · intro hnone
      exact (hrest (hnone i (le_refl i) hi)).2 fun m hm => hnone m (by omega)

theorem timely_terminal_iff (hrow : (polls i).broken = false) (hterm : (polls i).terminal = true) :
    Timely polls i ↔
      3 * ((pace polls i).sleeps : ℚ) + (pace polls i).polled + (polls i).duration ≤ 28 ∧
        3 * (i : ℚ) + (pace polls i).total + (polls i).duration ≤ 1813 := by
  have hloud : (polls i).loud (pace polls i).last = true := by simp [Poll.loud, hterm]
  constructor
  · intro h
    exact ⟨h.frame hloud, h.ends hterm⟩
  · intro ⟨hframe, hends⟩
    exact ⟨hrow, fun _ => hframe, by simp [hloud], fun _ => hends⟩

theorem timely_loud_iff (hrow : (polls i).broken = false) (hterm : (polls i).terminal = false)
    (hloud : (polls i).loud (pace polls i).last = true) :
    Timely polls i ↔
      3 * ((pace polls i).sleeps : ℚ) + (pace polls i).polled + (polls i).duration ≤ 28 := by
  constructor
  · intro h
    exact h.frame hloud
  · intro hframe
    exact ⟨hrow, fun _ => hframe, by simp [hloud], by simp [hterm]⟩

theorem timely_tick_iff (hrow : (polls i).broken = false) (hterm : (polls i).terminal = false)
    (hloud : (polls i).loud (pace polls i).last = false) (hfive : (pace polls i).sleeps = 4) :
    Timely polls i ↔ (pace polls i).polled + (polls i).duration ≤ 13 := by
  constructor
  · intro h
    exact h.tick hloud hfive
  · intro htick
    exact ⟨hrow, by simp [hloud], fun _ _ => htick, by simp [hterm]⟩

theorem timely_quiet (hrow : (polls i).broken = false) (hterm : (polls i).terminal = false)
    (hloud : (polls i).loud (pace polls i).last = false) (hfew : (pace polls i).sleeps ≠ 4) :
    Timely polls i :=
  ⟨hrow, by simp [hloud], fun _ hfour => absurd hfour hfew, by simp [hterm]⟩

/-- A frame after a poll is in time. -/
theorem Paced.soon_iff (h : Paced polls i t₀ s) : Soon t₀ (s.clock + (polls i).duration) ↔
    3 * ((pace polls i).sleeps : ℚ) + (pace polls i).polled + (polls i).duration ≤ 28 := by
  have hsent := h.sent
  unfold Soon
  constructor <;> intro hsoon <;> linarith

/-- The end of a stream after a poll is in time. -/
theorem Paced.ends_iff (h : Paced polls i t₀ s) :
    s.clock + (polls i).duration ≤ 30 * 60 + 10 + 3 ↔
      3 * (i : ℚ) + (pace polls i).total + (polls i).duration ≤ 1813 := by
  rw [h.clock]
  norm_num

/-- The end of a stream that none of its polls ends. -/
theorem Paced.timeout_iff (h : Paced polls 600 t₀ s) :
    Follows t₀ s.lastSignature [(s.clock, .timeout)] ↔ (pace polls 600).total ≤ 13 := by
  have hsent := h.sent
  have hclock := h.clock
  have hwithin := h.within
  have hfew : ((pace polls 600).sleeps : ℚ) ≤ 4 := by exact_mod_cast h.few
  rw [follows_final_iff (.inr rfl)]
  unfold Soon
  push_cast at hclock
  constructor
  · intro ⟨_, hends⟩
    linarith
  · intro htotal
    exact ⟨by linarith, by linarith⟩

/-- **From any poll on**, the frames are as they should be exactly if the polls are in time. The induction
is on the polls that are left. -/
theorem streamLoop_iff (fuel : Nat) (hfuel : i + fuel = 601) (hpos : 0 < fuel)
    (h : Paced polls i t₀ s) :
    (streamLoop polls fuel i s).2 = .closed ∧
      Follows t₀ s.lastSignature (streamLoop polls fuel i s).1 ↔ TimelyFrom polls i := by
  induction fuel generalizing i s t₀ with
  | zero => exact absurd hpos (Nat.lt_irrefl 0)
  | succ fuel ih =>
    have helapsed := h.elapsed
    have hmax : streamMaxSec = 1800 := rfl
    by_cases hi : i < 600
    · have hrunning : s.elapsed < streamMaxSec := by omega
      rw [timelyFrom_iff hi]
      simp only [streamLoop, if_pos hrunning]
      by_cases hbroken : (polls i).broken = true
      · obtain ⟨frames, hstep⟩ := pollStep_broken (s := s) hbroken
        rw [hstep]
        dsimp only
        refine iff_of_false (fun hall => absurd hall.1 (by decide)) fun hall => ?_
        exact absurd (hall.1.whole.symm.trans hbroken) (by decide)
      rw [Bool.not_eq_true] at hbroken
      by_cases hterm : (polls i).terminal = true
      · -- the poll ends the stream, and nothing follows
        obtain ⟨frames, hstep, hframes⟩ := pollStep_terminal (s := s) hbroken hterm
        rw [hstep]
        dsimp only
        rw [hframes, h.soon_iff, h.ends_iff, timely_terminal_iff hbroken hterm]
        simp [hterm]
      rw [Bool.not_eq_true] at hterm
      by_cases hloud : (polls i).loud s.lastSignature = true
      · -- a frame, and the rest of the stream
        obtain ⟨f, hmiddle, hphase, hlast, hstep⟩ := pollStep_loud (s := s) hbroken hterm hloud
        obtain ⟨hsilent, hpaced, hkept⟩ := h.loud hloud hlast
        have hrest := ih (by omega) (by omega) hpaced
        rw [hkept] at hrest
        rw [hstep]
        dsimp only
        rw [hsilent, List.append_nil, List.singleton_append, follows_cons_iff hmiddle hphase,
          h.soon_iff, and_left_comm, hrest, timely_loud_iff hbroken hterm (h.last ▸ hloud)]
        simp [hterm]
      rw [Bool.not_eq_true] at hloud
      rw [pollStep_quiet hbroken hloud]
      dsimp only
      rw [List.nil_append]
      by_cases hfive : (pace polls i).sleeps = 4
      · -- the sleep ends with a heartbeat
        obtain ⟨htick, hpaced, hkept, hsoon⟩ := h.tick hloud hfive
        have hrest := ih (by omega) (by omega) hpaced
        rw [hkept] at hrest
        rw [htick, List.singleton_append, follows_cons_iff (.inl rfl) (by simp [Frame.signature]), hsoon,
          and_left_comm, timely_tick_iff hbroken hterm (h.last ▸ hloud) hfive]
        change _ ∧ (_ ∧ Follows _ s.lastSignature _) ↔ _
        rw [hrest]
        simp [hterm]
      · obtain ⟨hsilent, hpaced, hkept⟩ := h.quiet hloud hfive
        have hrest := ih (by omega) (by omega) hpaced
        rw [hkept] at hrest
        rw [hsilent, List.nil_append, hrest]
        simp [hterm, timely_quiet hbroken hterm (h.last ▸ hloud) hfive]
    · -- no poll is left
      obtain rfl : i = 600 := by omega
      have hover : ¬ s.elapsed < streamMaxSec := by omega
      simp only [streamLoop, if_neg hover, true_and]
      rw [h.timeout_iff]
      constructor
      · intro htotal
        exact ⟨fun k hk hbound => absurd hbound (by omega), fun _ => htotal⟩
      · intro htimely
        exact htimely.2 fun m hm hbound => absurd hbound (by omega)

/-- From the first poll on. -/
theorem streamLoop_start_iff (polls : Nat → Poll) :
    (streamLoop polls (streamMaxSec / pollIntervalSec + 1) 0 ⟨none, 0, 0, 0⟩).2 = .closed ∧
      Follows 0 none (streamLoop polls (streamMaxSec / pollIntervalSec + 1) 0 ⟨none, 0, 0, 0⟩).1 ↔
        TimelyFrom polls 0 :=
  streamLoop_iff (s := ⟨none, 0, 0, 0⟩) 601 rfl (by decide) (paced_start polls)

/-- **When a stream is orderly**: exactly if the polls up to its end do not break the loop and are in
time. -/
theorem jobEventStream_orderly_iff (polls : Nat → Poll) :
    Orderly (jobEventStream polls) ↔ TimelyFrom polls 0 := by
  rw [jobEventStream, orderly_iff_follows]
  exact streamLoop_start_iff polls

end

/-! ## Streams that are not orderly -/

/-- A comparison of numbers, for the polls below, which hold none. -/
local instance : NumberEq := ⟨fun _ _ => false⟩

/-- Polls of ten seconds that find a job in the same phase. -/
def slowPoll : Poll where
  outcome := .response 200 (some (.obj [("status", .str "PROVISIONING"), ("phase", .str "dns")]))
  duration := 10
  nonneg := by norm_num
  bounded := by norm_num

/-- A poll that finds a list. -/
def listPoll : Poll where
  outcome := .response 200 (some (.arr []))
  duration := 0
  nonneg := by norm_num
  bounded := by norm_num

/-- The heartbeat comes 65 seconds after the frame before it, as the loop counts the five sleeps alone. A
body that is a list ends the stream with an error. -/
theorem slow_and_broken_streams :
    ¬ Orderly (jobEventStream fun _ => slowPoll) ∧ ¬ Orderly (jobEventStream fun _ => listPoll) := by
  constructor
  · rw [jobEventStream, orderly_iff_follows, streamLoop_start_iff]
    intro h
    have hgoing : slowPoll.terminal = false := by decide
    have hfirst : slowPoll.loud none = true := by decide
    have hagain : slowPoll.loud (some slowPoll.signature) = false := by decide
    have hsoft : slowPoll.transient = false := by decide
    have hten : slowPoll.duration = 10 := rfl
    have htimely := h.1 4 (by decide) (by decide) fun _ _ _ => hgoing
    have hpace : pace (fun _ => slowPoll) 4 = ⟨some slowPoll.signature, 4, 30, 40⟩ := by
      norm_num [pace, Pace.next, hfirst, hagain, hsoft, hten]
    have htick := htimely.tick (by rw [hpace]; exact hagain) (by rw [hpace])
    rw [hpace, hten] at htick
    norm_num at htick
  · rw [jobEventStream, orderly_iff_follows, streamLoop_start_iff]
    intro h
    have hgoing : listPoll.terminal = false := by decide
    have htimely := h.1 0 (by decide) (by decide) fun _ _ _ => hgoing
    exact absurd htimely.whole (by decide)

end EighthLayer.Provision
