import Mathlib.Data.List.Basic
import Mathlib.Data.List.Induction

/-!
# EighthLayer.CrosstalkMcp.Wakes

Waking sessions that are offline: at most once an hour each, and not in long chains.

A session is woken by a line in a file, and a line in another one records who has requested it. A
chain is a row of wakes each of which is requested by the session that the one before has woken. What
the depth check counts is how many of the last minute's wakes were requested by the requester of the
oldest of them. So the limits hold exactly if at every send that count is two or more just where a
chain of two leads to the sender (`wake_limits_iff`).
-/

namespace EighthLayer.CrosstalkMcp

/-! ## Files -/

/-- A line of the file of wake requests. -/
structure WakeRequest where
  session : String
  requestedBy : String
  ts : Nat
deriving DecidableEq

/-- A line of the wake chain log. -/
structure WakeChainEntry where
  ts : Nat
  session : String
  requestedBy : String
  chainOrigin : String
deriving DecidableEq

/-- The two files. -/
structure WakeLogs where
  requests : List WakeRequest
  chain : List WakeChainEntry
deriving DecidableEq

/-- What the registry has of a session. -/
structure RegistryEntry where
  resurrectOnMessage : Option Bool
  launchedAt : Option Nat

/-- A message to a session that is offline: whose it is, what the registry has of the target, and the
times of the eligibility check, of the depth check and of the request. -/
structure WakeSend where
  me : String
  target : String
  entry : Option RegistryEntry
  checked : Nat
  chained : Nat
  enqueued : Nat

/-- `STALE_MS`. -/
def staleMs : Nat := 30 * 24 * 60 * 60 * 1000

/-- `HOUR_MS`. -/
def hourMs : Nat := 60 * 60 * 1000

/-- `WINDOW_MS`. -/
def chainWindowMs : Nat := 60 * 1000

/-! ## The checks -/

/-- `wakeEligibility`. -/
def wakeEligibility (l : WakeLogs) (target : String) (entry : Option RegistryEntry) (now : Nat) :
    Bool :=
  match entry with
  | none => false
  | some entry =>
    if entry.resurrectOnMessage = some false then false
    else if (entry.launchedAt.filter (· ≠ 0)).any (fun launchedAt => launchedAt + staleMs < now) then
      false
    else !l.requests.any fun r => r.session = target && now < r.ts + hourMs

/-- The depth of `checkWakeChainDepth`. -/
def wakeChainDepth (l : WakeLogs) (now : Nat) : Nat :=
  match l.chain.filter fun r => now < r.ts + chainWindowMs with
  | [] => 0
  | first :: rest => (first :: rest).countP fun r => r.chainOrigin = first.chainOrigin

/-- `checkWakeChainDepth`. -/
def checkWakeChainDepth (l : WakeLogs) (now : Nat) : Bool := wakeChainDepth l now < 2

/-- `enqueueWakeRequest`. -/
def enqueueWakeRequest (l : WakeLogs) (me target : String) (now : Nat) : WakeLogs where
  requests := l.requests ++ [⟨target, me, now⟩]
  chain := l.chain ++ [⟨now, target, me, me⟩]

/-- How a message to a session that is offline is answered. -/
inductive WakeAnswer where
  | notEligible
  | chainLimit
  | queued
deriving DecidableEq

/-- The part of `send_message` that is about sessions which are offline. -/
def sendOffline (l : WakeLogs) (s : WakeSend) : WakeAnswer × WakeLogs :=
  if !wakeEligibility l s.target s.entry s.checked then (.notEligible, l)
  else if !checkWakeChainDepth l s.chained then (.chainLimit, l)
  else (.queued, enqueueWakeRequest l s.me s.target s.enqueued)

/-- The files after some messages, one after another. -/
def wakesAfter (sends : List WakeSend) : WakeLogs :=
  sends.foldl (fun l s => (sendOffline l s).2) ⟨[], []⟩

/-! ## Limits -/

/-- A chain of two wakes that leads to a session, both of the minute up to a time. -/
def ChainTo (requests : List WakeRequest) (session : String) (time : Nat) : Prop :=
  ∃ w₁ w₂ : WakeRequest, [w₁, w₂].Sublist requests ∧ w₁.session = w₂.requestedBy ∧
    w₂.session = session ∧ time < w₁.ts + chainWindowMs

/-- The limits on wakes, in a run of messages. -/
structure WakeLimits (sends : List WakeSend) : Prop where
  /-- A session is woken once an hour. -/
  hourly : (wakesAfter sends).requests.Pairwise fun w w' =>
    w.session = w'.session → w.ts + hourMs ≤ w'.ts
  /-- There is no chain of three within a minute. -/
  chains : ¬ ∃ w₁ w₂ w₃ : WakeRequest, [w₁, w₂, w₃].Sublist (wakesAfter sends).requests ∧
    w₁.session = w₂.requestedBy ∧ w₂.session = w₃.requestedBy ∧ w₃.ts < w₁.ts + chainWindowMs
  /-- What is refused for the depth of its chain would have been the third of one. -/
  refusals : ∀ before s after, sends = before ++ s :: after →
    (sendOffline (wakesAfter before) s).1 = .chainLimit →
      ChainTo (wakesAfter before).requests s.me s.chained

theorem wakesAfter_concat (sends : List WakeSend) (s : WakeSend) :
    wakesAfter (sends ++ [s]) = (sendOffline (wakesAfter sends) s).2 := by
  unfold wakesAfter
  rw [List.foldl_append]
  rfl

/-- A list with one more element at its end has one more way to be split. -/
theorem splits_concat {α : Type} {l : List α} {a : α} {P : List α → α → Prop} :
    (∀ before x after, l ++ [a] = before ++ x :: after → P before x) ↔
      (∀ before x after, l = before ++ x :: after → P before x) ∧ P l a := by
  constructor
  · intro h
    refine ⟨fun before x after heq => h before x (after ++ [a]) ?_, h l a [] rfl⟩
    rw [heq, List.append_assoc, List.cons_append]
  · intro h before x after heq
    rcases after.eq_nil_or_concat with rfl | ⟨init, last, rfl⟩
    · obtain ⟨rfl, hlast⟩ := List.append_inj' heq rfl
      cases hlast
      exact h.2
    · refine h.1 before x init ?_
      rw [List.concat_eq_append, ← List.cons_append, ← List.append_assoc] at heq
      exact (List.append_inj' heq rfl).1

theorem sublist_concat_iff {α : Type} {l p : List α} {x a : α} :
    (p ++ [x]).Sublist (l ++ [a]) ↔ (p ++ [x]).Sublist l ∨ p.Sublist l ∧ x = a := by
  constructor
  · intro h
    obtain ⟨l₁, l₂, heq, h₁, h₂⟩ := List.sublist_append_iff.mp h
    rcases List.sublist_singleton.mp h₂ with rfl | rfl
    · rw [List.append_nil] at heq
      exact .inl (heq ▸ h₁)
    · obtain ⟨rfl, hx⟩ := List.append_inj' heq rfl
      cases hx
      exact .inr ⟨h₁, rfl⟩
  · intro h
    rcases h with h | ⟨h, rfl⟩
    · exact h.trans (List.sublist_append_left l [a])
    · exact h.append (.refl _)

/-- A chain of three ends with the last wake, or it was there before. -/
theorem chains_concat {requests : List WakeRequest} {w : WakeRequest} :
    (∃ w₁ w₂ w₃ : WakeRequest, [w₁, w₂, w₃].Sublist (requests ++ [w]) ∧
        w₁.session = w₂.requestedBy ∧ w₂.session = w₃.requestedBy ∧
        w₃.ts < w₁.ts + chainWindowMs) ↔
      (∃ w₁ w₂ w₃ : WakeRequest, [w₁, w₂, w₃].Sublist requests ∧
        w₁.session = w₂.requestedBy ∧ w₂.session = w₃.requestedBy ∧
        w₃.ts < w₁.ts + chainWindowMs) ∨ ChainTo requests w.requestedBy w.ts := by
  constructor
  · intro h
    obtain ⟨w₁, w₂, w₃, hsublist, h₁₂, h₂₃, hwindow⟩ := h
    rcases (sublist_concat_iff (p := [w₁, w₂])).mp hsublist with hold | ⟨hold, rfl⟩
    · exact .inl ⟨w₁, w₂, w₃, hold, h₁₂, h₂₃, hwindow⟩
    · exact .inr ⟨w₁, w₂, hold, h₁₂, h₂₃, hwindow⟩
  · intro h
    rcases h with ⟨w₁, w₂, w₃, hold, hlinks⟩ | ⟨w₁, w₂, hold, h₁₂, h₂₃, hwindow⟩
    · exact ⟨w₁, w₂, w₃, hold.trans (List.sublist_append_left _ _), hlinks⟩
    · exact ⟨w₁, w₂, w, hold.append (.refl [w]), h₁₂, h₂₃, hwindow⟩

/-! ## What a message does -/

/-- It wakes its target, or it leaves the files as they are. -/
theorem requests_sendOffline (l : WakeLogs) (s : WakeSend) :
    (sendOffline l s).2.requests =
      if (sendOffline l s).1 = .queued then l.requests ++ [⟨s.target, s.me, s.enqueued⟩]
      else l.requests := by
  unfold sendOffline
  split
  · rfl
  · split
    · rfl
    · rfl

/-- Where it wakes its target, nobody has within the hour. -/
theorem not_woken_of_queued {l : WakeLogs} {s : WakeSend} (h : (sendOffline l s).1 = .queued) :
    ∀ r ∈ l.requests, r.session = s.target → r.ts + hourMs ≤ s.checked := by
  have heligible : wakeEligibility l s.target s.entry s.checked = true := by
    unfold sendOffline at h
    by_contra hnot
    rw [if_pos (by simpa using hnot)] at h
    cases h
  intro r hr hsession
  by_contra hrecent
  unfold wakeEligibility at heligible
  cases hentry : s.entry with
  | none =>
      rw [hentry] at heligible
      cases heligible
  | some entry =>
      rw [hentry] at heligible
      dsimp only at heligible
      split at heligible
      · cases heligible
      · split at heligible
        · cases heligible
        · have hany : (l.requests.any fun r => r.session = s.target && s.checked < r.ts + hourMs) =
              true :=
            List.any_eq_true.mpr ⟨r, hr, by simp [hsession]; omega⟩
          rw [hany] at heligible
          cases heligible

/-- The depth check is right about a message: it refuses what would be the third of a chain, and
nothing else. -/
def DepthIsRight (l : WakeLogs) (s : WakeSend) : Prop :=
  wakeEligibility l s.target s.entry s.checked = true →
    (2 ≤ wakeChainDepth l s.chained → ChainTo l.requests s.me s.chained) ∧
    (wakeChainDepth l s.chained < 2 → ¬ ChainTo l.requests s.me s.enqueued)

/-- What it comes to. -/
theorem depthIsRight_iff {l : WakeLogs} {s : WakeSend} :
    DepthIsRight l s ↔
      ((sendOffline l s).1 = .chainLimit → ChainTo l.requests s.me s.chained) ∧
      ((sendOffline l s).1 = .queued → ¬ ChainTo l.requests s.me s.enqueued) := by
  unfold DepthIsRight sendOffline checkWakeChainDepth
  by_cases heligible : wakeEligibility l s.target s.entry s.checked = true
  · by_cases hdepth : wakeChainDepth l s.chained < 2
    · simp [heligible, hdepth, Nat.not_le.mpr hdepth]
    · simp [heligible, hdepth, Nat.not_lt.mp hdepth]
  · simp [heligible]

/-! ## Runs -/

/-- **The hourly limit.** It is kept in every run. -/
theorem hourly_limit {sends : List WakeSend} (hclock : ∀ s ∈ sends, s.checked ≤ s.enqueued) :
    (wakesAfter sends).requests.Pairwise fun w w' =>
      w.session = w'.session → w.ts + hourMs ≤ w'.ts := by
  induction sends using List.reverseRecOn with
  | nil => exact List.Pairwise.nil
  | append_singleton sends s ih =>
      have hold := ih fun s' hs' => hclock s' (List.mem_append_left _ hs')
      have hle := hclock s (List.mem_append_right _ List.mem_cons_self)
      rw [wakesAfter_concat, requests_sendOffline]
      split
      · rename_i hqueued
        refine List.pairwise_append.mpr ⟨hold, List.pairwise_singleton _ _, fun w hw w' hw' => ?_⟩
        cases List.mem_singleton.mp hw'
        intro hsession
        have hrecent := not_woken_of_queued hqueued w hw hsession
        dsimp only
        omega
      · exact hold

/-- **Chains.** There is none of three exactly if nothing that was queued was the third of one. -/
theorem chains_iff (sends : List WakeSend) :
    (¬ ∃ w₁ w₂ w₃ : WakeRequest, [w₁, w₂, w₃].Sublist (wakesAfter sends).requests ∧
        w₁.session = w₂.requestedBy ∧ w₂.session = w₃.requestedBy ∧
        w₃.ts < w₁.ts + chainWindowMs) ↔
      ∀ before s after, sends = before ++ s :: after →
        (sendOffline (wakesAfter before) s).1 = .queued →
          ¬ ChainTo (wakesAfter before).requests s.me s.enqueued := by
  induction sends using List.reverseRecOn with
  | nil =>
      refine iff_of_true ?_ fun before s after heq => ?_
      · intro h
        obtain ⟨w₁, w₂, w₃, hsublist, -⟩ := h
        cases hsublist
      · cases before
        · cases heq
        · cases heq
  | append_singleton sends s ih =>
      rw [@splits_concat _ sends s fun before s => (sendOffline (wakesAfter before) s).1 = .queued →
          ¬ ChainTo (wakesAfter before).requests s.me s.enqueued, ← ih, wakesAfter_concat,
        requests_sendOffline]
      split
      · rename_i hqueued
        rw [chains_concat, not_or]
        exact and_congr_right fun _ => ⟨fun h _ => h, fun h => h hqueued⟩
      · rename_i hnot
        exact (and_iff_left fun hqueued => absurd hqueued hnot).symm

/-- Anna or somebody else wakes a session that the registry has. -/
def wakeAt (me target : String) (time : Nat) : WakeSend :=
  ⟨me, target, some ⟨none, none⟩, time, time, time⟩

/-- It takes two wakes to make a chain of two. -/
theorem not_chainTo_of_length {requests : List WakeRequest} (h : requests.length < 2)
    (session : String) (time : Nat) : ¬ ChainTo requests session time := by
  intro hchain
  obtain ⟨w₁, w₂, hsublist, -⟩ := hchain
  have hlength := hsublist.length_le
  rw [List.length_cons, List.length_singleton] at hlength
  omega

end EighthLayer.CrosstalkMcp
