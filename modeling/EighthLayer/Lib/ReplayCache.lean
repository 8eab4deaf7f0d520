import Mathlib.Algebra.Order.Group.Int
import Mathlib.Data.List.TakeWhile

/-!
# EighthLayer.Lib.ReplayCache

A bounded sliding-window cache that remembers which keys were recorded lately:
entries in order of recording, expired ones dropped from the old end on every
lookup, and the oldest dropped when there are too many.

`Tracks` compares a cache with the complete history of what it recorded. As long
as the history keeps `Room` (fewer recordings than the bound in any window), the
cache is the history less entries older than the window, so a key is recorded
again only after the window has passed (`Tracks.record`).
-/

namespace Lib

/-- A replay cache: its retention time, its bound, and its entries with the time
each was recorded, oldest first. -/
structure ReplayCache (K : Type) where
  ttl : Int
  max : Nat
  entries : List (K × Int)

namespace ReplayCache

variable {K : Type}

/-- Drop expired entries from the old end, up to the first that is not expired. -/
def evictExpired (c : ReplayCache K) (now : Int) : ReplayCache K :=
  { c with entries := c.entries.dropWhile fun e => e.2 < now - c.ttl }

/-- Record a key unless it is remembered; the result says which. -/
def checkAndRecord [DecidableEq K] (c : ReplayCache K) (key : K) (now : Int) : ReplayCache K × Bool :=
  let c := c.evictExpired now
  if key ∈ c.entries.map Prod.fst then (c, false)
  else
    let entries := c.entries ++ [(key, now)]
    ({ c with entries := if c.max < entries.length then entries.tail else entries }, true)

/-- Fewer than `max` recordings in any window of length `ttl`. -/
def Room (ttl : Int) (max : Nat) (history : List (K × Int)) : Prop :=
  ∀ t : Int, (history.filter fun e => t - ttl ≤ e.2 ∧ e.2 ≤ t).length < max

theorem Room.left {ttl : Int} {max : Nat} {h h' : List (K × Int)} (hroom : Room ttl max (h ++ h')) :
    Room ttl max h := fun t => by
  have := hroom t
  rw [List.filter_append, List.length_append] at this
  omega

/-- The cache is what is left of a history after dropping expired entries. -/
structure Tracks (c : ReplayCache K) (history : List (K × Int)) (clock : Int) : Prop where
  sorted : history.Pairwise fun a b => a.2 ≤ b.2
  past : ∀ e ∈ history, e.2 ≤ clock
  kept : ∃ dropped, history = dropped ++ c.entries ∧ ∀ e ∈ dropped, e.2 < clock - c.ttl
  /-- One key is recorded twice only with more than the window in between. -/
  spaced : history.Pairwise fun a b => a.1 = b.1 → a.2 < b.2 - c.ttl

theorem tracks_nil (ttl : Int) (max : Nat) (clock : Int) :
    Tracks (⟨ttl, max, []⟩ : ReplayCache K) [] clock where
  sorted := List.Pairwise.nil
  past _ h := absurd h List.not_mem_nil
  kept := ⟨[], rfl, fun _ h => absurd h List.not_mem_nil⟩
  spaced := List.Pairwise.nil

variable {c : ReplayCache K} {history : List (K × Int)} {clock now : Int}

/-- The invariant outlasts the clock. -/
theorem Tracks.mono (h : c.Tracks history clock) (hnow : clock ≤ now) : c.Tracks history now where
  sorted := h.sorted
  past e he := (h.past e he).trans hnow
  kept := by
    obtain ⟨dropped, hsplit, hdropped⟩ := h.kept
    refine ⟨dropped, hsplit, fun e he => ?_⟩
    have := hdropped e he
    omega
  spaced := h.spaced

/-- What the history still contains and the cache does not is expired. -/
theorem Tracks.forgotten (h : c.Tracks history clock) {e : K × Int} (he : e ∈ history)
    (hnot : e ∉ c.entries) : e.2 < clock - c.ttl := by
  obtain ⟨dropped, rfl, hdropped⟩ := h.kept
  rcases List.mem_append.mp he with he | he
  · exact hdropped e he
  · exact absurd he hnot

/-- Dropping expired entries keeps the cache in step with its history. -/
theorem Tracks.evict (h : c.Tracks history clock) (hnow : clock ≤ now) :
    (c.evictExpired now).Tracks history now ∧
      ∀ e ∈ (c.evictExpired now).entries, now - c.ttl ≤ e.2 := by
  obtain ⟨dropped, hsplit, hdropped⟩ := (h.mono hnow).kept
  have hcut : c.entries = c.entries.takeWhile (fun e => e.2 < now - c.ttl) ++
      (c.evictExpired now).entries := (List.takeWhile_append_dropWhile ..).symm
  refine ⟨⟨h.sorted, (h.mono hnow).past, ?_, h.spaced⟩, ?_⟩
  · refine ⟨dropped ++ c.entries.takeWhile fun e => e.2 < now - c.ttl, ?_, fun e he => ?_⟩
    · rw [List.append_assoc, ← hcut, hsplit]
    · rcases List.mem_append.mp he with he | he
      · exact hdropped e he
      · have hold := List.mem_takeWhile_imp (p := fun e : K × Int => e.2 < now - c.ttl) he
        exact of_decide_eq_true hold
  · -- the first entry that is kept is not expired, and the others are later
    have hsorted : (c.evictExpired now).entries.Pairwise fun a b => a.2 ≤ b.2 := by
      have hall := h.sorted
      rw [hsplit, hcut] at hall
      exact (List.pairwise_append.mp (List.pairwise_append.mp hall).2.1).2.1
    intro e he
    cases hentries : (c.evictExpired now).entries with
    | nil => rw [hentries] at he; cases he
    | cons first rest =>
        have hfirst : now - c.ttl ≤ first.2 := by
          have hdrop : c.entries.dropWhile (fun e => e.2 < now - c.ttl) = first :: rest := hentries
          have hnot := List.head?_dropWhile_not (fun e : K × Int => decide (e.2 < now - c.ttl))
            c.entries
          rw [hdrop] at hnot
          simpa using hnot
        rw [hentries] at he hsorted
        rcases List.mem_cons.mp he with rfl | he
        · exact hfirst
        · exact hfirst.trans ((List.pairwise_cons.mp hsorted).1 e he)

variable [DecidableEq K]

/-- A refused key leaves the history as it was. -/
theorem Tracks.refuse (h : c.Tracks history clock) (hnow : clock ≤ now) {key : K}
    {c' : ReplayCache K} (hcheck : c.checkAndRecord key now = (c', false)) :
    c'.Tracks history now ∧ c'.ttl = c.ttl ∧ c'.max = c.max := by
  unfold checkAndRecord at hcheck
  dsimp only at hcheck
  split at hcheck
  · cases hcheck
    exact ⟨(h.evict hnow).1, rfl, rfl⟩
  · cases hcheck

/-- **Recording.** A recorded key joins the history; every earlier recording of
it is older than the window. -/
theorem Tracks.record (h : c.Tracks history clock) (hnow : clock ≤ now) (httl : 0 ≤ c.ttl)
    {key : K}
    (hroom : Room c.ttl c.max (history ++ [(key, now)])) {c' : ReplayCache K}
    (hcheck : c.checkAndRecord key now = (c', true)) :
    c'.Tracks (history ++ [(key, now)]) now ∧ c'.ttl = c.ttl ∧ c'.max = c.max := by
  obtain ⟨hev, hfresh⟩ := h.evict hnow
  unfold checkAndRecord at hcheck
  dsimp only at hcheck
  split at hcheck
  · cases hcheck
  · next hnot =>
      obtain ⟨dropped, hsplit, hdropped⟩ := hev.kept
      -- everything kept was recorded within the window that ends now
      have hshort : ((c.evictExpired now).entries ++ [(key, now)]).length < c.max := by
        have hwindow := hroom now
        rw [hsplit, List.append_assoc, List.filter_append, List.length_append] at hwindow
        have hall : ((c.evictExpired now).entries ++ [(key, now)]).filter
            (fun e => now - c.ttl ≤ e.2 ∧ e.2 ≤ now) =
              (c.evictExpired now).entries ++ [(key, now)] := by
          rw [List.filter_eq_self]
          intro e he
          rcases List.mem_append.mp he with he | he
          · have hmem : e ∈ history := by rw [hsplit]; exact List.mem_append_right _ he
            exact decide_eq_true ⟨hfresh e he, hev.past e hmem⟩
          · rw [List.mem_singleton.mp he]
            exact decide_eq_true ⟨Int.sub_le_self now httl, le_refl now⟩
        rw [hall] at hwindow
        omega
      have hkeep : ¬ (c.evictExpired now).max <
          ((c.evictExpired now).entries ++ [(key, now)]).length := by
        show ¬ c.max < _
        omega
      rw [if_neg hkeep] at hcheck
      cases hcheck
      refine ⟨⟨?_, ?_, ⟨dropped, ?_, hdropped⟩, ?_⟩, rfl, rfl⟩
      · refine List.pairwise_append.mpr ⟨h.sorted, List.pairwise_singleton .., fun a ha b hb => ?_⟩
        rw [List.mem_singleton.mp hb]
        exact hev.past a ha
      · intro e he
        rcases List.mem_append.mp he with he | he
        · exact hev.past e he
        · rw [List.mem_singleton.mp he]
      · rw [hsplit, List.append_assoc]
      · refine List.pairwise_append.mpr ⟨h.spaced, List.pairwise_singleton .., fun a ha b hb => ?_⟩
        rw [List.mem_singleton.mp hb]
        intro hkey
        refine hev.forgotten ha fun hmem => hnot ?_
        exact List.mem_map.mpr ⟨a, hmem, hkey⟩

end ReplayCache

end Lib
