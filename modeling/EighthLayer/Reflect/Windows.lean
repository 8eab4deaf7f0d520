import EighthLayer.Lib.Ranking
import EighthLayer.Lib.Shift
import EighthLayer.Lib.Table

/-!
# EighthLayer.Reflect.Windows

Reflect submissions and the queries for those in a window of time (`reflect.py`).

A window starts at a text, and submissions are compared with it as the texts they are stored as.
These end in `Z` and leave out a fraction that is zero, so that a whole second sorts after all the
times within it (`isoZ_order_iff`). A window takes the submissions that lie in it, exactly if none
of the session shares the second of its start, the one with a fraction and the other without
(`windows_iff`).
-/

namespace EighthLayer.Reflect

open Lib

/-! ## The table -/

/-- A row of `reflect_submissions` as it is inserted. The text of its `submitted_at` is `_iso` of
the time. -/
structure SubmissionRow where
  id : String
  sessionId : String
  userId : Int
  enterpriseId : String
  groupId : Option String
  contextHash : String
  mode : String
  maxCandidates : Nat
  sinceTs : Option String
  submittedAt : Clock
deriving DecidableEq

/-- The table; `id` is its primary key. -/
abbrev Submissions : Type := Table SubmissionRow.id

/-- `_iso`, of a UTC time. -/
def iso (dt : Clock) : String := dt.isoZ

/-! ## The queries -/

/-- Whether a submission is of the session and from the start of a window on. -/
def inWindow (sessionId windowStartIso : String) (r : SubmissionRow) : Bool :=
  r.sessionId = sessionId && windowStartIso ≤ iso r.submittedAt

/-- `_find_recent_reflect_dedup_sync`: the latest with the same context. -/
def findRecentReflectDedup (rows : Submissions) (sessionId contextHash windowStartIso : String) :
    Option SubmissionRow :=
  (sortDesc (fun r => iso r.submittedAt)
    (rows.rows.filter fun r => inWindow sessionId windowStartIso r && r.contextHash = contextHash)).head?

/-- `_count_recent_reflect_submissions_sync`. -/
def countRecentReflectSubmissions (rows : Submissions) (sessionId windowStartIso : String) : Nat :=
  (rows.rows.filter (inWindow sessionId windowStartIso)).length

/-- `_get_oldest_reflect_in_window_sync`: its time. -/
def getOldestReflectInWindow (rows : Submissions) (sessionId windowStartIso : String) :
    Option Clock :=
  (sortDesc (fun r => OrderDual.toDual (iso r.submittedAt))
    (rows.rows.filter (inWindow sessionId windowStartIso))).head?.map SubmissionRow.submittedAt

theorem mem_of_findRecentReflectDedup {rows : Submissions}
    {sessionId contextHash windowStartIso : String} {r : SubmissionRow}
    (h : findRecentReflectDedup rows sessionId contextHash windowStartIso = some r) :
    r ∈ rows ∧ inWindow sessionId windowStartIso r = true ∧ r.contextHash = contextHash := by
  have hmem := mem_sortDesc.mp (List.mem_of_head? h)
  obtain ⟨hr, hwhere⟩ := List.mem_filter.mp hmem
  rw [Bool.and_eq_true] at hwhere
  exact ⟨hr, hwhere.1, of_decide_eq_true hwhere.2⟩

theorem findRecentReflectDedup_eq_none {rows : Submissions}
    {sessionId contextHash windowStartIso : String} :
    findRecentReflectDedup rows sessionId contextHash windowStartIso = none ↔
      ∀ r ∈ rows, inWindow sessionId windowStartIso r = true → r.contextHash ≠ contextHash := by
  unfold findRecentReflectDedup
  rw [List.head?_eq_none_iff, List.eq_nil_iff_forall_not_mem]
  constructor
  · intro h r hr hin hhash
    refine h r (mem_sortDesc.mpr (List.mem_filter.mpr ⟨hr, ?_⟩))
    rw [hin, decide_eq_true hhash]
    rfl
  · intro h r hmem
    obtain ⟨hr, hwhere⟩ := List.mem_filter.mp (mem_sortDesc.mp hmem)
    rw [Bool.and_eq_true] at hwhere
    exact h r hr hwhere.1 (of_decide_eq_true hwhere.2)

theorem countRecentReflectSubmissions_eq_zero {rows : Submissions}
    {sessionId windowStartIso : String} :
    countRecentReflectSubmissions rows sessionId windowStartIso = 0 ↔
      ∀ r ∈ rows, inWindow sessionId windowStartIso r = false := by
  unfold countRecentReflectSubmissions
  rw [List.length_eq_zero_iff, List.filter_eq_nil_iff]
  simp only [Bool.not_eq_true]
  exact Iff.rfl

/-! ## Texts and times -/

/-- Two times within one second, one of which is its start. -/
def Mixed (c d : Clock) : Prop := c.stamp = d.stamp ∧ (c.micro = 0 ↔ d.micro ≠ 0)

instance (c d : Clock) : Decidable (Mixed c d) := inferInstanceAs (Decidable (_ ∧ _))

/-- Of two times the later one sorts later, unless the earlier one is the start of a second that
they share. -/
theorem isoZ_order_iff {c d : Clock} (h : c.instant < d.instant) :
    c.isoZ < d.isoZ ↔ ¬ (c.stamp = d.stamp ∧ c.micro = 0) := by
  rw [Clock.isoZ_lt_iff]
  rw [Clock.instant_eq, Clock.instant_eq] at h
  have hc := c.micro_lt
  have hd := d.micro_lt
  constructor
  · rintro (hlt | ⟨-, hne, -⟩) ⟨heq, hzero⟩
    · rw [heq] at hlt
      exact lt_irrefl _ hlt
    · exact hne hzero
  · intro hnot
    by_cases hstamp : c.stamp = d.stamp
    · rw [hstamp] at h
      exact .inr ⟨hstamp, fun hzero => hnot ⟨hstamp, hzero⟩, .inr (by omega)⟩
    · have hne : c.stamp.seconds ≠ d.stamp.seconds := fun heq => hstamp (Stamp.seconds_inj heq)
      exact .inl (by omega)

/-- The start of a window is compared with a time as their instants are, exactly if the two are not
mixed. -/
theorem isoZ_le_iff_instant {w c : Clock} :
    (w.isoZ ≤ c.isoZ ↔ w.instant ≤ c.instant) ↔ ¬ Mixed w c := by
  have hw := w.micro_lt
  have hc := c.micro_lt
  rw [← not_lt, Clock.isoZ_lt_iff, Clock.instant_eq, Clock.instant_eq, Mixed]
  by_cases hstamp : c.stamp = w.stamp
  · simp only [hstamp, lt_irrefl, true_and, false_or]
    omega
  · have hne : c.stamp.seconds ≠ w.stamp.seconds := fun heq => hstamp (Stamp.seconds_inj heq)
    have hne' : w.stamp ≠ c.stamp := fun heq => hstamp heq.symm
    simp only [hstamp, hne', false_and, or_false, not_false_eq_true, iff_true]
    omega

/-- What a window of a session takes by the texts. -/
def inWindowText (rows : Submissions) (sessionId : String) (start : Clock) : List SubmissionRow :=
  rows.rows.filter (inWindow sessionId (iso start))

/-- What lies in a window of a session. -/
def inWindowInstant (rows : Submissions) (sessionId : String) (start : Clock) :
    List SubmissionRow :=
  rows.rows.filter fun r => r.sessionId = sessionId ∧ start.instant ≤ r.submittedAt.instant

/-- Two conditions take the same of a list if they agree on all of it. -/
theorem filter_eq_filter_iff {α : Type} {p q : α → Bool} {l : List α} :
    l.filter p = l.filter q ↔ ∀ a ∈ l, p a = q a := by
  refine ⟨fun h a ha => ?_, List.filter_congr⟩
  rw [Bool.eq_iff_iff]
  have hmem : a ∈ l.filter p ↔ a ∈ l.filter q := by rw [h]
  simpa [List.mem_filter, ha] using hmem

/-- One submission of a session is taken as it should be unless it is mixed with the start. -/
theorem inWindow_iff {sessionId : String} {start : Clock} {r : SubmissionRow} :
    inWindow sessionId (iso start) r =
        decide (r.sessionId = sessionId ∧ start.instant ≤ r.submittedAt.instant) ↔
      (r.sessionId = sessionId → ¬ Mixed start r.submittedAt) := by
  rw [← isoZ_le_iff_instant, Bool.eq_iff_iff, inWindow, Bool.and_eq_true, decide_eq_true_iff,
    decide_eq_true_iff, decide_eq_true_iff]
  show (_ ∧ start.isoZ ≤ r.submittedAt.isoZ ↔ _) ↔ _
  by_cases hsession : r.sessionId = sessionId
  · simp only [hsession, true_and, true_implies]
  · simp only [hsession, false_and, false_implies]

/-- **Windows.** Of two times the later one sorts later, unless the earlier one is the start of a
second that they share. So what a window takes is what lies in it, for all the submissions of the
session and for those with the same context, exactly if no such submission is mixed with its
start. -/
theorem windows_iff (c d : Clock) (rows : Submissions) (sessionId : String) (start : Clock) :
    (c.instant < d.instant → (iso c < iso d ↔ ¬ (c.stamp = d.stamp ∧ c.micro = 0))) ∧
    (inWindowText rows sessionId start = inWindowInstant rows sessionId start ↔
      ∀ r ∈ rows, r.sessionId = sessionId → ¬ Mixed start r.submittedAt) ∧
    ∀ contextHash : String,
      (((inWindowText rows sessionId start).filter fun r => r.contextHash = contextHash) =
          ((inWindowInstant rows sessionId start).filter fun r => r.contextHash = contextHash) ↔
        ∀ r ∈ rows, r.sessionId = sessionId → r.contextHash = contextHash →
          ¬ Mixed start r.submittedAt) := by
  refine ⟨isoZ_order_iff, ?_, fun contextHash => ?_⟩
  · unfold inWindowText inWindowInstant
    rw [filter_eq_filter_iff]
    exact forall₂_congr fun r _ => inWindow_iff
  · unfold inWindowText inWindowInstant
    rw [List.filter_filter, List.filter_filter, filter_eq_filter_iff]
    refine forall₂_congr fun r _ => ?_
    by_cases hhash : r.contextHash = contextHash
    · simp only [hhash, decide_true, Bool.true_and, true_implies]
      exact inWindow_iff
    · simp [hhash]

/-! ### Noon -/

/-- Noon of a day. -/
def noon : Clock where
  stamp := ⟨⟨2026, 6, 1, Written.year_ge, Written.year_le, Written.june_ge, Written.june_le,
      Written.first_ge, Written.june_first_le⟩, 12, 0, 0,
    Written.hour_twelve, Written.sixtieth_zero, Written.sixtieth_zero⟩
  micro := 0
  micro_lt := Written.micro_zero

/-- Half a second past it. -/
def halfPastNoon : Clock := ⟨noon.stamp, 500000, Written.micro_half⟩

/-- A submission. -/
def sampleSubmission (id : String) (submittedAt : Clock) : SubmissionRow where
  id
  sessionId := "s"
  userId := 1
  enterpriseId := "acme"
  groupId := none
  contextHash := "0123456789abcdef"
  mode := "nightly"
  maxCandidates := 10
  sinceTs := none
  submittedAt

theorem noon_lt : noon.instant < halfPastNoon.instant := by
  rw [Clock.instant_eq, Clock.instant_eq]
  dsimp only [halfPastNoon, noon]
  omega

/-- Noon and half a second past it share a second. -/
theorem windows_sample : ¬ iso noon < iso halfPastNoon := fun h =>
  ((windows_iff noon halfPastNoon .empty "s" noon).1 noon_lt).mp h ⟨rfl, rfl⟩

/-- Half a second past noon sorts before noon, and is not in the window from noon on. -/
theorem noon_window :
    noon.instant < halfPastNoon.instant ∧ iso halfPastNoon < iso noon ∧
      countRecentReflectSubmissions (Table.single (sampleSubmission "sub_1" halfPastNoon)) "s"
        (iso noon) = 0 ∧
      noon.instant ≤ (sampleSubmission "sub_1" halfPastNoon).submittedAt.instant :=
  ⟨noon_lt, by decide +kernel, by decide +kernel, noon_lt.le⟩

end EighthLayer.Reflect
