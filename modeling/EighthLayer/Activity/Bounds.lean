import EighthLayer.Activity.Pages

/-!
# EighthLayer.Activity.Bounds

The bounds `since` and `until` of a request for the activity log.

A bound is checked to be a time and is then compared as the text it is. So rows are chosen by their
times only where the text of each bound comes, among the texts of times, where its instant comes
among the times (`StandsFor`). A whole second that ends in `Z` does not: rows with a fraction of
that second sort before it.
-/

namespace EighthLayer.Activity

open Lib Knowledge

/-- Whether an instant is in the interval between two bounds, the second of which is not in it. -/
def InInterval (since until_ : Option String) (t : Int) : Prop :=
  (∀ v e, since = some v → boundInstant v = some e → e ≤ t) ∧
    ∀ v e, until_ = some v → boundInstant v = some e → t < e

/-- The bounds of a request and their instants. -/
def ActivityRequest.HasBound (request : ActivityRequest) (v : String) (e : Int) : Prop :=
  (request.since = some v ∨ request.until_ = some v) ∧ boundInstant v = some e

/-- The conditions other than the bounds. -/
def ActivityFilter.unbounded (f : ActivityFilter) : ActivityFilter :=
  { f with since := none, until_ := none }

/-- The bounds are one of the conditions. -/
theorem ActivityFilter.matches_iff {f : ActivityFilter} {r : ActivityRow} :
    f.matches r = true ↔ f.unbounded.matches r = true ∧ inBounds f.since f.until_ r.ts = true := by
  have hnone : inBounds none none r.ts = true := rfl
  unfold ActivityFilter.matches ActivityFilter.unbounded
  dsimp only
  rw [hnone]
  generalize inBounds f.since f.until_ r.ts = bounds
  simp only [Bool.and_eq_true, and_true]
  exact ⟨fun ⟨⟨hrest, hb⟩, he⟩ => ⟨⟨hrest, he⟩, hb⟩, fun ⟨⟨hrest, he⟩, hb⟩ => ⟨⟨hrest, hb⟩, he⟩⟩

theorem inBounds_iff {since until_ : Option String} {ts : String} :
    inBounds since until_ ts = true ↔
      (∀ v, since = some v → v ≤ ts) ∧ ∀ v, until_ = some v → ts < v := by
  cases since <;> cases until_ <;> simp [inBounds]

/-- A bound that is accepted is left as it is, and has an instant. -/
theorem normaliseIso_eq_ok {fieldName : String} {bound bound' : Option String}
    (h : normaliseIso fieldName bound = .ok bound') :
    bound' = bound ∧ ∀ v, bound = some v → ∃ e, boundInstant v = some e := by
  cases bound with
  | none => exact ⟨(Except.ok.inj h).symm, fun _ hv => nomatch hv⟩
  | some value =>
      unfold normaliseIso at h
      dsimp only at h
      split at h
      · cases h
      · rename_i e he
        refine ⟨(Except.ok.inj h).symm, fun v hv => ⟨e, ?_⟩⟩
        rw [← Option.some.inj hv, he]

section Route

variable [Casing] {env : Environ} {user : ActivityUser} {username : String}
  {request : ActivityRequest} {f : ActivityFilter}

/-- The bounds of an accepted request are those that are compared with, and have instants. -/
theorem bounds_of_effectiveFilter (h : effectiveFilter env user username request = .ok f) :
    f.since = request.since ∧ f.until_ = request.until_ ∧
      (∀ v, request.since = some v → ∃ e, boundInstant v = some e) ∧
      ∀ v, request.until_ = some v → ∃ e, boundInstant v = some e := by
  unfold effectiveFilter at h
  cases hsince : normaliseIso "since" request.since with
  | error e =>
      simp only [hsince, bind, Except.bind] at h
      grind
  | ok since =>
      cases huntil : normaliseIso "until" request.until_ with
      | error e =>
          simp only [hsince, huntil, bind, Except.bind] at h
          grind
      | ok until_ =>
          obtain ⟨rfl, hsinceRead⟩ := normaliseIso_eq_ok hsince
          obtain ⟨rfl, huntilRead⟩ := normaliseIso_eq_ok huntil
          simp only [hsince, huntil, bind, Except.bind] at h
          refine ⟨?_, ?_, hsinceRead, huntilRead⟩
          · grind
          · grind

/-- **Bounds.** What is read are the rows in the interval, and bounds and rows are compared as
their instants are, exactly if each bound stands for its instant. -/
theorem activity_bounds_iff (hf : effectiveFilter env user username request = .ok f) :
    ((∀ (log : ActivityLog) (n : Nat) (items : List ActivityRow),
        walkPages env user username request (fun _ => log) n 0 none = .ok (items, true) →
          ∀ r ∈ log, r ∈ items ↔ f.unbounded.matches r = true ∧
            InInterval request.since request.until_ r.loggedAt.instant) ∧
      ∀ v e, request.HasBound v e → ∀ r : ActivityRow,
        (v ≤ r.ts ↔ e ≤ r.loggedAt.instant) ∧ (r.ts < v ↔ r.loggedAt.instant < e)) ↔
      ∀ v e, request.HasBound v e → StandsFor v e := by
  obtain ⟨hsince, huntil, hsinceRead, huntilRead⟩ := bounds_of_effectiveFilter hf
  constructor
  · intro ⟨_, hagree⟩ v e hbound
    refine standsFor_iff.mpr fun c => ?_
    exact (hagree v e hbound (activityRow env none none .query "" none none "" c)).1
  · intro hstands
    have hagree : ∀ v e, request.HasBound v e → ∀ r : ActivityRow,
        (v ≤ r.ts ↔ e ≤ r.loggedAt.instant) ∧ (r.ts < v ↔ r.loggedAt.instant < e) := by
      intro v e hbound r
      have hle := standsFor_iff.mp (hstands v e hbound) r.loggedAt
      refine ⟨hle, ?_⟩
      rw [← not_le, ← not_le]
      exact not_congr hle
    refine ⟨fun log n items hwalk r hr => ?_, hagree⟩
    rw [mem_walkPages_iff hf hwalk, ActivityFilter.matches_iff, inBounds_iff, hsince, huntil]
    have hinterval : ((∀ v, request.since = some v → v ≤ r.ts) ∧
        ∀ v, request.until_ = some v → r.ts < v) ↔
        InInterval request.since request.until_ r.loggedAt.instant := by
      constructor
      · intro ⟨hfrom, hto⟩
        exact ⟨fun v e hv he => (hagree v e ⟨.inl hv, he⟩ r).1.mp (hfrom v hv),
          fun v e hv he => (hagree v e ⟨.inr hv, he⟩ r).2.mp (hto v hv)⟩
      · intro ⟨hfrom, hto⟩
        refine ⟨fun v hv => ?_, fun v hv => ?_⟩
        · obtain ⟨e, he⟩ := hsinceRead v hv
          exact (hagree v e ⟨.inl hv, he⟩ r).1.mpr (hfrom v e hv he)
        · obtain ⟨e, he⟩ := huntilRead v hv
          exact (hagree v e ⟨.inr hv, he⟩ r).2.mpr (hto v e hv he)
    rw [hinterval]
    exact ⟨fun ⟨_, hrest⟩ => hrest, fun hrest => ⟨hr, hrest⟩⟩

end Route

section Sample

local instance boundsCasing : Casing := asciiCasing

/-- Half a second past noon. -/
def halfPastNoon : Clock where
  stamp := noon.stamp
  micro := 500000
  micro_lt := by decide

/-- A request for what there is from noon on, in the log's own form. -/
def sinceNoon (since : String) : ActivityRequest := { sampleRequest with since := some since }

/-- A row that was logged half a second past noon. -/
def halfPastRow : ActivityRow := { sampleRow with loggedAt := halfPastNoon }

theorem boundInstant_noon : boundInstant "2026-06-01T12:00:00Z" = some noon.instant := by
  decide +kernel

theorem boundInstant_noon_utc : boundInstant "2026-06-01T12:00:00+00:00" = some noon.instant := by
  decide +kernel

/-- With the offset written out, the bound stands for noon, and compares as it does. -/
theorem activity_bounds_sample :
    "2026-06-01T12:00:00+00:00" ≤ halfPastRow.ts ↔
      noon.instant ≤ halfPastRow.loggedAt.instant := by
  have hf : effectiveFilter ⟨fun _ => none⟩ ⟨⟨some "acme", some "engineering"⟩, some "user"⟩ "alice"
      (sinceNoon "2026-06-01T12:00:00+00:00") =
        .ok ⟨some "acme", none, some "alice", some "2026-06-01T12:00:00+00:00", none, none⟩ := rfl
  have htail : "+00:00".toList ≤ noon.stamp.firstFraction.zTail := by decide
  have hchars : String.ofList (noon.stamp.secondChars ++ "+00:00".toList) =
      "2026-06-01T12:00:00+00:00" := by decide +kernel
  have hstands : StandsFor "2026-06-01T12:00:00+00:00" noon.instant := by
    rw [← hchars]
    exact Stamp.standsFor htail
  refine (((activity_bounds_iff hf).mpr fun v e hbound => ?_).2 _ _
    ⟨.inl rfl, boundInstant_noon_utc⟩ halfPastRow).1
  obtain ⟨hv | hv, he⟩ := hbound
  · obtain rfl := Option.some.inj hv
    rw [boundInstant_noon_utc] at he
    rwa [← Option.some.inj he]
  · cases hv

/-- With `Z`, a row that was logged after noon is not read. -/
theorem noon_not_since :
    boundInstant "2026-06-01T12:00:00Z" = some noon.instant ∧
      noon.instant ≤ halfPastRow.loggedAt.instant ∧
      walkPages ⟨fun _ => none⟩ ⟨⟨some "acme", some "engineering"⟩, some "user"⟩ "alice"
        (sinceNoon "2026-06-01T12:00:00Z") (fun _ => Table.single halfPastRow) 1 0 none =
        .ok ([], true) := by
  have hf : effectiveFilter ⟨fun _ => none⟩ ⟨⟨some "acme", some "engineering"⟩, some "user"⟩ "alice"
      (sinceNoon "2026-06-01T12:00:00Z") =
        .ok ⟨some "acme", none, some "alice", some "2026-06-01T12:00:00Z", none, none⟩ := rfl
  have hstart : decodeCursor none = .ok none := rfl
  have hinstant : noon.instant ≤ halfPastNoon.instant := by
    rw [Clock.instant_eq, Clock.instant_eq]
    dsimp only [halfPastNoon, noon]
    omega
  refine ⟨boundInstant_noon, hinstant, ?_⟩
  have hout : ([halfPastRow].filter (ActivityFilter.matches
      ⟨some "acme", none, some "alice", some "2026-06-01T12:00:00Z", none, none⟩)) = [] := by
    decide +kernel
  rw [walkPages_eq hf _ hstart]
  simp only [Table.single, hout]
  simp [keysetWalk, keysetPage, nextCursor, sortDesc]

end Sample

end EighthLayer.Activity
