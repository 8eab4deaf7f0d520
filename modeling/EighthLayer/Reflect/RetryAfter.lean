import EighthLayer.Reflect.Submit
import Mathlib.Data.Fintype.EquivFin

/-!
# EighthLayer.Reflect.RetryAfter

What a refused submission is told about when to try again.

The seconds until the oldest counted submission leaves the window are cut down to whole ones, and
the window takes its start. So a call that comes back after them is refused again, unless all that
is counted leaves within less than a second (`retry_after_iff`).
-/

namespace EighthLayer.Reflect

open Lib

/-! ## Calls by themselves -/

/-- What a refused call has found. -/
structure FoundFull (hours : Nat) (db : ReflectDb) (sessionId context : String) (seconds : Int) :
    Prop where
  since : ∃ c, db.clock.shift (-dedupWindow) = some c ∧
    findRecentReflectDedup db.submissions sessionId (contextHash context) (iso c) = none
  window : ∃ c, db.clock.shift (-rateWindow hours) = some c ∧
    1 ≤ countRecentReflectSubmissions db.submissions sessionId (iso c) ∧
    retryAfterSeconds hours (getOldestReflectInWindow db.submissions sessionId (iso c)) db.clock =
      some seconds

theorem queuedAnswer_ne {submissionId : String} {queuedAt : Clock} {dedupedTo : Option String}
    {seconds : Int} {hours : Nat} :
    queuedAnswer submissionId queuedAt dedupedTo ≠ .rateLimited seconds hours := by
  unfold queuedAnswer
  cases queuedAt.shift expectedComplete with
  | none => exact SubmitAnswer.noConfusion
  | some expectedCompleteBy => exact SubmitAnswer.noConfusion

section Alone

variable {hours : Nat} {username submissionId : String} {user : ReflectUser} {r : SubmitRequest}
  {now start since : Clock} {db : ReflectDb}

/-- The rate limit refuses where something is counted. -/
theorem rateLimit_full (hstart : now.shift (-rateWindow hours) = some start)
    (hcount : 1 ≤ countRecentReflectSubmissions db.submissions r.sessionId (iso start)) :
    (rateLimit hours submissionId user r now).alone db =
      (rateLimitedAnswer hours (getOldestReflectInWindow db.submissions r.sessionId (iso start)) now,
        db) := by
  unfold rateLimit
  rw [hstart, Option.elim_some, alone_countRecent, if_pos hcount, alone_getOldest, Prog.alone_done]

/-- The rate limit lets a submission in where nothing is counted. -/
theorem rateLimit_free {submissions : Submissions}
    (hstart : now.shift (-rateWindow hours) = some start)
    (hcount : ¬ 1 ≤ countRecentReflectSubmissions db.submissions r.sessionId (iso start))
    (hinsert : db.submissions.insert (submittedRow submissionId user r now) = some submissions) :
    (rateLimit hours submissionId user r now).alone db =
      (queuedAnswer submissionId now none, { db with submissions }) := by
  unfold rateLimit
  rw [hstart, Option.elim_some, alone_countRecent, if_neg hcount, alone_create_some hinsert,
    Prog.alone_done]

/-- What the rate limit refuses. -/
theorem window_of_rateLimited {seconds : Int}
    (h : ((rateLimit hours submissionId user r now).alone db).1 = .rateLimited seconds hours) :
    ∃ start, now.shift (-rateWindow hours) = some start ∧
      1 ≤ countRecentReflectSubmissions db.submissions r.sessionId (iso start) ∧
      retryAfterSeconds hours (getOldestReflectInWindow db.submissions r.sessionId (iso start)) now =
        some seconds := by
  cases hstart : now.shift (-rateWindow hours) with
  | none =>
      rw [rateLimit, hstart] at h
      cases h
  | some start =>
      by_cases hcount : 1 ≤ countRecentReflectSubmissions db.submissions r.sessionId (iso start)
      · rw [rateLimit_full hstart hcount, rateLimitedAnswer] at h
        refine ⟨start, rfl, hcount, ?_⟩
        cases hseconds : retryAfterSeconds hours
            (getOldestReflectInWindow db.submissions r.sessionId (iso start)) now with
        | none =>
            rw [hseconds] at h
            cases h
        | some seconds' =>
            rw [hseconds, Option.elim_some] at h
            rw [(SubmitAnswer.rateLimited.inj h).1]
      · cases hinsert : db.submissions.insert (submittedRow submissionId user r now) with
        | none =>
            rw [rateLimit, hstart, Option.elim_some, alone_countRecent, if_neg hcount,
              alone_create_none hinsert] at h
            cases h
        | some submissions =>
            rw [rateLimit_free hstart hcount hinsert] at h
            exact absurd h queuedAnswer_ne

/-- A call that gets to the rate limit, with nothing in between. -/
theorem submit_alone (hmode : r.mode = "nightly") (hlength : r.context.length ≤ contextMaxChars)
    (huser : db.users.find username = some user)
    (hsince : db.clock.shift (-dedupWindow) = some since)
    (hnew : findRecentReflectDedup db.submissions r.sessionId (contextHash r.context) (iso since) =
      none) :
    (submitReflection hours username submissionId r).alone db =
      (rateLimit hours submissionId user r db.clock).alone db := by
  unfold submitReflection dedup
  rw [if_neg (not_not.mpr hmode), if_neg (not_lt.mpr hlength), alone_getUser, huser]
  dsimp only
  rw [alone_now, hsince, Option.elim_some, alone_findDedup, hnew]

/-- A call that is refused was admitted up to the rate limit. -/
theorem foundFull_of_rateLimited {seconds : Int}
    (h : ((submitReflection hours username submissionId r).alone db).1 =
      .rateLimited seconds hours) :
    r.mode = "nightly" ∧ r.context.length ≤ contextMaxChars ∧
      (∃ user, db.users.find username = some user) ∧
      FoundFull hours db r.sessionId r.context seconds := by
  unfold submitReflection dedup at h
  by_cases hmode : r.mode = "nightly"
  · rw [if_neg (not_not.mpr hmode)] at h
    by_cases hlength : contextMaxChars < r.context.length
    · rw [if_pos hlength] at h
      cases h
    · rw [if_neg hlength, alone_getUser] at h
      cases huser : db.users.find username with
      | none =>
          rw [huser] at h
          cases h
      | some user =>
          rw [huser] at h
          dsimp only at h
          rw [alone_now] at h
          cases hsince : db.clock.shift (-dedupWindow) with
          | none =>
              rw [hsince] at h
              cases h
          | some since =>
              rw [hsince, Option.elim_some, alone_findDedup] at h
              cases hnew : findRecentReflectDedup db.submissions r.sessionId
                  (contextHash r.context) (iso since) with
              | some row =>
                  rw [hnew] at h
                  exact absurd h queuedAnswer_ne
              | none =>
                  rw [hnew] at h
                  exact ⟨hmode, not_lt.mp hlength, ⟨user, rfl⟩, ⟨since, hsince, hnew⟩,
                    window_of_rateLimited h⟩
  · rw [if_pos hmode] at h
    cases h

/-- What a call that is made again has to be like: of the same session, of which nothing has been
submitted since, not a duplicate, and with an id that is new. -/
structure Retry (db db' : ReflectDb) (sessionId username submissionId : String)
    (r : SubmitRequest) : Prop where
  session : r.sessionId = sessionId
  mode : r.mode = "nightly"
  length : r.context.length ≤ contextMaxChars
  user : ∃ user, db'.users.find username = some user
  same : ∀ row : SubmissionRow, row.sessionId = sessionId →
    (row ∈ db'.submissions ↔ row ∈ db.submissions)
  notDuplicate : ∀ since, db'.clock.shift (-dedupWindow) = some since →
    findRecentReflectDedup db'.submissions sessionId (contextHash r.context) (iso since) = none
  fresh : db'.submissions.find submissionId = none

/-- A submission is accepted where its row is in the table afterwards. -/
def Accepted (hours : Nat) (username submissionId : String) (r : SubmitRequest) (db : ReflectDb) :
    Prop :=
  (((submitReflection hours username submissionId r).alone db).2.submissions.find
    submissionId).isSome = true

/-- A new submission is accepted exactly if nothing of its session is counted. -/
theorem accepted_iff {db₀ : ReflectDb} {sessionId : String}
    (h : Retry db₀ db sessionId username submissionId r)
    (hsince : db.clock.shift (-dedupWindow) = some since)
    (hstart : db.clock.shift (-rateWindow hours) = some start) :
    Accepted hours username submissionId r db ↔
      ∀ row ∈ db₀.submissions, row.sessionId = sessionId →
        iso row.submittedAt < iso start := by
  obtain ⟨user, huser⟩ := h.user
  have hnew := h.notDuplicate since hsince
  obtain rfl := h.session
  have hcounted : countRecentReflectSubmissions db.submissions r.sessionId (iso start) = 0 ↔
      ∀ row ∈ db₀.submissions, row.sessionId = r.sessionId →
        iso row.submittedAt < iso start := by
    rw [countRecentReflectSubmissions_eq_zero]
    constructor
    · intro hall row hrow hsession
      have hout := hall row ((h.same row hsession).mpr hrow)
      rw [inWindow, hsession, decide_eq_true rfl, Bool.true_and, decide_eq_false_iff_not] at hout
      exact not_le.mp hout
    · intro hall row hrow
      by_cases hsession : row.sessionId = r.sessionId
      · have hlt := hall row ((h.same row hsession).mp hrow) hsession
        rw [inWindow, decide_eq_false (not_le.mpr hlt), Bool.and_false]
      · rw [inWindow, decide_eq_false hsession, Bool.false_and]
  rw [← hcounted, Accepted, submit_alone h.mode h.length huser hsince hnew]
  constructor
  · intro hstored
    by_contra hcount
    rw [rateLimit_full hstart (Nat.pos_of_ne_zero hcount), h.fresh] at hstored
    cases hstored
  · intro hcount
    have hinsert : ∃ submissions,
        db.submissions.insert (submittedRow submissionId user r db.clock) = some submissions := by
      cases hinsert : db.submissions.insert (submittedRow submissionId user r db.clock) with
      | none =>
          obtain ⟨row, hrow, hid⟩ := Table.insert_eq_none_iff.mp hinsert
          exact absurd hid (Table.find_eq_none_iff.mp h.fresh row hrow)
      | some submissions => exact ⟨submissions, rfl⟩
    obtain ⟨submissions, hinsert⟩ := hinsert
    rw [rateLimit_free hstart (by omega) hinsert]
    exact Option.isSome_iff_exists.mpr ⟨_, Table.find_insert_self hinsert⟩

end Alone

/-! ## Times that come later -/

/-- What sorts before a time sorts before all times from a second later on. -/
theorem lt_of_second_later {s a x : Clock} (h : iso s < iso a)
    (hx : a.instant + 1000000 ≤ x.instant) : iso s < iso x := by
  have ha := a.micro_lt
  have hxm := x.micro_lt
  rw [Clock.instant_eq, Clock.instant_eq] at hx
  rcases Clock.isoZ_lt_iff.mp h with hlt | ⟨heq, -⟩
  · exact Clock.isoZ_lt_iff.mpr (.inl (by omega))
  · have hseconds : s.stamp.seconds = a.stamp.seconds := by rw [heq]
    exact Clock.isoZ_lt_iff.mpr (.inl (by omega))

/-- A time sorts before all that come from an instant on, where it is earlier, and a second earlier
if it is a whole one. -/
theorem sorts_before_all {s : Clock} {y : Int} (hlt : s.instant < y)
    (hwhole : s.micro = 0 → s.instant + 1000000 ≤ y) {x : Clock} (hx : y ≤ x.instant) :
    iso s < iso x := by
  have hs := s.micro_lt
  have hxm := x.micro_lt
  rw [Clock.instant_eq] at hlt hwhole hx
  refine Clock.isoZ_lt_iff.mpr ?_
  by_cases hstamp : s.stamp = x.stamp
  · have hzero : s.micro ≠ 0 := by
      intro hzero
      have hle := hwhole hzero
      rw [hstamp] at hle
      omega
    rw [hstamp] at hlt
    exact .inr ⟨hstamp, hzero, .inr (by omega)⟩
  · have hne : s.stamp.seconds ≠ x.stamp.seconds := fun heq => hstamp (Stamp.seconds_inj heq)
    exact .inl (by omega)

/-- Only then. -/
theorem sorts_before_all_only {s x x' : Clock} (h : iso s < iso x) (h' : iso s < iso x')
    (hnext : x'.instant = x.instant + 1) :
    s.instant < x.instant ∧ (s.micro = 0 → s.instant + 1000000 ≤ x.instant) := by
  have hs := s.micro_lt
  have hx := x.micro_lt
  have hx' := x'.micro_lt
  rw [Clock.instant_eq, Clock.instant_eq] at hnext
  rw [Clock.instant_eq, Clock.instant_eq]
  rcases Clock.isoZ_lt_iff.mp h with hlt | ⟨heq, hne, hor⟩
  · exact ⟨by omega, fun hzero => by omega⟩
  · refine ⟨?_, fun hzero => absurd hzero hne⟩
    have hseconds : s.stamp.seconds = x.stamp.seconds := by rw [heq]
    rcases hor with hzero | hlt
    · -- the next microsecond has a fraction, and is in the same second
      rcases Clock.isoZ_lt_iff.mp h' with hlt | ⟨heq', -, hzero' | hlt⟩
      · omega
      · have hseconds' : s.stamp.seconds = x'.stamp.seconds := by rw [heq']
        omega
      · have hseconds' : s.stamp.seconds = x'.stamp.seconds := by rw [heq']
        omega
    · omega

/-! ## When to try again -/

/-- What remains of the rate window of a submission. -/
def remaining (hours : Nat) (row : SubmissionRow) (now : Clock) : Int :=
  row.submittedAt.instant + rateWindow hours - now.instant

/-- Whether a submission of the session is counted. -/
def Counted (hours : Nat) (db : ReflectDb) (sessionId : String) (row : SubmissionRow) : Prop :=
  row ∈ db.submissions ∧ row.sessionId = sessionId ∧
    ∀ start, db.clock.shift (-rateWindow hours) = some start → iso start ≤ iso row.submittedAt

/-- All that is counted leaves the window within less than a second, and what was submitted at a
whole second has left it. -/
def LeavesAtOnce (hours : Nat) (db : ReflectDb) (sessionId : String) : Prop :=
  ∀ row, Counted hours db sessionId row →
    remaining hours row db.clock < 1000000 ∧
      (row.submittedAt.micro = 0 → remaining hours row db.clock ≤ 0)

/-- Any new submission of the session is accepted after some seconds. -/
def InTime (hours : Nat) (db : ReflectDb) (sessionId : String) (seconds : Int) : Prop :=
  ∀ (db' : ReflectDb) (username submissionId : String) (r : SubmitRequest),
    Retry db db' sessionId username submissionId r →
      db.clock.instant + seconds * 1000000 ≤ db'.clock.instant →
        Accepted hours username submissionId r db'

/-- Every new submission of the session is refused until a second before that. -/
def NotTooEarly (hours : Nat) (db : ReflectDb) (sessionId : String) (seconds : Int) : Prop :=
  ∀ (db' : ReflectDb) (username submissionId : String) (r : SubmitRequest),
    Retry db db' sessionId username submissionId r → db.clock.instant ≤ db'.clock.instant →
      db'.clock.instant < db.clock.instant + (seconds - 1) * 1000000 →
        ∃ seconds', ((submitReflection hours username submissionId r).alone db').1 =
          .rateLimited seconds' hours

section Retry

variable {hours : Nat} {db : ReflectDb} {sessionId context : String} {seconds : Int}

/-- The oldest of what is counted. -/
theorem exists_oldest {start : Clock}
    (hcount : 1 ≤ countRecentReflectSubmissions db.submissions sessionId (iso start)) :
    ∃ row ∈ db.submissions, inWindow sessionId (iso start) row = true ∧
      getOldestReflectInWindow db.submissions sessionId (iso start) = some row.submittedAt := by
  unfold countRecentReflectSubmissions at hcount
  unfold getOldestReflectInWindow
  cases hhead : (sortDesc (fun r : SubmissionRow => OrderDual.toDual (iso r.submittedAt))
      (db.submissions.rows.filter (inWindow sessionId (iso start)))).head? with
  | none =>
      have hnil := List.head?_eq_none_iff.mp hhead
      have hlength := (sortDesc_perm (fun r : SubmissionRow =>
        OrderDual.toDual (iso r.submittedAt))
        (db.submissions.rows.filter (inWindow sessionId (iso start)))).length_eq
      rw [hnil, List.length_nil] at hlength
      omega
  | some row =>
      obtain ⟨hrow, hin⟩ := List.mem_filter.mp (mem_sortDesc.mp (List.mem_of_head? hhead))
      exact ⟨row, hrow, hin, rfl⟩

theorem counted_iff {start : Clock} (hstart : db.clock.shift (-rateWindow hours) = some start)
    {row : SubmissionRow} :
    Counted hours db sessionId row ↔
      row ∈ db.submissions ∧ inWindow sessionId (iso start) row = true := by
  unfold Counted inWindow
  rw [Bool.and_eq_true, decide_eq_true_iff, decide_eq_true_iff, hstart]
  constructor
  · intro ⟨hrow, hsession, hle⟩
    exact ⟨hrow, hsession, hle start rfl⟩
  · intro ⟨hrow, hsession, hle⟩
    exact ⟨hrow, hsession, fun start' heq => Option.some.inj heq ▸ hle⟩

/-- What the seconds of a refusal are the seconds of. -/
theorem FoundFull.seconds_eq (h : FoundFull hours db sessionId context seconds) :
    ∃ row, Counted hours db sessionId row ∧
      seconds = max 1 (secondsOf (remaining hours row db.clock)) := by
  obtain ⟨start, hstart, hcount, hseconds⟩ := h.window
  obtain ⟨row, hrow, hin, holdest⟩ := exists_oldest hcount
  refine ⟨row, (counted_iff hstart).mpr ⟨hrow, hin⟩, ?_⟩
  rw [holdest, retryAfterSeconds] at hseconds
  obtain ⟨agesOutAt, hages, rfl⟩ := Option.map_eq_some_iff.mp hseconds
  rw [remaining, Clock.instant_shift hages]

theorem secondsOf_le_zero {delta : Int} (h : delta < 1000000) : secondsOf delta ≤ 0 := by
  unfold secondsOf
  split
  · omega
  · rw [wholeSeconds_eq (by omega)]
    omega

theorem secondsOf_eq {delta : Int} (hnonneg : 0 ≤ delta) (h : delta < 2 ^ 34 * 1000000) :
    secondsOf delta = delta / 1000000 := by
  unfold secondsOf
  rw [if_neg (not_lt.mpr hnonneg), wholeSeconds_eq (by omega)]
  omega

/-- The windows of a call that is made again start at times, too. -/
theorem FoundFull.shifts (h : FoundFull hours db sessionId context seconds) {db' : ReflectDb}
    (hlater : db.clock.instant ≤ db'.clock.instant) :
    ∃ since start, db'.clock.shift (-dedupWindow) = some since ∧
      db'.clock.shift (-rateWindow hours) = some start := by
  have hpos : 0 ≤ rateWindow hours := by
    unfold rateWindow
    omega
  have hdedup : 0 ≤ dedupWindow := by
    unfold dedupWindow
    decide
  obtain ⟨since, hsince, -⟩ := h.since
  obtain ⟨start, hstart, -⟩ := h.window
  have hinstant := Clock.instant_shift hsince
  have hinstant' := Clock.instant_shift hstart
  obtain ⟨since', hsince'⟩ := Clock.exists_of_between (a := since) (b := db'.clock)
    (t := db'.clock.instant + -dedupWindow) (by omega) (by omega)
  obtain ⟨start', hstart'⟩ := Clock.exists_of_between (a := start) (b := db'.clock)
    (t := db'.clock.instant + -rateWindow hours) (by omega) (by omega)
  exact ⟨since', start', Clock.shift_eq_some_iff.mpr hsince', Clock.shift_eq_some_iff.mpr hstart'⟩

theorem FoundFull.one_le (h : FoundFull hours db sessionId context seconds) : 1 ≤ seconds := by
  obtain ⟨row, -, rfl⟩ := h.seconds_eq
  exact le_max_left _ _

/-- Where all leaves at once, a call is accepted after the second that it is told. -/
theorem inTime_of_leavesAtOnce (h : FoundFull hours db sessionId context seconds)
    (hleaves : LeavesAtOnce hours db sessionId) :
    InTime hours db sessionId seconds ∧ NotTooEarly hours db sessionId seconds := by
  have hone := h.one_le
  obtain ⟨oldest, holdest, hseconds⟩ := h.seconds_eq
  have hzero := secondsOf_le_zero (hleaves oldest holdest).1
  obtain rfl : seconds = 1 := by
    rw [hseconds]
    exact max_eq_left (by omega)
  refine ⟨fun db' username submissionId r hretry hlater => ?_,
    fun db' _ _ _ _ hlater hearlier => absurd hearlier (by omega)⟩
  obtain ⟨since', start', hsince', hstart'⟩ := @FoundFull.shifts _ _ _ _ _ h db' (by omega)
  obtain ⟨start, hstart, -⟩ := h.window
  have hinstant := Clock.instant_shift hstart
  have hinstant' := Clock.instant_shift hstart'
  refine (accepted_iff hretry hsince' hstart').mpr fun row hrow hsession => ?_
  by_cases hcounted : Counted hours db sessionId row
  · obtain ⟨hremains, hwhole⟩ := hleaves row hcounted
    unfold remaining at hremains hwhole
    exact sorts_before_all (y := start.instant + 1000000) (by omega)
      (fun hmicro => by have := hwhole hmicro; omega) (by omega)
  · have hbefore : iso row.submittedAt < iso start := by
      refine not_le.mp fun hle => hcounted ((counted_iff hstart).mpr ⟨hrow, ?_⟩)
      rw [inWindow, decide_eq_true hsession, decide_eq_true hle]
      rfl
    exact lt_of_second_later hbefore (by omega)

/-- An id that is new. -/
theorem exists_fresh (t : Submissions) : ∃ id, t.find id = none := by
  have hinfinite : Infinite String :=
    Infinite.of_injective String.ofList fun s t hst => by
      have hlist := congrArg String.toList hst
      rwa [String.toList_ofList, String.toList_ofList] at hlist
  obtain ⟨id, hid⟩ := Infinite.exists_notMem_finset (t.rows.map SubmissionRow.id).toFinset
  refine ⟨id, Table.find_eq_none_iff.mpr fun row hrow heq => hid ?_⟩
  rw [List.mem_toFinset]
  exact List.mem_map.mpr ⟨row, hrow, heq⟩

/-- A refused call may be made again, with a new id, from a second later on. -/
theorem FoundFull.retry {username submissionId : String} {r : SubmitRequest}
    (h : FoundFull hours db r.sessionId r.context seconds) (hmode : r.mode = "nightly")
    (hlength : r.context.length ≤ contextMaxChars)
    (huser : ∃ user, db.users.find username = some user)
    (hfresh : db.submissions.find submissionId = none) {later : Clock}
    (hlater : db.clock.instant + 1000000 ≤ later.instant) :
    Retry db { db with clock := later } r.sessionId username submissionId r where
  session := rfl
  mode := hmode
  length := hlength
  user := huser
  same := fun _ _ => Iff.rfl
  notDuplicate := by
    intro since' hsince'
    obtain ⟨since, hsince, hnew⟩ := h.since
    have hinstant := Clock.instant_shift hsince
    have hinstant' := Clock.instant_shift hsince'
    dsimp only at hinstant'
    refine findRecentReflectDedup_eq_none.mpr fun row hrow hin => ?_
    refine findRecentReflectDedup_eq_none.mp hnew row hrow ?_
    rw [inWindow, Bool.and_eq_true, decide_eq_true_iff, decide_eq_true_iff] at hin ⊢
    refine ⟨hin.1, not_lt.mp fun hlt => ?_⟩
    exact absurd hin.2 (not_le.mpr (lt_of_second_later hlt (by omega)))
  fresh := hfresh

/-- Where a call is always accepted after what it is told, all has left at once. -/
theorem leavesAtOnce_of_inTime {username : String} {r : SubmitRequest}
    (h : FoundFull hours db r.sessionId r.context seconds) (hmode : r.mode = "nightly")
    (hlength : r.context.length ≤ contextMaxChars)
    (huser : ∃ user, db.users.find username = some user)
    (hroom : ∃ c : Clock, c.instant = db.clock.instant + (seconds + 1) * 1000000)
    (hbound : ∀ row, Counted hours db r.sessionId row →
      remaining hours row db.clock < 2 ^ 34 * 1000000)
    (hintime : InTime hours db r.sessionId seconds) : LeavesAtOnce hours db r.sessionId := by
  have hone := h.one_le
  obtain ⟨room, hroom⟩ := hroom
  obtain ⟨submissionId, hfresh⟩ := exists_fresh db.submissions
  obtain ⟨start, hstart, -⟩ := h.window
  have hinstant := Clock.instant_shift hstart
  -- whatever is counted sorts before the start of every window from the told time on
  have hbefore : ∀ x : Int, db.clock.instant + seconds * 1000000 ≤ x → x ≤ room.instant →
      ∃ start' : Clock, start'.instant = x + -rateWindow hours ∧
        ∀ row, Counted hours db r.sessionId row → iso row.submittedAt < iso start' := by
    intro x hx hle
    obtain ⟨later, hlater⟩ := Clock.exists_of_between (a := db.clock) (b := room) (t := x)
      (by omega) hle
    have hretry : Retry db { db with clock := later } r.sessionId username submissionId r :=
      h.retry hmode hlength huser hfresh (by omega)
    obtain ⟨since', start', hsince', hstart'⟩ :=
      @FoundFull.shifts _ _ _ _ _ h { db with clock := later } (by dsimp only; omega)
    have hinstant' := Clock.instant_shift hstart'
    dsimp only at hinstant'
    have haccepted := hintime _ username submissionId r hretry (by dsimp only; omega)
    refine ⟨start', by omega, fun row hcounted => ?_⟩
    exact (accepted_iff hretry hsince' hstart').mp haccepted row hcounted.1 hcounted.2.1
  obtain ⟨first, hfirst, hbeforeFirst⟩ :=
    hbefore (db.clock.instant + seconds * 1000000) le_rfl (by omega)
  obtain ⟨second, hsecond, hbeforeSecond⟩ :=
    hbefore (db.clock.instant + seconds * 1000000 + 1) (by omega) (by omega)
  have hleaves : ∀ row, Counted hours db r.sessionId row →
      row.submittedAt.instant < first.instant ∧
        (row.submittedAt.micro = 0 → row.submittedAt.instant + 1000000 ≤ first.instant) :=
    fun row hcounted => sorts_before_all_only (hbeforeFirst row hcounted)
      (hbeforeSecond row hcounted) (by omega)
  obtain ⟨oldest, holdest, hseconds⟩ := h.seconds_eq
  have hwhole := (hleaves oldest holdest).1
  -- the seconds are cut down, so that more than one would not be enough
  obtain rfl : seconds = 1 := by
    by_contra hne
    have hremains : remaining hours oldest db.clock < seconds * 1000000 := by
      unfold remaining
      omega
    have hmore : 1 < secondsOf (remaining hours oldest db.clock) :=
      not_le.mp fun hle => hne (hseconds.trans (max_eq_left hle))
    have hnonneg : 0 ≤ remaining hours oldest db.clock := by
      refine not_lt.mp fun hneg => ?_
      have hzero := secondsOf_le_zero (hneg.trans (by decide))
      exact absurd (hmore.trans_le hzero) (by decide)
    have heq := (hseconds.trans (max_eq_right hmore.le)).trans
      (secondsOf_eq hnonneg (hbound oldest holdest))
    exact absurd hremains (not_lt.mpr (heq ▸ Int.ediv_mul_le _ (by decide)))
  intro row hcounted
  have hrow := hleaves row hcounted
  unfold remaining
  exact ⟨by omega, fun hmicro => by have := hrow.2 hmicro; omega⟩

/-- **Retry-After.** A refused call that is made again after the seconds that it is told is accepted,
and one that is made more than a second earlier refused, if all that is counted leaves the window
within less than a second, and a whole second has left it already. Where the window has less than
2³⁴ seconds, and a second later there is still a time to tell, exactly then. -/
theorem retry_after_iff {username submissionId : String} {r : SubmitRequest}
    (hrefused : ((submitReflection hours username submissionId r).alone db).1 =
      .rateLimited seconds hours) :
    (LeavesAtOnce hours db r.sessionId →
      InTime hours db r.sessionId seconds ∧ NotTooEarly hours db r.sessionId seconds) ∧
    ((∀ row, Counted hours db r.sessionId row →
        remaining hours row db.clock < 2 ^ 34 * 1000000) →
      (∃ c : Clock, c.instant = db.clock.instant + (seconds + 1) * 1000000) →
      (InTime hours db r.sessionId seconds ∧ NotTooEarly hours db r.sessionId seconds ↔
        LeavesAtOnce hours db r.sessionId)) := by
  obtain ⟨hmode, hlength, huser, hfound⟩ := foundFull_of_rateLimited hrefused
  refine ⟨inTime_of_leavesAtOnce hfound, fun hbound hroom => ?_⟩
  exact ⟨fun h => leavesAtOnce_of_inTime hfound hmode hlength huser hroom hbound h.1,
    inTime_of_leavesAtOnce hfound⟩

end Retry

/-! ### At one o'clock -/

/-- A whole hour, or half past it. -/
def clockAt (hour minute : Nat) (hhour : hour < 24) (hminute : minute < 60) : Clock where
  stamp := ⟨noon.stamp.date, hour, minute, 0, hhour, hminute, Written.sixtieth_zero⟩
  micro := 0
  micro_lt := Written.micro_zero

theorem instant_clockAt {hour minute : Nat} (hhour : hour < 24) (hminute : minute < 60) :
    (clockAt hour minute hhour hminute).instant =
      (noon.stamp.date.ordinal * 86400 + hour * 3600 + minute * 60 : Nat) * 1000000 := by
  unfold Clock.instant micros clockAt
  dsimp only
  omega

/-- What is submitted. -/
def sampleRequest (context : String) (h : context ≠ "") : SubmitRequest where
  sessionId := "s"
  context
  sinceTs := none
  mode := "nightly"
  maxCandidates := 10
  context_ne := h
  maxCandidates_ge := by decide

def sampleUser : ReflectUser := ⟨"alice", 1, "acme", none⟩

/-- Some submissions, at a time. -/
def sampleDb (submissions : Submissions) (clock : Clock) : ReflectDb where
  users := .single sampleUser
  submissions
  clock

/-- No submission, and it is noon. -/
def twelveOClock : ReflectDb :=
  sampleDb .empty (clockAt 12 0 Written.hour_twelve Written.sixtieth_zero)

/-- One submission at noon, and it is one o'clock. -/
def oneOClock : ReflectDb :=
  sampleDb (.single (submittedRow "sub_1" sampleUser (sampleRequest "a" (by decide))
    (clockAt 12 0 Written.hour_twelve Written.sixtieth_zero)))
    (clockAt 13 0 Written.hour_thirteen Written.sixtieth_zero)

/-- The submission at noon is accepted. -/
theorem noon_accepted :
    ((submitReflection 4 "alice" "sub_1" (sampleRequest "a" (by decide))).alone
      twelveOClock).2.submissions = oneOClock.submissions := by
  have hsince : twelveOClock.clock.shift (-dedupWindow) =
      some (clockAt 11 30 (by decide) (by decide)) := by
    refine Clock.shift_eq_some_iff.mpr ?_
    rw [twelveOClock, sampleDb, instant_clockAt, instant_clockAt, dedupWindow]
    omega
  have hstart : twelveOClock.clock.shift (-rateWindow 4) =
      some (clockAt 8 0 (by decide) (by decide)) := by
    refine Clock.shift_eq_some_iff.mpr ?_
    rw [twelveOClock, sampleDb, instant_clockAt, instant_clockAt, rateWindow]
    omega
  have huser : twelveOClock.users.find "alice" = some sampleUser := Table.find_single sampleUser
  rw [submit_alone rfl (by decide) huser hsince
    (findRecentReflectDedup_eq_none.mpr fun row hrow => absurd hrow (Table.not_mem_empty row)),
    rateLimit_free hstart (by decide) (Table.insert_empty _)]
  rfl

theorem oneOClock_start : oneOClock.clock.shift (-rateWindow 4) =
    some (clockAt 9 0 (by decide) (by decide)) := by
  refine Clock.shift_eq_some_iff.mpr ?_
  rw [oneOClock, sampleDb, instant_clockAt, instant_clockAt, rateWindow]
  omega

/-- At one o'clock another one is refused for three hours. -/
theorem one_refused :
    ((submitReflection 4 "alice" "sub_2" (sampleRequest "b" (by decide))).alone oneOClock).1 =
      .rateLimited 10800 4 := by
  have hsince : oneOClock.clock.shift (-dedupWindow) =
      some (clockAt 12 30 (by decide) (by decide)) := by
    refine Clock.shift_eq_some_iff.mpr ?_
    rw [oneOClock, sampleDb, instant_clockAt, instant_clockAt, dedupWindow]
    omega
  have huser : oneOClock.users.find "alice" = some sampleUser := Table.find_single sampleUser
  have hnew : findRecentReflectDedup oneOClock.submissions "s" (contextHash "b")
      (iso (clockAt 12 30 (by decide) (by decide))) = none := by
    refine findRecentReflectDedup_eq_none.mpr fun row hrow hin => ?_
    obtain rfl := List.mem_singleton.mp hrow
    exact absurd hin (by decide +kernel)
  have hcount : 1 ≤ countRecentReflectSubmissions oneOClock.submissions "s"
      (iso (clockAt 9 0 (by decide) (by decide))) := by decide +kernel
  have hages : (clockAt 12 0 (by decide) (by decide)).shift (rateWindow 4) =
      some (clockAt 16 0 (by decide) (by decide)) := by
    refine Clock.shift_eq_some_iff.mpr ?_
    rw [instant_clockAt, instant_clockAt, rateWindow]
    omega
  obtain ⟨row, hrow, -, holdest⟩ := exists_oldest hcount
  obtain rfl := List.mem_singleton.mp hrow
  have hdiff : (clockAt 16 0 (by decide) (by decide)).instant - oneOClock.clock.instant =
      10800 * 1000000 := by
    rw [oneOClock, sampleDb, instant_clockAt, instant_clockAt]
    omega
  have hseconds : retryAfterSeconds 4 (getOldestReflectInWindow oneOClock.submissions
      (sampleRequest "b" (by decide)).sessionId (iso (clockAt 9 0 (by decide) (by decide))))
      oneOClock.clock = some 10800 := by
    refine (congrArg (fun o => retryAfterSeconds 4 o oneOClock.clock) holdest).trans ?_
    rw [retryAfterSeconds]
    dsimp only [submittedRow]
    rw [hages, Option.map_some, hdiff, secondsOf_eq (by decide) (by decide)]
    rfl
  rw [submit_alone rfl (by decide) huser hsince hnew, rateLimit_full oneOClock_start hcount,
    rateLimitedAnswer, hseconds, Option.elim_some]

theorem oneOClock_room :
    ∃ c : Clock, c.instant = oneOClock.clock.instant + (10800 + 1) * 1000000 := by
  refine ⟨⟨⟨noon.stamp.date, 16, 0, 1, by decide, by decide, by decide⟩, 0, by decide⟩, ?_⟩
  rw [oneOClock, sampleDb, instant_clockAt]
  unfold Clock.instant micros
  dsimp only
  omega

theorem oneOClock_remaining {row : SubmissionRow} (h : Counted 4 oneOClock "s" row) :
    remaining 4 row oneOClock.clock = 10800 * 1000000 := by
  obtain rfl := List.mem_singleton.mp h.1
  rw [remaining, oneOClock, sampleDb, submittedRow, instant_clockAt, instant_clockAt, rateWindow]
  omega

/-- What a call at one o'clock is told is right if all leaves the window at once. -/
theorem retry_after_sample :
    InTime 4 oneOClock "s" 10800 ∧ NotTooEarly 4 oneOClock "s" 10800 ↔
      LeavesAtOnce 4 oneOClock "s" :=
  (retry_after_iff one_refused).2 (fun row h => by rw [oneOClock_remaining h]; decide)
    oneOClock_room

/-- It is not: at four o'clock, three hours later, a call is refused again. -/
theorem four_refused :
    ((submitReflection 4 "alice" "sub_1" (sampleRequest "a" (by decide))).alone
      twelveOClock).2.submissions = oneOClock.submissions ∧
      ((submitReflection 4 "alice" "sub_2" (sampleRequest "b" (by decide))).alone oneOClock).1 =
        .rateLimited 10800 4 ∧ ¬ InTime 4 oneOClock "s" 10800 := by
  refine ⟨noon_accepted, one_refused, fun hintime => ?_⟩
  obtain ⟨hmode, hlength, huser, hfound⟩ := foundFull_of_rateLimited one_refused
  have hleaves := leavesAtOnce_of_inTime hfound hmode hlength huser oneOClock_room
    (fun row h => by rw [oneOClock_remaining h]; decide) hintime
  obtain ⟨row, hcounted, -⟩ := hfound.seconds_eq
  have hlt := (hleaves row hcounted).1
  rw [oneOClock_remaining hcounted] at hlt
  exact absurd hlt (by decide)

end EighthLayer.Reflect
