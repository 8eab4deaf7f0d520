import EighthLayer.Lib.Replay
import EighthLayer.Reflect.RetryAfter

/-!
# EighthLayer.Reflect.Limits

Submissions side by side: what the rate limit and the look for the same context achieve when any
number of calls interleave statement by statement.

What a call does by itself is its `Course`: a look, a count and an insert, each of which comes about
only after what the one before has found. The log of a run is the history of the table, so that what
a look or a count has found is what had been stored before it. Two submissions of a session are apart
by the rate window, unless the later of the two was counted for before the other was stored
(`submissions_spaced`). A call that looks after the same context has been stored stores nothing and
answers with a submission of that context (`same_submission`). And an answer is honest about what is
stored, and by whom (`answers_honest`).
-/

namespace EighthLayer.Reflect

open Lib

/-! ## Calls -/

/-- A call of the route with the id that it draws, or time that passes. -/
inductive SubmitCall where
  | submit (username submissionId : String) (r : SubmitRequest)
  | elapse (times : List Clock)

/-- The statements of a call. -/
def SubmitCall.prog (hours : Nat) : SubmitCall → ReflectProg SubmitAnswer
  | submit username submissionId r => submitReflection hours username submissionId r
  | elapse times => Reflect.elapse times

/-- The calls before any of them has begun, on an empty table. -/
def submissionCalls (users : Table ReflectUser.username) (clock : Clock) (hours : Nat)
    (calls : List SubmitCall) : Config ReflectDb ReflectStmt.Answer SubmitAnswer :=
  .start ⟨users, .empty, clock⟩ (calls.map (SubmitCall.prog hours))

/-! ## What statements store -/

abbrev ReflectEvent : Type := Event ReflectStmt.Answer

/-- The row that a statement has stored, by its answer. -/
def ReflectStmt.stores : (q : ReflectStmt) → q.Answer → Option SubmissionRow
  | create row, stored => if stored = true then some row else none
  | getUser _, _ | now, _ | findDedup _ _ _, _ | countRecent _ _, _ | getOldest _ _, _
  | tick _, _ => none

/-- The rows that have been stored, the latest first. -/
def stored (log : List ReflectEvent) : List SubmissionRow :=
  log.filterMap fun e => e.stmt.stores e.answer

@[simp] theorem stored_append (log log' : List ReflectEvent) :
    stored (log ++ log') = stored log ++ stored log' := List.filterMap_append

theorem mem_stored {log : List ReflectEvent} {row : SubmissionRow} :
    row ∈ stored log ↔ ∃ i, (⟨i, .create row, true⟩ : ReflectEvent) ∈ log := by
  rw [stored, List.mem_filterMap]
  constructor
  · rintro ⟨⟨i, q, a⟩, he, hrow⟩
    cases q with
    | create row' =>
        cases a with
        | true =>
            cases hrow
            exact ⟨i, he⟩
        | false => cases hrow
    | _ => cases hrow
  · rintro ⟨i, he⟩
    exact ⟨_, he, rfl⟩

/-- A tick changes nothing but the clock. -/
theorem exec_tick (until_ : Clock) : ∃ later : Clock → Clock, ∀ s : ReflectDb,
    (ReflectStmt.tick until_).exec s = ((), { s with clock := later s.clock }) :=
  ⟨fun clock => if clock.instant < until_.instant then until_ else clock, fun _ => rfl⟩

/-- A statement adds to the table what it stores. -/
theorem rows_exec (q : ReflectStmt) (s : ReflectDb) :
    (q.exec s).2.submissions.rows = s.submissions.rows ++ (q.stores (q.exec s).1).toList := by
  cases q with
  | create row =>
      cases h : s.submissions.insert row with
      | none =>
          simp only [ReflectStmt.exec, h]
          exact (List.append_nil _).symm
      | some submissions =>
          simp only [ReflectStmt.exec, h]
          exact (Table.insert_eq_some_iff.mp h).2
  | tick until_ =>
      obtain ⟨later, h⟩ := exec_tick until_
      rw [h]
      exact (List.append_nil _).symm
  | _ => exact (List.append_nil _).symm

/-- The table holds what its history says. -/
theorem rows_replay {s : ReflectDb} (hempty : s.submissions.rows = []) {log : List ReflectEvent}
    (h : Faithful s log) : (replay s log).submissions.rows = (stored log).reverse := by
  induction log with
  | nil => exact hempty
  | cons e older ih =>
      obtain ⟨i, q, a⟩ := e
      obtain ⟨hanswer, hfaithful⟩ := h
      have hrows := rows_exec q (replay s older)
      rw [show (q.exec (replay s older)).1 = a from hanswer.symm, ih hfaithful] at hrows
      rw [replay_cons]
      refine hrows.trans ?_
      cases hstores : q.stores a <;> simp [stored, hstores]

theorem mem_replay {s : ReflectDb} (hempty : s.submissions.rows = []) {log : List ReflectEvent}
    (h : Faithful s log) {row : SubmissionRow} :
    row ∈ (replay s log).submissions ↔ row ∈ stored log := by
  rw [Table.mem_def, rows_replay hempty h, List.mem_reverse]

/-! ## The course of a call -/

section Course

variable (hours i : Nat) (username submissionId : String) (r : SubmitRequest)

/-- What a submission has done so far, the latest first, and what it has answered if it has ended.
-/
inductive Course : List ReflectEvent → Option SubmitAnswer → Prop
  | begun : Course [] none
  | refused {a : SubmitAnswer} (h : a = .unsupportedMode r.mode ∨ a = .contextTooLong) :
      Course [] (some a)
  | user (user : Option ReflectUser) : Course [⟨i, .getUser username, user⟩] none
  | noUser : Course [⟨i, .getUser username, none⟩] (some .userNotFound)
  /-- The user is known, and the time is. -/
  | read (user : ReflectUser) (now : Clock) {answer : Option SubmitAnswer}
      (h : answer = none ∨ answer = some .overflowError) :
      Course [⟨i, .now, now⟩, ⟨i, .getUser username, some user⟩] answer
  | found (user : ReflectUser) (now since : Clock) (h : now.shift (-dedupWindow) = some since)
      (row : SubmissionRow) :
      Course [⟨i, .findDedup r.sessionId (contextHash r.context) (iso since), some row⟩,
          ⟨i, .now, now⟩, ⟨i, .getUser username, some user⟩]
        (some (queuedAnswer row.id row.submittedAt (some row.id)))
  | notFound (user : ReflectUser) (now since : Clock) (h : now.shift (-dedupWindow) = some since)
      {answer : Option SubmitAnswer} (h : answer = none ∨ answer = some .overflowError) :
      Course [⟨i, .findDedup r.sessionId (contextHash r.context) (iso since), none⟩,
        ⟨i, .now, now⟩, ⟨i, .getUser username, some user⟩] answer
  | counted (user : ReflectUser) (now since start : Clock)
      (h : now.shift (-dedupWindow) = some since)
      (hstart : now.shift (-rateWindow hours) = some start) (n : Nat) :
      Course [⟨i, .countRecent r.sessionId (iso start), n⟩,
        ⟨i, .findDedup r.sessionId (contextHash r.context) (iso since), none⟩,
        ⟨i, .now, now⟩, ⟨i, .getUser username, some user⟩] none
  | limited (user : ReflectUser) (now since start : Clock)
      (h : now.shift (-dedupWindow) = some since)
      (hstart : now.shift (-rateWindow hours) = some start) {n : Nat} (hn : 1 ≤ n)
      (oldest : Option Clock) :
      Course [⟨i, .getOldest r.sessionId (iso start), oldest⟩,
        ⟨i, .countRecent r.sessionId (iso start), n⟩,
        ⟨i, .findDedup r.sessionId (contextHash r.context) (iso since), none⟩,
        ⟨i, .now, now⟩, ⟨i, .getUser username, some user⟩]
        (some (rateLimitedAnswer hours oldest now))
  | inserted (user : ReflectUser) (now since start : Clock)
      (h : now.shift (-dedupWindow) = some since)
      (hstart : now.shift (-rateWindow hours) = some start) (isNew : Bool) :
      Course [⟨i, .create (submittedRow submissionId user r now), isNew⟩,
        ⟨i, .countRecent r.sessionId (iso start), (0 : Nat)⟩,
        ⟨i, .findDedup r.sessionId (contextHash r.context) (iso since), none⟩,
        ⟨i, .now, now⟩, ⟨i, .getUser username, some user⟩]
        (some (if isNew = true then queuedAnswer submissionId now none else .integrityError))

/-- What it has done and what is left of it are a course. -/
abbrev OnCourse (past : List ReflectEvent) (p : ReflectProg SubmitAnswer) : Prop :=
  Course hours i username submissionId r past p.result

theorem course_rateLimit (user : ReflectUser) (now since : Clock)
    (hsince : now.shift (-dedupWindow) = some since) :
    (rateLimit hours submissionId user r now).Always (OnCourse hours i username submissionId r) i
      [⟨i, .findDedup r.sessionId (contextHash r.context) (iso since), none⟩,
        ⟨i, .now, now⟩, ⟨i, .getUser username, some user⟩] := by
  unfold rateLimit
  cases hstart : now.shift (-rateWindow hours) with
  | none => exact .done (.notFound user now since hsince (.inr rfl))
  | some start =>
      refine .call (.notFound user now since hsince (.inl rfl)) fun (n : Nat) => ?_
      by_cases hn : 1 ≤ n
      · rw [if_pos hn]
        exact .call (.counted user now since start hsince hstart n) fun oldest =>
          .done (.limited user now since start hsince hstart hn oldest)
      · obtain rfl : n = 0 := by omega
        rw [if_neg hn]
        refine .call (.counted user now since start hsince hstart 0) fun isNew => ?_
        have h := @Course.inserted hours i username submissionId r user now since start hsince hstart
          isNew
        cases isNew with
        | false => exact .done h
        | true => exact .done h

/-- Whatever its statements are answered, a submission keeps to its course. -/
theorem course_submitReflection :
    (submitReflection hours username submissionId r).Always
      (OnCourse hours i username submissionId r) i [] := by
  unfold submitReflection
  by_cases hmode : r.mode ≠ "nightly"
  · rw [if_pos hmode]
    exact .done (.refused (.inl rfl))
  rw [if_neg hmode]
  by_cases hlong : contextMaxChars < r.context.length
  · rw [if_pos hlong]
    exact .done (.refused (.inr rfl))
  rw [if_neg hlong]
  refine .call .begun fun (user : Option ReflectUser) => ?_
  cases user with
  | none => exact .done .noUser
  | some user =>
      refine .call (.user (some user)) fun (now : Clock) => ?_
      unfold dedup
      cases hsince : now.shift (-dedupWindow) with
      | none => exact .done (.read user now (.inr rfl))
      | some since =>
          refine .call (.read user now (.inl rfl)) fun (existing : Option SubmissionRow) => ?_
          cases existing with
          | some row => exact .done (.found user now since hsince row)
          | none => exact course_rateLimit hours i username submissionId r user now since hsince

end Course

/-! ## Calls in a run -/

section Runs

variable {users : Table ReflectUser.username} {clock : Clock} {hours : Nat}
  {calls : List SubmitCall} {schedule : List Nat}

/-- Nothing but ticks. -/
theorem elapse_quiet (i : Nat) (times : List Clock) (past : List ReflectEvent)
    (h : ∀ e ∈ past, ∃ until_, e.stmt = .tick until_) :
    (Reflect.elapse times).Always (fun past _ => ∀ e ∈ past, ∃ until_, e.stmt = .tick until_) i past
    := by
  induction times generalizing past with
  | nil => exact .done h
  | cons c rest ih =>
      refine .call h fun a => ih _ ?_
      intro e he
      rcases List.mem_cons.mp he with rfl | he
      · exact ⟨c, rfl⟩
      · exact h e he

/-- In every run each submission keeps to its course. -/
theorem course_run {i : Nat} {username submissionId : String} {r : SubmitRequest}
    (hcall : calls[i]? = some (.submit username submissionId r)) :
    ∃ p, ((submissionCalls users clock hours calls).run schedule).tasks[i]? = some p ∧
      Course hours i username submissionId r
        (((submissionCalls users clock hours calls).run schedule).world.own i) p.result := by
  have hp : (submissionCalls users clock hours calls).tasks[i]? =
      some (submitReflection hours username submissionId r) := by
    rw [submissionCalls, Config.start, List.getElem?_map, hcall]
    rfl
  obtain ⟨p, hp', halways⟩ := Config.run_always hp
    (course_submitReflection hours i username submissionId r) schedule
  exact ⟨p, hp', halways.now⟩

/-- What is not a tick was done by a submission. -/
theorem submission_of_mem {e : ReflectEvent}
    (he : e ∈ ((submissionCalls users clock hours calls).run schedule).world.log)
    (hstmt : ∀ until_, e.stmt ≠ .tick until_) :
    ∃ username submissionId r, calls[e.task]? = some (.submit username submissionId r) := by
  have hlt : e.task < (calls.map (SubmitCall.prog hours)).length :=
    Config.task_lt_of_mem_log (c := submissionCalls users clock hours calls) nofun schedule e he
  rw [List.length_map] at hlt
  have hcall : calls[e.task]? = some calls[e.task] := List.getElem?_eq_getElem hlt
  cases h : calls[e.task] with
  | submit username submissionId r =>
      rw [h] at hcall
      exact ⟨username, submissionId, r, hcall⟩
  | elapse times =>
      rw [h] at hcall
      have hp : (submissionCalls users clock hours calls).tasks[e.task]? =
          some (Reflect.elapse times) := by
        rw [submissionCalls, Config.start, List.getElem?_map, hcall]
        rfl
      obtain ⟨p, -, halways⟩ := Config.run_always hp (elapse_quiet e.task times [] nofun) schedule
      obtain ⟨until_, htick⟩ := halways.now e (World.mem_own.mpr ⟨he, rfl⟩)
      exact absurd htick (hstmt until_)

end Runs

theorem mem_of_split {α : Type} {l newer older : List α} {e : α} (h : l = newer ++ e :: older) :
    e ∈ l := by
  rw [h]
  exact List.mem_append_right _ List.mem_cons_self

/-- An insert is the last that a submission does, right after a count that has found nothing. -/
theorem Course.insert {hours i : Nat} {username submissionId : String} {r : SubmitRequest}
    {past newer older : List ReflectEvent} {answer : Option SubmitAnswer} {j : Nat}
    {row : SubmissionRow} {isNew : Bool}
    (h : Course hours i username submissionId r past answer)
    (hpast : past = newer ++ ⟨j, .create row, isNew⟩ :: older) :
    newer = [] ∧ ∃ user now start rest, row = submittedRow submissionId user r now ∧
      now.shift (-rateWindow hours) = some start ∧
      older = ⟨i, .countRecent r.sessionId (iso start), (0 : Nat)⟩ :: rest ∧
      answer = some (if isNew = true then queuedAnswer submissionId now none else .integrityError)
    := by
  cases h with
  | inserted user now since start hsince hstart isNew' =>
      cases newer with
      | nil =>
          injection hpast with hhead htail
          injection hhead with htask hstmt hisNew
          injection hstmt with hrow
          subst hrow hisNew
          exact ⟨rfl, user, now, start, _, rfl, hstart, htail.symm, rfl⟩
      | cons e newer =>
          injection hpast with hhead htail
          have hmem := mem_of_split htail
          simp at hmem
  | _ =>
      have hmem := mem_of_split hpast
      simp at hmem

section Inserts

variable {users : Table ReflectUser.username} {clock : Clock} {hours : Nat}
  {calls : List SubmitCall} {schedule : List Nat}

/-- An insert in a run, and the count of its own call that it comes after. -/
theorem insert_in_run {newer older : List ReflectEvent} {i : Nat} {row : SubmissionRow} {isNew : Bool}
    (hlog : ((submissionCalls users clock hours calls).run schedule).world.log =
      newer ++ ⟨i, .create row, isNew⟩ :: older) :
    ∃ between start earlier, row.submittedAt.shift (-rateWindow hours) = some start ∧
      older = between ++ ⟨i, .countRecent row.sessionId (iso start), (0 : Nat)⟩ :: earlier := by
  obtain ⟨username, submissionId, r, hcall⟩ := submission_of_mem (mem_of_split hlog) nofun
  obtain ⟨p, -, hcourse⟩ := @course_run users clock hours calls schedule i _ _ _ hcall
  have hown : ((submissionCalls users clock hours calls).run schedule).world.own i =
      newer.filter (fun e => e.task = i) ++
        ⟨i, .create row, isNew⟩ :: older.filter (fun e => e.task = i) := by
    rw [World.own, hlog, List.filter_append, List.filter_cons_of_pos (by simp)]
  obtain ⟨-, user, now, start, rest, rfl, hstart, holder, -⟩ := hcourse.insert hown
  obtain ⟨between, earlier, hsplit, -, -, -⟩ := split_own holder
  exact ⟨between, start, earlier, hstart, hsplit⟩

end Inserts

/-! ## Spaced submissions -/

/-- Of two times the whole seconds of one are so many hours after those of the other. -/
def Apart (hours : Nat) (c d : Clock) : Prop :=
  c.stamp.seconds + hours * 3600 ≤ d.stamp.seconds ∨ d.stamp.seconds + hours * 3600 ≤ c.stamp.seconds

/-- The call that has stored one row had counted before the other was stored. -/
def CountedBefore (log : List ReflectEvent) (counted other : SubmissionRow) : Prop :=
  ∃ newer i between start older, log = newer ++ ⟨i, .create counted, true⟩ ::
      (between ++ ⟨i, .countRecent counted.sessionId start, (0 : Nat)⟩ :: older) ∧
    other ∈ stored between

/-- Any two submissions of a session are apart, unless one was counted for before the other was
stored. -/
def Spaced (hours : Nat) (w : World ReflectDb ReflectStmt.Answer) : Prop :=
  ∀ r ∈ w.db.submissions, ∀ r' ∈ w.db.submissions, r ≠ r' → r.sessionId = r'.sessionId →
    Apart hours r.submittedAt r'.submittedAt ∨ CountedBefore w.log r r' ∨ CountedBefore w.log r' r

/-- A text that is not after another is not of a later second. -/
theorem seconds_le_of_iso_le {c d : Clock} (h : iso c ≤ iso d) :
    c.stamp.seconds ≤ d.stamp.seconds := by
  refine not_lt.mp fun hlt => not_lt.mpr h ?_
  exact Clock.isoZ_lt_iff.mpr (.inl hlt)

/-- Hours earlier, and as far into a second. -/
theorem seconds_of_shift {hours : Nat} {now start : Clock}
    (h : now.shift (-rateWindow hours) = some start) :
    start.stamp.seconds + hours * 3600 = now.stamp.seconds := by
  have hinstant := Clock.instant_shift h
  rw [Clock.instant_eq, Clock.instant_eq, rateWindow] at hinstant
  have hnow := now.micro_lt
  have hstart := start.micro_lt
  omega

/-- What a count has not found is before the window, and so apart from the row that it lets in. -/
theorem before_of_not_inWindow {hours : Nat} {row r : SubmissionRow} {start : Clock}
    (hstart : row.submittedAt.shift (-rateWindow hours) = some start)
    (hsession : r.sessionId = row.sessionId)
    (hout : inWindow row.sessionId (iso start) r = false) :
    r.submittedAt.stamp.seconds + hours * 3600 ≤ row.submittedAt.stamp.seconds := by
  simp only [inWindow, hsession, decide_true, Bool.true_and, decide_eq_false_iff_not, not_le]
    at hout
  have hle := seconds_le_of_iso_le hout.le
  have hshift := seconds_of_shift hstart
  omega

section Runs

variable (users : Table ReflectUser.username) (clock : Clock) (hours : Nat)
  (calls : List SubmitCall) (schedule : List Nat)

theorem calls_recorded :
    ((submissionCalls users clock hours calls).run schedule).world.Recorded
      ⟨users, .empty, clock⟩ := Config.run_recorded _ _ schedule

variable {users clock hours calls schedule}

/-- Of two rows the one that is stored later is apart from the other, unless it was counted for
before. -/
theorem apart_of_later {newer older : List ReflectEvent} {i : Nat} {row r : SubmissionRow}
    (hlog : ((submissionCalls users clock hours calls).run schedule).world.log =
      newer ++ ⟨i, .create row, true⟩ :: older)
    (hr : r ∈ stored older) (hsession : r.sessionId = row.sessionId) :
    r.submittedAt.stamp.seconds + hours * 3600 ≤ row.submittedAt.stamp.seconds ∨
      CountedBefore ((submissionCalls users clock hours calls).run schedule).world.log row r := by
  obtain ⟨between, start, earlier, hstart, rfl⟩ := insert_in_run hlog
  rw [stored_append, List.mem_append] at hr
  rcases hr with hbetween | hearlier
  · exact .inr ⟨newer, i, between, iso start, earlier, hlog, hbetween⟩
  · left
    have hfaithful := (calls_recorded users clock hours calls schedule).1
    rw [hlog] at hfaithful
    have hcount := hfaithful.of_append.2.answer
    -- the count has found nothing of what had been stored before it
    have hnone := countRecentReflectSubmissions_eq_zero.mp hcount.symm
    have hold : r ∈ stored earlier := by
      obtain ⟨j, hj⟩ := mem_stored.mp hearlier
      refine mem_stored.mpr ⟨j, (List.mem_cons.mp hj).resolve_left fun heq => ?_⟩
      simp at heq
    have hfaithful' := hfaithful.of_append.2.of_append.2
    exact before_of_not_inWindow hstart hsession
      (hnone r ((mem_replay rfl hfaithful').mpr hold))

end Runs

/-- **Submissions are spaced.** In every run any two submissions of one session are apart by the
hours of the limit, unless the later of the two was counted for before the other was stored. -/
theorem submissions_spaced (users : Table ReflectUser.username) (clock : Clock) (hours : Nat)
    (calls : List SubmitCall) (schedule : List Nat) :
    Spaced hours ((submissionCalls users clock hours calls).run schedule).world := by
  intro r hr r' hr' hne hsession
  have hrecorded := calls_recorded users clock hours calls schedule
  rw [hrecorded.2] at hr hr'
  obtain ⟨i, hi⟩ := mem_stored.mp ((mem_replay rfl hrecorded.1).mp hr)
  have hstored' := (mem_replay rfl hrecorded.1).mp hr'
  obtain ⟨newer, older, hlog⟩ := List.append_of_mem hi
  rw [hlog, stored_append, List.mem_append] at hstored'
  have hhead : stored (⟨i, .create r, true⟩ :: older) = r :: stored older := rfl
  rcases hstored' with hlater | hthen
  · -- the other row came later
    obtain ⟨j, hj⟩ := mem_stored.mp hlater
    obtain ⟨newer', between, hnewer⟩ := List.append_of_mem hj
    have hlog' : ((submissionCalls users clock hours calls).run schedule).world.log =
        newer' ++ ⟨j, .create r', true⟩ :: (between ++ ⟨i, .create r, true⟩ :: older) := by
      rw [hlog, hnewer, List.append_assoc, List.cons_append]
    have hmem : r ∈ stored (between ++ ⟨i, .create r, true⟩ :: older) := by
      rw [stored_append, hhead]
      exact List.mem_append_right _ List.mem_cons_self
    rcases apart_of_later hlog' hmem hsession with hapart | hbefore
    · exact .inl (.inl hapart)
    · exact .inr (.inr hbefore)
  · -- the other row was there
    rw [hhead] at hthen
    have hmem : r' ∈ stored older :=
      (List.mem_cons.mp hthen).resolve_left fun heq => hne heq.symm
    rcases apart_of_later hlog hmem hsession.symm with hapart | hbefore
    · exact .inl (.inr hapart)
    · exact .inr (.inl hbefore)

/-! ## The same submission again -/

/-- A submission of the session and the context of a request, from the start of a window on. -/
def SameSubmission (r : SubmitRequest) (windowStartIso : String) (row : SubmissionRow) : Prop :=
  row.sessionId = r.sessionId ∧ row.contextHash = contextHash r.context ∧
    windowStartIso ≤ iso row.submittedAt

/-- A look that comes after the same has been submitted ends its call: nothing is stored by it, and
its answer names a submission that is the same, and no older one. The window goes back from the time
that the call has read. -/
def AnswersAgain (calls : List SubmitCall) (c : Config ReflectDb ReflectStmt.Answer SubmitAnswer) :
    Prop :=
  ∀ i username submissionId r, calls[i]? = some (.submit username submissionId r) →
    ∀ newer older start (existing : Option SubmissionRow), c.world.log =
        newer ++ ⟨i, .findDedup r.sessionId (contextHash r.context) start, existing⟩ :: older →
      ∀ row ∈ stored older, SameSubmission r start row →
        (∃ now since, (⟨i, .now, now⟩ : ReflectEvent) ∈ older ∧
          now.shift (-dedupWindow) = some since ∧ start = iso since) ∧
        (∀ row' isNew, (⟨i, .create row', isNew⟩ : ReflectEvent) ∉ c.world.log) ∧
        ∃ row' ∈ stored older, SameSubmission r start row' ∧
          iso row.submittedAt ≤ iso row'.submittedAt ∧
          c.Answered i (queuedAnswer row'.id row'.submittedAt (some row'.id))

/-- A look that has found something is the last that a submission does. -/
theorem Course.found_last {hours i : Nat} {username submissionId : String} {r : SubmitRequest}
    {past newer older : List ReflectEvent} {answer : Option SubmitAnswer} {j : Nat}
    {sessionId hash start : String} {row : SubmissionRow}
    (h : Course hours i username submissionId r past answer)
    (hpast : past = newer ++ ⟨j, .findDedup sessionId hash start, some row⟩ :: older) :
    newer = [] ∧ answer = some (queuedAnswer row.id row.submittedAt (some row.id)) ∧
      ∃ now since, (⟨i, .now, now⟩ : ReflectEvent) ∈ older ∧
        now.shift (-dedupWindow) = some since ∧ start = iso since := by
  cases h with
  | found user now since hsince row' =>
      cases newer with
      | nil =>
          injection hpast with hhead htail
          injection hhead with htask hstmt hrow
          injection hstmt with hsession hhash hstart
          subst hsession hhash hstart
          cases hrow
          exact ⟨rfl, rfl, now, since, by simp [← htail], hsince, rfl⟩
      | cons e newer =>
          injection hpast with hhead htail
          have hmem := mem_of_split htail
          simp at hmem
  | _ =>
      have hmem := mem_of_split hpast
      simp at hmem

/-- The look finds the latest of the same submissions. -/
theorem findDedup_latest {rows : Submissions} {r : SubmitRequest} {start : String}
    {row : SubmissionRow} (hrow : row ∈ rows) (hsame : SameSubmission r start row) :
    ∃ row' ∈ rows, findRecentReflectDedup rows r.sessionId (contextHash r.context) start = some row' ∧
      SameSubmission r start row' ∧ iso row.submittedAt ≤ iso row'.submittedAt := by
  obtain ⟨hsession, hhash, hstart⟩ := hsame
  cases hfound : findRecentReflectDedup rows r.sessionId (contextHash r.context) start with
  | none =>
      refine absurd hhash (findRecentReflectDedup_eq_none.mp hfound row hrow ?_)
      simp [inWindow, hsession, hstart]
  | some row' =>
      obtain ⟨hmem, hwindow, hhash'⟩ := mem_of_findRecentReflectDedup hfound
      simp only [inWindow, Bool.and_eq_true, decide_eq_true_eq] at hwindow
      refine ⟨row', hmem, rfl, ⟨hwindow.1, hhash', hwindow.2⟩, ?_⟩
      -- it is the first of those in order
      have hsorted := sortDesc_pairwise (fun r => iso r.submittedAt) (rows.rows.filter fun r' =>
        inWindow r.sessionId start r' && r'.contextHash = contextHash r.context)
      have hin : row ∈ sortDesc (fun r => iso r.submittedAt) (rows.rows.filter fun r' =>
          inWindow r.sessionId start r' && r'.contextHash = contextHash r.context) := by
        refine mem_sortDesc.mpr (List.mem_filter.mpr ⟨hrow, ?_⟩)
        simp [inWindow, hsession, hhash, hstart]
      obtain ⟨rest, hrest⟩ := List.head?_eq_some_iff.mp hfound
      rw [hrest] at hsorted hin
      rcases List.mem_cons.mp hin with rfl | hlater
      · exact le_rfl
      · exact (List.pairwise_cons.mp hsorted).1 row hlater

/-- **A submission is answered again.** In every run a call that looks after the same session and
context have been stored, within the window, stores nothing and is answered with that submission or
a later one that is the same. -/
theorem same_submission (users : Table ReflectUser.username) (clock : Clock) (hours : Nat)
    (calls : List SubmitCall) (schedule : List Nat) :
    AnswersAgain calls ((submissionCalls users clock hours calls).run schedule) := by
  intro i username submissionId r hcall newer older start existing hlog row hrow hsame
  have hrecorded := calls_recorded users clock hours calls schedule
  have hfaithful := hrecorded.1
  rw [hlog] at hfaithful
  have hold : Faithful _ older := hfaithful.of_append.2
  obtain ⟨row', hrow', hfound, hsame', hle⟩ :=
    findDedup_latest ((mem_replay rfl hold).mpr hrow) hsame
  obtain rfl : existing = some row' := hfaithful.answer.trans hfound
  obtain ⟨p, hp, hcourse⟩ := @course_run users clock hours calls schedule i _ _ _ hcall
  have hown : ((submissionCalls users clock hours calls).run schedule).world.own i =
      newer.filter (fun e => e.task = i) ++
        ⟨i, .findDedup r.sessionId (contextHash r.context) start, some row'⟩ ::
          older.filter (fun e => e.task = i) := by
    rw [World.own, hlog, List.filter_append, List.filter_cons_of_pos (by simp)]
  obtain ⟨hlast, hanswer, now, since, hnow, hsince, hstart⟩ := hcourse.found_last hown
  refine ⟨⟨now, since, (List.mem_filter.mp hnow).1, hsince, hstart⟩, ?_, row',
    (mem_replay rfl hold).mp hrow', hsame', hle, ?_⟩
  · intro row'' isNew hmem
    have hmine := World.mem_own.mpr ⟨hmem, rfl⟩
    obtain ⟨newer', older', hsplit⟩ := List.append_of_mem hmine
    -- an insert would be the last as well
    obtain ⟨hnil, -⟩ := hcourse.insert hsplit
    rw [hnil, hown, hlast] at hsplit
    simp at hsplit
  · rw [Config.answered_iff_result, hp]
    exact hanswer

/-! ## What an answer says -/

/-- What program `i` has stored. -/
def storedBy (w : World ReflectDb ReflectStmt.Answer) (i : Nat) : List SubmissionRow :=
  stored (w.own i)

/-- What the answer to a submission says of the table and of the call itself. -/
def Honest (hours i : Nat) (submissionId : String) (r : SubmitRequest)
    (w : World ReflectDb ReflectStmt.Answer) : SubmitAnswer → Prop
  | .queued id queuedAt expectedCompleteBy none =>
      id = submissionId ∧ queuedAt.shift expectedComplete = some expectedCompleteBy ∧
        ∃ user, storedBy w i = [submittedRow id user r queuedAt] ∧
          submittedRow id user r queuedAt ∈ w.db.submissions
  | .queued id queuedAt expectedCompleteBy (some dedupedTo) =>
      dedupedTo = id ∧ queuedAt.shift expectedComplete = some expectedCompleteBy ∧
        storedBy w i = [] ∧ ∃ row ∈ w.db.submissions, row.id = id ∧ row.submittedAt = queuedAt ∧
          row.sessionId = r.sessionId ∧ row.contextHash = contextHash r.context
  | .rateLimited _ limitHours =>
      limitHours = hours ∧ storedBy w i = [] ∧ ∃ row ∈ w.db.submissions, row.sessionId = r.sessionId
  | .overflowError => ∀ row ∈ storedBy w i, row.submittedAt.shift expectedComplete = none
  | .unsupportedMode _ | .contextTooLong | .userNotFound | .integrityError | .elapsed =>
      storedBy w i = []

/-- The answers of all submissions are honest. -/
def AnswersHonest (hours : Nat) (calls : List SubmitCall)
    (c : Config ReflectDb ReflectStmt.Answer SubmitAnswer) : Prop :=
  ∀ i username submissionId r a, calls[i]? = some (.submit username submissionId r) →
    c.Answered i a → Honest hours i submissionId r c.world a

/-- A call that has stored nothing may say that a time is out of range. -/
theorem honest_overflow {hours i : Nat} {submissionId : String} {r : SubmitRequest}
    {w : World ReflectDb ReflectStmt.Answer} (hnone : storedBy w i = []) :
    Honest hours i submissionId r w .overflowError := by
  intro row hrow
  rw [hnone] at hrow
  cases hrow

section Runs

variable {users : Table ReflectUser.username} {clock : Clock} {hours : Nat}
  {calls : List SubmitCall} {schedule : List Nat}

/-- What was stored at some time is there at the end. -/
theorem mem_submissions {newer older : List ReflectEvent} {row : SubmissionRow}
    (hlog : ((submissionCalls users clock hours calls).run schedule).world.log = newer ++ older)
    (hrow : row ∈ stored older) :
    row ∈ ((submissionCalls users clock hours calls).run schedule).world.db.submissions := by
  have hrecorded := calls_recorded users clock hours calls schedule
  rw [hrecorded.2]
  refine (mem_replay rfl hrecorded.1).mpr ?_
  rw [hlog, stored_append]
  exact List.mem_append_right _ hrow

/-- What a look has found is there. -/
theorem mem_of_found {i : Nat} {sessionId hash start : String} {row : SubmissionRow}
    (hmem : (⟨i, .findDedup sessionId hash start, some row⟩ : ReflectEvent) ∈
      ((submissionCalls users clock hours calls).run schedule).world.log) :
    row ∈ ((submissionCalls users clock hours calls).run schedule).world.db.submissions ∧
      row.sessionId = sessionId ∧ row.contextHash = hash := by
  obtain ⟨newer, older, hlog, hfaithful, hanswer⟩ :=
    (calls_recorded users clock hours calls schedule).answer hmem
  obtain ⟨hrow, hwindow, hhash⟩ := mem_of_findRecentReflectDedup hanswer.symm
  simp only [inWindow, Bool.and_eq_true, decide_eq_true_eq] at hwindow
  refine ⟨@mem_submissions users clock hours calls schedule newer (_ :: older) row hlog ?_,
    hwindow.1, hhash⟩
  exact (mem_replay rfl hfaithful).mp hrow

/-- What a count has counted is there. -/
theorem exists_of_counted {i : Nat} {sessionId start : String} {n : Nat} (hn : 1 ≤ n)
    (hmem : (⟨i, .countRecent sessionId start, n⟩ : ReflectEvent) ∈
      ((submissionCalls users clock hours calls).run schedule).world.log) :
    ∃ row ∈ ((submissionCalls users clock hours calls).run schedule).world.db.submissions,
      row.sessionId = sessionId := by
  obtain ⟨newer, older, hlog, hfaithful, hanswer⟩ :=
    (calls_recorded users clock hours calls schedule).answer hmem
  have hne : n ≠ 0 := by omega
  rw [hanswer] at hne
  have hsome := mt countRecentReflectSubmissions_eq_zero.mpr hne
  push Not at hsome
  obtain ⟨row, hrow, hwindow⟩ := hsome
  simp only [inWindow, ne_eq, Bool.not_eq_false, Bool.and_eq_true, decide_eq_true_eq] at hwindow
  refine ⟨row, @mem_submissions users clock hours calls schedule newer (_ :: older) row hlog ?_,
    hwindow.1⟩
  exact (mem_replay rfl hfaithful).mp hrow

/-- What a submission has stored is there. -/
theorem mem_of_inserted {i : Nat} {row : SubmissionRow}
    (hmem : (⟨i, .create row, true⟩ : ReflectEvent) ∈
      ((submissionCalls users clock hours calls).run schedule).world.log) :
    row ∈ ((submissionCalls users clock hours calls).run schedule).world.db.submissions :=
  @mem_submissions users clock hours calls schedule [] _ row rfl (mem_stored.mpr ⟨i, hmem⟩)

end Runs

/-- **Answers are honest.** In every run a submission that is accepted as new has stored its row and
no other, and one that is answered with an earlier submission has stored nothing, and that
submission is there with its session, its context and its time. One that is refused has stored
nothing, and if by the limit, its session has a submission. Only where a time is out of range may a
row be stored and the call fail. -/
theorem answers_honest (users : Table ReflectUser.username) (clock : Clock) (hours : Nat)
    (calls : List SubmitCall) (schedule : List Nat) :
    AnswersHonest hours calls ((submissionCalls users clock hours calls).run schedule) := by
  intro i username submissionId r a hcall hanswered
  obtain ⟨p, hp, hcourse⟩ := @course_run users clock hours calls schedule i _ _ _ hcall
  rw [Config.answered_iff_result, hp] at hanswered
  have hresult : p.result = some a := hanswered
  rw [hresult] at hcourse
  have hin : ∀ e ∈ ((submissionCalls users clock hours calls).run schedule).world.own i,
      e ∈ ((submissionCalls users clock hours calls).run schedule).world.log :=
    fun e he => (World.mem_own.mp he).1
  have hstoredBy : ∀ past, ((submissionCalls users clock hours calls).run schedule).world.own i = past →
      storedBy ((submissionCalls users clock hours calls).run schedule).world i = stored past :=
    fun past h => congrArg stored h
  generalize hown : ((submissionCalls users clock hours calls).run schedule).world.own i = past
    at hcourse hin
  have hstored := hstoredBy past hown
  cases hcourse with
  | refused h =>
      rcases h with rfl | rfl
      · exact hstored
      · exact hstored
  | noUser => exact hstored
  | read user now h =>
      obtain rfl : a = .overflowError := by simpa using h
      exact honest_overflow hstored
  | notFound user now since hsince h =>
      obtain rfl : a = .overflowError := by simpa using h
      exact honest_overflow hstored
  | found user now since hsince row =>
      obtain ⟨hrow, hsession, hhash⟩ := mem_of_found (hin _ List.mem_cons_self)
      unfold queuedAnswer
      cases hby : row.submittedAt.shift expectedComplete with
      | none => exact honest_overflow hstored
      | some expectedCompleteBy =>
          exact ⟨rfl, hby, hstored, row, hrow, rfl, rfl, hsession, hhash⟩
  | limited user now since start hsince hstart hn oldest =>
      obtain ⟨row, hrow, hsession⟩ := exists_of_counted hn
        (hin _ (List.mem_cons_of_mem _ List.mem_cons_self))
      unfold rateLimitedAnswer
      cases retryAfterSeconds hours oldest now with
      | none => exact honest_overflow hstored
      | some seconds => exact ⟨rfl, hstored, row, hrow, hsession⟩
  | inserted user now since start hsince hstart isNew =>
      cases isNew with
      | false => exact hstored
      | true =>
          have hrow := mem_of_inserted (hin _ List.mem_cons_self)
          simp only [if_true, queuedAnswer]
          cases hby : now.shift expectedComplete with
          | none =>
              intro row hmem
              rw [hstored] at hmem
              obtain rfl : row = submittedRow submissionId user r now := List.mem_singleton.mp hmem
              exact hby
          | some expectedCompleteBy => exact ⟨rfl, hby, user, hstored, hrow⟩

end EighthLayer.Reflect
