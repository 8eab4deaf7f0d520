import EighthLayer.Lib.Unwinding
import EighthLayer.Reflect.Limits

/-!
# EighthLayer.Reflect.Sessions

Sessions do not disturb each other.

The table of submissions is one for all tenants, and its queries ask for a session alone. A call is
answered as if the calls about other sessions were not there, whoever makes them and however they
interleave with it (`sessions_apart`).
-/

namespace EighthLayer.Reflect

open Lib

/-! ## Statements about some sessions -/

/-- A statement about one of some sessions, that inserts no other id than one of some, or about no
session. -/
def ReflectStmt.Within (sessions ids : List String) : ReflectStmt → Prop
  | findDedup sessionId _ _ | countRecent sessionId _ | getOldest sessionId _ => sessionId ∈ sessions
  | create row => row.sessionId ∈ sessions ∧ row.id ∈ ids
  | getUser _ | now | tick _ => True

/-- A statement that leaves some sessions, some ids and the time alone. -/
def ReflectStmt.Outside (sessions ids : List String) : ReflectStmt → Prop
  | create row => row.sessionId ∉ sessions ∧ row.id ∉ ids
  | tick _ => False
  | getUser _ | now | findDedup _ _ _ | countRecent _ _ | getOldest _ _ => True

/-- The rows of some sessions. -/
def rowsOf (sessions : List String) (db : ReflectDb) : List SubmissionRow :=
  db.submissions.rows.filter fun r => r.sessionId ∈ sessions

/-- Databases with the same rows of some sessions. Some ids are only among these. -/
structure SameOf (sessions ids : List String) (s s' : ReflectDb) : Prop where
  users : s.users = s'.users
  clock : s.clock = s'.clock
  rows : rowsOf sessions s = rowsOf sessions s'
  taken : ∀ r ∈ s.submissions, r.id ∈ ids → r.sessionId ∈ sessions
  taken' : ∀ r ∈ s'.submissions, r.id ∈ ids → r.sessionId ∈ sessions

variable {sessions ids : List String} {s s' : ReflectDb}

/-- A filter that asks for one of the sessions goes by their rows. -/
theorem filter_rows {p : SubmissionRow → Bool} (hp : ∀ r, p r = true → r.sessionId ∈ sessions) :
    s.submissions.rows.filter p = (rowsOf sessions s).filter p := by
  rw [rowsOf, List.filter_filter]
  refine List.filter_congr fun r _ => ?_
  cases h : p r with
  | true => simp [hp r h]
  | false => simp

theorem SameOf.filter (h : SameOf sessions ids s s') {p : SubmissionRow → Bool}
    (hp : ∀ r, p r = true → r.sessionId ∈ sessions) :
    s.submissions.rows.filter p = s'.submissions.rows.filter p := by
  rw [filter_rows hp, filter_rows hp, h.rows]

theorem mem_of_inWindow {sessionId start : String} (hsession : sessionId ∈ sessions)
    {r : SubmissionRow} (h : inWindow sessionId start r = true) : r.sessionId ∈ sessions := by
  simp only [inWindow, Bool.and_eq_true, decide_eq_true_eq] at h
  rw [h.1]
  exact hsession

/-- An id of theirs is taken in both or in neither. -/
theorem SameOf.exists_id (h : SameOf sessions ids s s') {id : String} (hid : id ∈ ids)
    (htaken : ∃ r ∈ s.submissions, r.id = id) : ∃ r ∈ s'.submissions, r.id = id := by
  obtain ⟨r, hr, rfl⟩ := htaken
  have hmem : r ∈ rowsOf sessions s :=
    List.mem_filter.mpr ⟨hr, decide_eq_true (h.taken r hr hid)⟩
  rw [h.rows] at hmem
  exact ⟨r, (List.mem_filter.mp hmem).1, rfl⟩

theorem SameOf.symm (h : SameOf sessions ids s s') : SameOf sessions ids s' s :=
  ⟨h.users.symm, h.clock.symm, h.rows.symm, h.taken', h.taken⟩

/-- An insert of theirs. -/
theorem SameOf.create (h : SameOf sessions ids s s') {row : SubmissionRow}
    (hsession : row.sessionId ∈ sessions) (hid : row.id ∈ ids) :
    ((ReflectStmt.create row).exec s).1 = ((ReflectStmt.create row).exec s').1 ∧
      SameOf sessions ids ((ReflectStmt.create row).exec s).2 ((ReflectStmt.create row).exec s').2 := by
  cases hinsert : s.submissions.insert row with
  | none =>
      have hinsert' : s'.submissions.insert row = none :=
        Table.insert_eq_none_iff.mpr (h.exists_id hid (Table.insert_eq_none_iff.mp hinsert))
      simp only [ReflectStmt.exec, hinsert, hinsert']
      exact ⟨trivial, h⟩
  | some submissions =>
      cases hinsert' : s'.submissions.insert row with
      | none =>
          have htaken := h.symm.exists_id hid (Table.insert_eq_none_iff.mp hinsert')
          rw [Table.insert_eq_none_iff.mpr htaken] at hinsert
          cases hinsert
      | some submissions' =>
          simp only [ReflectStmt.exec, hinsert, hinsert']
          refine ⟨trivial, h.users, h.clock, ?_, ?_, ?_⟩
          · have hrows := h.rows
            simp only [rowsOf, (Table.insert_eq_some_iff.mp hinsert).2,
              (Table.insert_eq_some_iff.mp hinsert').2, List.filter_append] at hrows ⊢
            rw [hrows]
          · intro r hr hrid
            rcases (Table.mem_insert hinsert).mp hr with hold | rfl
            · exact h.taken r hold hrid
            · exact hsession
          · intro r hr hrid
            rcases (Table.mem_insert hinsert').mp hr with hold | rfl
            · exact h.taken' r hold hrid
            · exact hsession

/-- An insert of another session is not among their rows. -/
theorem SameOf.create_other (h : SameOf sessions ids s s') {row : SubmissionRow}
    (hsession : row.sessionId ∉ sessions) (hid : row.id ∉ ids) :
    SameOf sessions ids ((ReflectStmt.create row).exec s).2 s' := by
  cases hinsert : s.submissions.insert row with
  | none =>
      simp only [ReflectStmt.exec, hinsert]
      exact h
  | some submissions =>
      simp only [ReflectStmt.exec, hinsert]
      refine ⟨h.users, h.clock, ?_, ?_, h.taken'⟩
      · rw [← h.rows]
        simp [rowsOf, (Table.insert_eq_some_iff.mp hinsert).2, hsession]
      · intro r hr hrid
        rcases (Table.mem_insert hinsert).mp hr with hold | rfl
        · exact h.taken r hold hrid
        · exact absurd hrid hid

/-- Statements about some sessions cannot tell what there is of others. -/
theorem unwinding (sessions ids : List String) :
    Unwinding ReflectStmt.Answer (ReflectStmt.Within sessions ids) (ReflectStmt.Outside sessions ids)
      (SameOf sessions ids) where
  kept q s s' hq h := by
    cases q with
    | getUser username => exact ⟨congrArg (fun users => users.find username) h.users, h⟩
    | now => exact ⟨h.clock, h⟩
    | findDedup sessionId hash start =>
        refine ⟨congrArg (fun rows => (sortDesc _ rows).head?) (h.filter fun r hr => ?_), h⟩
        rw [Bool.and_eq_true] at hr
        exact mem_of_inWindow hq hr.1
    | countRecent sessionId start =>
        exact ⟨congrArg List.length (h.filter fun r hr => mem_of_inWindow hq hr), h⟩
    | getOldest sessionId start =>
        exact ⟨congrArg (fun rows => (sortDesc _ rows).head?.map SubmissionRow.submittedAt)
          (h.filter fun r hr => mem_of_inWindow hq hr), h⟩
    | create row => exact h.create hq.1 hq.2
    | tick until_ =>
        obtain ⟨later, hlater⟩ := exec_tick until_
        change ((ReflectStmt.tick until_).exec s).1 = ((ReflectStmt.tick until_).exec s').1 ∧
          SameOf sessions ids ((ReflectStmt.tick until_).exec s).2
            ((ReflectStmt.tick until_).exec s').2
        rw [hlater s, hlater s']
        exact ⟨rfl, h.users, congrArg later h.clock, h.rows, h.taken, h.taken'⟩
  other q s s' hq h := by
    cases q with
    | create row => exact h.create_other hq.1 hq.2
    | tick until_ => exact hq.elim
    | _ => exact h

/-! ## Calls about some sessions -/

theorem issues_elapse (sessions ids : List String) (times : List Clock) :
    (Reflect.elapse times).Issues (ReflectStmt.Within sessions ids) := by
  induction times with
  | nil => exact .done
  | cons c rest ih => exact .call trivial fun _ => ih

/-- A submission issues statements that are about its session and its id, or about nothing of them.
-/
theorem issues_submitReflection {P : ReflectStmt → Prop} {hours : Nat} {username submissionId : String}
    {r : SubmitRequest} (huser : P (.getUser username)) (hnow : P .now)
    (hfind : ∀ start, P (.findDedup r.sessionId (contextHash r.context) start))
    (hcount : ∀ start, P (.countRecent r.sessionId start))
    (holdest : ∀ start, P (.getOldest r.sessionId start))
    (hcreate : ∀ user now, P (.create (submittedRow submissionId user r now))) :
    (submitReflection hours username submissionId r).Issues P := by
  unfold submitReflection
  by_cases hmode : r.mode ≠ "nightly"
  · rw [if_pos hmode]
    exact .done
  rw [if_neg hmode]
  by_cases hlong : contextMaxChars < r.context.length
  · rw [if_pos hlong]
    exact .done
  rw [if_neg hlong]
  refine .call huser fun (user : Option ReflectUser) => ?_
  cases user with
  | none => exact .done
  | some user =>
      refine .call hnow fun (now : Clock) => ?_
      unfold dedup
      cases now.shift (-dedupWindow) with
      | none => exact .done
      | some since =>
          refine .call (hfind (iso since)) fun (existing : Option SubmissionRow) => ?_
          cases existing with
          | some row => exact .done
          | none =>
              simp only [rateLimit]
              cases now.shift (-rateWindow hours) with
              | none => exact .done
              | some start =>
                  refine .call (hcount (iso start)) fun (n : Nat) => ?_
                  by_cases hn : 1 ≤ n
                  · rw [if_pos hn]
                    exact .call (holdest (iso start)) fun _ => .done
                  · rw [if_neg hn]
                    refine .call (hcreate user now) fun (isNew : Bool) => ?_
                    cases isNew with
                    | false => exact .done
                    | true => exact .done

/-- The submissions among the calls that are kept, with their ids. -/
def keptSubmissions (calls : List SubmitCall) (keeps : Nat → Bool) : List (String × SubmitRequest) :=
  calls.zipIdx.filterMap fun
    | (.submit _ submissionId r, i) => if keeps i = true then some (submissionId, r) else none
    | (.elapse _, _) => none

/-- Their sessions. -/
def keptSessions (calls : List SubmitCall) (keeps : Nat → Bool) : List String :=
  (keptSubmissions calls keeps).map fun p => p.2.sessionId

/-- Their ids. -/
def keptIds (calls : List SubmitCall) (keeps : Nat → Bool) : List String :=
  (keptSubmissions calls keeps).map fun p => p.1

/-- The other calls are submissions, about other sessions and with other ids. -/
def OtherSessions (calls : List SubmitCall) (keeps : Nat → Bool) : Prop :=
  ∀ i call, keeps i = false → calls[i]? = some call → ∃ username submissionId r,
    call = .submit username submissionId r ∧ r.sessionId ∉ keptSessions calls keeps ∧
      submissionId ∉ keptIds calls keeps

variable {calls : List SubmitCall} {keeps : Nat → Bool}

theorem mem_keptSubmissions {i : Nat} {username submissionId : String} {r : SubmitRequest}
    (hi : keeps i = true) (hcall : calls[i]? = some (.submit username submissionId r)) :
    (submissionId, r) ∈ keptSubmissions calls keeps := by
  refine List.mem_filterMap.mpr ⟨(.submit username submissionId r, i), ?_, by simp [hi]⟩
  exact List.mem_zipIdx_iff_getElem?.mpr hcall

/-- The run that a run is compared with has the same calls, of which the others take no steps. -/
theorem calls_alike (users : Table ReflectUser.username) (clock : Clock) (hours : Nat)
    (h : OtherSessions calls keeps) :
    Config.Alike (ReflectStmt.Within (keptSessions calls keeps) (keptIds calls keeps))
      (ReflectStmt.Outside (keptSessions calls keeps) (keptIds calls keeps))
      (SameOf (keptSessions calls keeps) (keptIds calls keeps)) keeps
      (submissionCalls users clock hours calls) (submissionCalls users clock hours calls) where
  same := ⟨rfl, rfl, rfl, fun r hr => absurd hr (Table.not_mem_empty r),
    fun r hr => absurd hr (Table.not_mem_empty r)⟩
  tasks := fun _ _ => rfl
  kept := by
    intro i p hi hp
    rw [submissionCalls, Config.start, List.getElem?_map, Option.map_eq_some_iff] at hp
    obtain ⟨call, hcall, rfl⟩ := hp
    cases call with
    | elapse times => exact issues_elapse _ _ times
    | submit username submissionId r =>
        have hmem := mem_keptSubmissions hi hcall
        have hsession : r.sessionId ∈ keptSessions calls keeps := List.mem_map_of_mem hmem
        have hid : submissionId ∈ keptIds calls keeps := List.mem_map_of_mem hmem
        exact issues_submitReflection trivial trivial (fun _ => hsession) (fun _ => hsession)
          (fun _ => hsession) fun _ _ => ⟨hsession, hid⟩
  other := by
    intro i p hi hp
    rw [submissionCalls, Config.start, List.getElem?_map, Option.map_eq_some_iff] at hp
    obtain ⟨call, hcall, rfl⟩ := hp
    obtain ⟨username, submissionId, r, rfl, hsession, hid⟩ := h i call hi hcall
    exact issues_submitReflection trivial trivial (fun _ => trivial) (fun _ => trivial)
      (fun _ => trivial) fun _ _ => ⟨hsession, hid⟩

/-- **Sessions do not disturb each other.** In every run each of the calls that are kept is answered
as in the run without the steps of the others, and the rows of their sessions are the same, in the
same order, where the others are about other sessions and draw other ids. -/
theorem sessions_apart (users : Table ReflectUser.username) (clock : Clock) (hours : Nat)
    (h : OtherSessions calls keeps) (schedule : List Nat) :
    (∀ i a, keeps i = true →
      (((submissionCalls users clock hours calls).run schedule).Answered i a ↔
        ((submissionCalls users clock hours calls).run (schedule.filter keeps)).Answered i a)) ∧
      rowsOf (keptSessions calls keeps)
          ((submissionCalls users clock hours calls).run schedule).world.db =
        rowsOf (keptSessions calls keeps)
          ((submissionCalls users clock hours calls).run (schedule.filter keeps)).world.db := by
  have halike := (calls_alike users clock hours h).run (unwinding _ _) schedule
  refine ⟨fun i a hi => ?_, halike.same.rows⟩
  unfold Config.Answered
  rw [halike.tasks i hi]

/-! ### Two tenants -/

theorem one_letter : "a" ≠ "" := by decide

theorem one_candidate : 1 ≤ 1 := le_rfl

/-- What another user submits, about a session of their own. -/
def otherRequest : SubmitRequest where
  sessionId := "t"
  context := "a"
  sinceTs := none
  mode := "nightly"
  maxCandidates := 1
  context_ne := one_letter
  maxCandidates_ge := one_candidate

/-- A submission each, of which the first is kept. -/
def twoSessions : List SubmitCall :=
  [.submit "alice" "sub_1" (sampleRequest "a" one_letter), .submit "bob" "sub_2" otherRequest]

theorem twoSessions_other : OtherSessions twoSessions fun i => i = 0 := by
  intro i call hi hcall
  have hne : i ≠ 0 := of_decide_eq_false hi
  obtain rfl : i = 1 := by
    have hlt : i < twoSessions.length := (List.getElem?_eq_some_iff.mp hcall).1
    have hlength : twoSessions.length = 2 := rfl
    omega
  cases hcall
  exact ⟨"bob", "sub_2", otherRequest, rfl, by decide, by decide⟩

theorem sessions_apart_sample :
    rowsOf ["s"]
        ((submissionCalls (.single sampleUser) noon 4 twoSessions).run [1, 0, 1, 0, 0]).world.db =
      rowsOf ["s"]
        ((submissionCalls (.single sampleUser) noon 4 twoSessions).run [0, 0, 0]).world.db :=
  (sessions_apart (.single sampleUser) noon 4 twoSessions_other [1, 0, 1, 0, 0]).2

end EighthLayer.Reflect
