import EighthLayer.Lib.Bytes
import EighthLayer.Lib.Interleave
import EighthLayer.Lib.Sha256
import EighthLayer.Reflect.Windows

/-!
# EighthLayer.Reflect.Submit

`POST /reflect/submit`, statement by statement (`reflect.py`): a look for a recent submission of the
session with the same context, a count of the recent ones, and an insert.
-/

namespace EighthLayer.Reflect

open Lib

/-! ## The tables -/

/-- A row of `users`, as far as a submission is concerned. -/
structure ReflectUser where
  username : String
  id : Int
  enterpriseId : String
  groupId : Option String
deriving DecidableEq

/-- The two tables, and the time. -/
structure ReflectDb where
  users : Table ReflectUser.username
  submissions : Submissions
  clock : Clock

/-! ## Statements -/

/-- The statements of the route. -/
inductive ReflectStmt where
  /-- `get_user`. -/
  | getUser (username : String)
  /-- `_now`. -/
  | now
  /-- `find_recent_reflect_dedup`. -/
  | findDedup (sessionId contextHash windowStartIso : String)
  /-- `count_recent_reflect_submissions`. -/
  | countRecent (sessionId windowStartIso : String)
  /-- `get_oldest_reflect_in_window`. -/
  | getOldest (sessionId windowStartIso : String)
  /-- `create_reflect_submission`. -/
  | create (row : SubmissionRow)
  /-- Time passes. -/
  | tick (until_ : Clock)

/-- What a statement answers: for an insert, whether its id was new. -/
@[reducible] def ReflectStmt.Answer : ReflectStmt → Type
  | getUser _ => Option ReflectUser
  | now => Clock
  | findDedup _ _ _ => Option SubmissionRow
  | countRecent _ _ => Nat
  | getOldest _ _ => Option Clock
  | create _ => Bool
  | tick _ => Unit

/-- What a statement does. -/
def ReflectStmt.exec : (q : ReflectStmt) → ReflectDb → q.Answer × ReflectDb
  | getUser username, s => (s.users.find username, s)
  | now, s => (s.clock, s)
  | findDedup sessionId contextHash windowStartIso, s =>
      (findRecentReflectDedup s.submissions sessionId contextHash windowStartIso, s)
  | countRecent sessionId windowStartIso, s =>
      (countRecentReflectSubmissions s.submissions sessionId windowStartIso, s)
  | getOldest sessionId windowStartIso, s =>
      (getOldestReflectInWindow s.submissions sessionId windowStartIso, s)
  | create row, s =>
      match s.submissions.insert row with
      | none => (false, s)
      | some submissions => (true, { s with submissions })
  | tick until_, s =>
      ((), { s with clock := if s.clock.instant < until_.instant then until_ else s.clock })

instance : Database ReflectDb ReflectStmt.Answer := ⟨ReflectStmt.exec⟩

/-- A program of these statements. -/
abbrev ReflectProg : Type → Type := Prog ReflectStmt.Answer

/-! ### Statements by themselves -/

section Alone

variable {α : Type} {db : ReflectDb}

@[simp] theorem alone_getUser (username : String) (k : Option ReflectUser → ReflectProg α) :
    (Prog.call (ReflectStmt.getUser username) k : ReflectProg α).alone db =
      (k (db.users.find username)).alone db := rfl

@[simp] theorem alone_now (k : Clock → ReflectProg α) :
    (Prog.call ReflectStmt.now k : ReflectProg α).alone db = (k db.clock).alone db := rfl

@[simp] theorem alone_findDedup (sessionId contextHash windowStartIso : String)
    (k : Option SubmissionRow → ReflectProg α) :
    (Prog.call (ReflectStmt.findDedup sessionId contextHash windowStartIso) k :
        ReflectProg α).alone db =
      (k (findRecentReflectDedup db.submissions sessionId contextHash windowStartIso)).alone db :=
  rfl

@[simp] theorem alone_countRecent (sessionId windowStartIso : String) (k : Nat → ReflectProg α) :
    (Prog.call (ReflectStmt.countRecent sessionId windowStartIso) k : ReflectProg α).alone db =
      (k (countRecentReflectSubmissions db.submissions sessionId windowStartIso)).alone db := rfl

@[simp] theorem alone_getOldest (sessionId windowStartIso : String)
    (k : Option Clock → ReflectProg α) :
    (Prog.call (ReflectStmt.getOldest sessionId windowStartIso) k : ReflectProg α).alone db =
      (k (getOldestReflectInWindow db.submissions sessionId windowStartIso)).alone db := rfl

theorem alone_create_none {row : SubmissionRow} {k : Bool → ReflectProg α}
    (h : db.submissions.insert row = none) :
    (Prog.call (ReflectStmt.create row) k : ReflectProg α).alone db = (k false).alone db := by
  rw [Prog.alone_call]
  simp only [Database.exec, ReflectStmt.exec, h]

theorem alone_create_some {row : SubmissionRow} {k : Bool → ReflectProg α}
    {submissions : Submissions} (h : db.submissions.insert row = some submissions) :
    (Prog.call (ReflectStmt.create row) k : ReflectProg α).alone db =
      (k true).alone { db with submissions } := by
  rw [Prog.alone_call]
  simp only [Database.exec, ReflectStmt.exec, h]

end Alone

/-! ## The route -/

/-- `CONTEXT_MAX_CHARS`. -/
def contextMaxChars : Nat := 1000000

/-- `DEDUP_WINDOW_MINUTES`, in microseconds. -/
def dedupWindow : Int := 30 * 60 * 1000000

/-- `EXPECTED_COMPLETE_MINUTES`, in microseconds. -/
def expectedComplete : Int := 30 * 60 * 1000000

-- the numbers are never to be counted down
attribute [irreducible] dedupWindow expectedComplete

/-- `DEFAULT_RATE_LIMIT_HOURS`. -/
def defaultRateLimitHours : Nat := 4

/-- `_rate_limit_hours`, of what `int` reads in the environment. -/
def rateLimitHours (read : Option Int) : Nat :=
  match read with
  | some n => if 0 < n then n.toNat else defaultRateLimitHours
  | none => defaultRateLimitHours

theorem rateLimitHours_pos (read : Option Int) : 0 < rateLimitHours read := by
  unfold rateLimitHours
  split
  · split
    · omega
    · decide
  · decide

/-- The rate window, in microseconds. -/
def rateWindow (hours : Nat) : Int := hours * 3600 * 1000000

/-- `_context_hash`. -/
def contextHash (context : String) : String :=
  String.ofList ((hex (sha256 (utf8 context))).take 16)

/-- `ReflectSubmitRequest`, as validated. -/
structure SubmitRequest where
  sessionId : String
  context : String
  sinceTs : Option String
  mode : String
  maxCandidates : Nat
  context_ne : context ≠ ""
  maxCandidates_ge : 1 ≤ maxCandidates

/-- What the route answers. -/
inductive SubmitAnswer where
  | queued (submissionId : String) (queuedAt expectedCompleteBy : Clock)
      (dedupedTo : Option String)
  | rateLimited (retryAfterSeconds : Int) (hours : Nat)
  | unsupportedMode (mode : String)
  | contextTooLong
  | userNotFound
  /-- A time is out of range. -/
  | overflowError
  /-- The id was there already. -/
  | integrityError
  /-- Time has passed. -/
  | elapsed
deriving DecidableEq

/-- The HTTP status of an answer. -/
def SubmitAnswer.status : SubmitAnswer → Nat
  | queued .. => 202
  | rateLimited .. => 429
  | unsupportedMode _ => 422
  | contextTooLong => 413
  | userNotFound => 401
  | overflowError | integrityError => 500
  | elapsed => 200

/-- `int((ages_out_at - now).total_seconds())`. -/
def secondsOf (delta : Int) : Int :=
  if delta < 0 then -(wholeSeconds (-delta).toNat : Int) else wholeSeconds delta.toNat

attribute [irreducible] secondsOf

/-- The seconds after which a refused call is to be tried again. -/
def retryAfterSeconds (hours : Nat) (oldest : Option Clock) (now : Clock) : Option Int :=
  match oldest with
  | none => some (hours * 3600)
  | some oldestDt => (oldestDt.shift (rateWindow hours)).map fun agesOutAt =>
      max 1 (secondsOf (agesOutAt.instant - now.instant))

/-- The row that a request writes. -/
def submittedRow (submissionId : String) (user : ReflectUser) (r : SubmitRequest) (now : Clock) :
    SubmissionRow where
  id := submissionId
  sessionId := r.sessionId
  userId := user.id
  enterpriseId := user.enterpriseId
  groupId := user.groupId
  contextHash := contextHash r.context
  mode := r.mode
  maxCandidates := min r.maxCandidates 25
  sinceTs := r.sinceTs
  submittedAt := now

/-- The answer about a submission that is stored. -/
def queuedAnswer (submissionId : String) (queuedAt : Clock) (dedupedTo : Option String) :
    SubmitAnswer :=
  (queuedAt.shift expectedComplete).elim .overflowError fun expectedCompleteBy =>
    .queued submissionId queuedAt expectedCompleteBy dedupedTo

/-- The answer of a call that is refused. -/
def rateLimitedAnswer (hours : Nat) (oldest : Option Clock) (now : Clock) : SubmitAnswer :=
  (retryAfterSeconds hours oldest now).elim .overflowError fun seconds =>
    .rateLimited seconds hours

/-- `submit_reflection`, from the rate limit on. -/
def rateLimit (hours : Nat) (submissionId : String) (user : ReflectUser) (r : SubmitRequest)
    (now : Clock) : ReflectProg SubmitAnswer :=
  (now.shift (-rateWindow hours)).elim (.done .overflowError) fun rateSince =>
    .call (.countRecent r.sessionId (iso rateSince)) fun (recentCount : Nat) =>
      if 1 ≤ recentCount then
        .call (.getOldest r.sessionId (iso rateSince)) fun (oldest : Option Clock) =>
          .done (rateLimitedAnswer hours oldest now)
      else
        .call (.create (submittedRow submissionId user r now)) fun
          | false => .done .integrityError
          | true => .done (queuedAnswer submissionId now none)

/-- `submit_reflection`, from the look for the same context on. -/
def dedup (hours : Nat) (submissionId : String) (user : ReflectUser) (r : SubmitRequest)
    (now : Clock) : ReflectProg SubmitAnswer :=
  (now.shift (-dedupWindow)).elim (.done .overflowError) fun dedupSince =>
    .call (.findDedup r.sessionId (contextHash r.context) (iso dedupSince)) fun
        (existing : Option SubmissionRow) =>
      match existing with
      | some row => .done (queuedAnswer row.id row.submittedAt (some row.id))
      | none => rateLimit hours submissionId user r now

/-- `submit_reflection`, with the id that it draws. -/
def submitReflection (hours : Nat) (username submissionId : String) (r : SubmitRequest) :
    ReflectProg SubmitAnswer :=
  if r.mode ≠ "nightly" then .done (.unsupportedMode r.mode)
  else if contextMaxChars < r.context.length then .done .contextTooLong
  else .call (.getUser username) fun (user : Option ReflectUser) =>
    match user with
    | none => .done .userNotFound
    | some user => .call .now fun (now : Clock) => dedup hours submissionId user r now

/-- Some time passes, and then some more. -/
def elapse : List Clock → ReflectProg SubmitAnswer
  | [] => .done .elapsed
  | c :: rest => .call (.tick c) fun _ => elapse rest

end EighthLayer.Reflect
