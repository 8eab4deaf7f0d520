import EighthLayer.Directory.Peerings
import EighthLayer.Lib.PyEq
import Mathlib.Algebra.Order.Field.Rat
import Mathlib.Tactic.Linarith

/-!
# EighthLayer.Provision.JobStream

The event stream of a provisioning job (`server/backend/src/cq_server/l2_provision_routes.py`): the job is
polled every three seconds, and a frame is sent for each change of its status or phase, as a heartbeat,
and at the end.

The clocks of the loop count its sleeps and not the time that the polls take. A stream here has both: the
frames carry the time at which they are sent, which the loop does not see.
-/

namespace EighthLayer.Provision

open Lib

/-! ## Polls -/

/-- `_POLL_INTERVAL_SEC`, `_HEARTBEAT_EVERY_SEC` and `_STREAM_MAX_SEC`. -/
def pollIntervalSec : Nat := 3

def heartbeatEverySec : Nat := 15

def streamMaxSec : Nat := 30 * 60

/-- What comes of a request: a transport error, or a status with a body, which may be unreadable. -/
inductive PollOutcome where
  | transportError (exc : String)
  | response (statusCode : Nat) (body : Option Json)

/-- A poll, which takes at most ten seconds (`_FORWARD_TIMEOUT_SEC`). -/
structure Poll where
  outcome : PollOutcome
  duration : ℚ
  nonneg : 0 ≤ duration
  bounded : duration ≤ 10

/-- `_poll_job_once`. -/
def pollJobOnce : PollOutcome → Json
  | .transportError exc => .obj [("_transient_error", .str ("poll transport error: " ++ exc))]
  | .response statusCode body =>
    if statusCode = 404 then
      .obj [("status", .str "FAILED"), ("error", .str "provisioning job not found"),
        ("_not_found", .bool true)]
    else if statusCode = 401 ∨ statusCode = 403 then
      .obj [("status", .str "FAILED"),
        ("error", .str ("provisioning service rejected identity proof (" ++ toString statusCode ++ ")"))]
    else if 400 ≤ statusCode then
      .obj [("_transient_error", .str ("poll upstream status " ++ toString statusCode))]
    else match body with
      | some v => v
      | none => .obj [("_transient_error", .str "poll response unreadable")]

/-! ## Frames -/

/-- A frame, with what differs from one to another. -/
inductive Frame where
  | opening
  | warning (note : Json)
  | tick
  | phase (status name phaseLabel progressPct : Json)
  | completed (result : Json)
  | failed (status error : Json)
  | timeout

/-- The `event:` line of a frame. -/
def Frame.event : Frame → String
  | opening => "open"
  | warning _ => "heartbeat"
  | tick => "heartbeat"
  | phase .. => "phase"
  | completed _ => "completed"
  | failed .. => "failed"
  | timeout => "failed"

/-- The payload of the `data:` line. -/
def Frame.payload (jobId : String) : Frame → Json
  | opening => .obj [("job_id", .str jobId), ("status", .str "STREAM_OPEN")]
  | warning note => .obj [("job_id", .str jobId), ("note", note)]
  | tick => .obj [("job_id", .str jobId), ("ts", .str "tick")]
  | phase status name phaseLabel progressPct => .obj [("job_id", .str jobId), ("status", status),
      ("phase", name), ("phase_label", phaseLabel), ("progress_pct", progressPct)]
  | completed result => .obj [("job_id", .str jobId), ("status", .str "COMPLETED"), ("result", result)]
  | failed status error => .obj [("job_id", .str jobId), ("status", status), ("error", error)]
  | timeout => .obj [("job_id", .str jobId), ("status", .str "STREAM_TIMEOUT"),
      ("note", .str ("stream closed before the job reached a terminal state; poll the job or check " ++
        "email for the key"))]

/-! ## The stream -/

section
variable [NumberEq]

/-- Whether `signature != last_signature`. -/
def changed (signature : Json × Json) : Option (Json × Json) → Bool
  | none => true
  | some last => !(pyEq signature.1 last.1 && pyEq signature.2 last.2)

/-- The state of the loop, and the time. -/
structure StreamState where
  lastSignature : Option (Json × Json)
  elapsed : Nat
  sinceHeartbeat : Nat
  clock : ℚ

/-- Frames, each with the time at which it is sent. -/
abbrev Frames := List (ℚ × Frame)

/-- How a stream ends. The fuel is that of the polls which the ceiling allows, and the ceiling itself. -/
inductive Ending where
  | closed
  | crashed
  | outOfFuel
deriving DecidableEq

/-- What follows a poll. -/
inductive Next where
  | sleep (s : StreamState)
  | over (e : Ending)

/-- What a row says of a job that is not transient. -/
def statusOf (row : List (String × Json)) : Json := (row.lookup "status").getD (.str "PROVISIONING")

/-- `row.get(key)`. -/
def field (row : List (String × Json)) (key : String) : Json := (row.lookup key).getD .null

/-- One round of the loop up to its sleep. -/
def pollStep (poll : Poll) (s : StreamState) : Frames × Next :=
  let clock := s.clock + poll.duration
  match pollJobOnce poll.outcome with
  | .obj row =>
    if Directory.isTrue (field row "_transient_error") then
      ([(clock, .warning (field row "_transient_error"))],
        .sleep { s with sinceHeartbeat := 0, clock })
    else
      let signature := (statusOf row, field row "phase")
      let s' : StreamState := if changed signature s.lastSignature then
          { s with lastSignature := some signature, sinceHeartbeat := 0, clock }
        else { s with clock }
      let frames : Frames := if changed signature s.lastSignature then
          [(clock, .phase signature.1 signature.2 (field row "phase_label") (field row "progress_pct"))]
        else []
      match statusOf row with
      | .str status =>
        if status = "COMPLETED" then
          (frames ++ [(clock, .completed (field row "result"))], .over .closed)
        else if status = "FAILED" then
          (frames ++ [(clock, .failed (.str status) (field row "error"))], .over .closed)
        else (frames, .sleep s')
      -- a list or an object is looked for in the set of the terminal states
      | .arr _ | .obj _ => (frames, .over .crashed)
      | _ => (frames, .sleep s')
  -- `row.get` of what is no object
  | _ => ([], .over .crashed)

/-- The sleep, and the heartbeat after it. -/
def sleepStep (s : StreamState) : Frames × StreamState :=
  let s : StreamState := { s with
    elapsed := s.elapsed + pollIntervalSec
    sinceHeartbeat := s.sinceHeartbeat + pollIntervalSec
    clock := s.clock + pollIntervalSec }
  if heartbeatEverySec ≤ s.sinceHeartbeat then
    ([(s.clock, .tick)], { s with sinceHeartbeat := 0 })
  else ([], s)

/-- `while elapsed < _STREAM_MAX_SEC`, from the `i`-th poll on. -/
def streamLoop (polls : Nat → Poll) : Nat → Nat → StreamState → Frames × Ending
  | 0, _, _ => ([], .outOfFuel)
  | fuel + 1, i, s =>
    if s.elapsed < streamMaxSec then
      match pollStep (polls i) s with
      | (frames, .over e) => (frames, e)
      | (frames, .sleep s) =>
        let slept := sleepStep s
        let rest := streamLoop polls fuel (i + 1) slept.2
        (frames ++ slept.1 ++ rest.1, rest.2)
    else ([(s.clock, .timeout)], .closed)

/-- `_job_event_stream`. -/
def jobEventStream (polls : Nat → Poll) : Frames × Ending :=
  let stream := streamLoop polls (streamMaxSec / pollIntervalSec + 1) 0 ⟨none, 0, 0, 0⟩
  ((0, .opening) :: stream.1, stream.2)

end

end EighthLayer.Provision
