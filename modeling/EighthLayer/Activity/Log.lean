import EighthLayer.Knowledge.Propose
import EighthLayer.Consent.Routes
import EighthLayer.Lib.IsoText
import EighthLayer.Lib.Keyset
import EighthLayer.Lib.Table
import EighthLayer.Lib.Uri

/-!
# EighthLayer.Activity.Log

The activity log, how a row gets into it, and the route that reads it page by page
(`activity_routes.py`).
-/

namespace EighthLayer.Activity

open Lib Knowledge

/-! ## The log -/

/-- `EVENT_TYPES`. -/
inductive EventType where
  | query | propose | confirm | flag | reviewStart | reviewResolve | crosstalkSend
  | crosstalkReply | crosstalkClose | consultOpen | consultReply | consultClose | aigrpLookup
deriving DecidableEq

namespace EventType

/-- The text of an event type. -/
def value : EventType → String
  | query => "query"
  | propose => "propose"
  | confirm => "confirm"
  | flag => "flag"
  | reviewStart => "review_start"
  | reviewResolve => "review_resolve"
  | crosstalkSend => "crosstalk_send"
  | crosstalkReply => "crosstalk_reply"
  | crosstalkClose => "crosstalk_close"
  | consultOpen => "consult_open"
  | consultReply => "consult_reply"
  | consultClose => "consult_close"
  | aigrpLookup => "aigrp_lookup"

/-- All of them. -/
def all : List EventType :=
  [query, propose, confirm, flag, reviewStart, reviewResolve, crosstalkSend, crosstalkReply,
    crosstalkClose, consultOpen, consultReply, consultClose, aigrpLookup]

/-- The event type of a text. -/
def ofValue (s : String) : Option EventType := all.find? fun e => e.value = s

end EventType

/-- A row of `activity_log`. Its `ts` is the text of the time at which it was logged. -/
@[ext] structure ActivityRow where
  id : String
  loggedAt : Clock
  tenantEnterprise : String
  tenantGroup : Option String
  persona : Option String
  human : Option String
  eventType : EventType
  payload : String
  resultSummary : Option String
  threadOrChainId : Option String
  id_ne : id ≠ ""

instance : DecidableEq ActivityRow := fun _ _ => decidable_of_iff' _ ActivityRow.ext_iff

/-- The column `ts`. -/
def ActivityRow.ts (r : ActivityRow) : String := r.loggedAt.isoZ

/-- The table; `id` is its primary key. -/
abbrev ActivityLog : Type := Table ActivityRow.id

/-- `log_activity`, of an event and what the background task draws: the rest of the id, and the
time. A user that is not there is logged under this L2. -/
def activityRow (env : Environ) (user : Option UserRow) (username : Option String)
    (eventType : EventType) (payload : String) (resultSummary threadOrChainId : Option String)
    (drawn : String) (now : Clock) : ActivityRow where
  id := "act_" ++ drawn
  loggedAt := now
  tenantEnterprise := (resolveTenancy env (user.getD ⟨none, none⟩)).1
  tenantGroup := some (resolveTenancy env (user.getD ⟨none, none⟩)).2.1
  persona := username
  human := none
  eventType
  payload
  resultSummary
  threadOrChainId
  id_ne := by
    intro h
    have hlength := congrArg String.length h
    simp at hlength

/-! ## Reading it -/

/-- The conditions of `_list_activity_sync`, the cursor apart. -/
structure ActivityFilter where
  tenantEnterprise : Option String
  tenantGroup : Option String
  persona : Option String
  since : Option String
  until_ : Option String
  eventType : Option EventType

/-- The two bounds on `ts`. -/
def inBounds (since until_ : Option String) (ts : String) : Bool :=
  since.all (fun s => s ≤ ts) && until_.all (fun s => ts < s)

/-- Whether a row meets the conditions. -/
def ActivityFilter.matches (f : ActivityFilter) (r : ActivityRow) : Bool :=
  (f.tenantEnterprise = some r.tenantEnterprise) && f.tenantGroup.all (fun g => r.tenantGroup = some g) &&
    f.persona.all (fun p => r.persona = some p) && inBounds f.since f.until_ r.ts &&
    f.eventType.all fun e => r.eventType = e

/-- What the rows are ordered by: `(ts, id)`. -/
def ActivityRow.key (r : ActivityRow) : String ×ₗ String := toLex (r.ts, r.id)

/-- `_list_activity_sync`. -/
def listRows (log : ActivityLog) (f : ActivityFilter) (limit : Nat)
    (cursor : Option (String × String)) : List ActivityRow :=
  keysetPage ActivityRow.key limit (cursor.map toLex) (log.rows.filter f.matches)

/-! ## The route -/

/-- Why a request is refused. -/
inductive ActivityRefusal where
  | userNotFound
  | unknownEventType (eventType : String)
  | badTimestamp (fieldName value : String)
  | malformedCursor (cursor : String)
  | emptyCursorPart
deriving DecidableEq

/-- The HTTP status of a refusal. -/
def ActivityRefusal.status : ActivityRefusal → Nat
  | userNotFound => 401
  | unknownEventType _ | badTimestamp _ _ => 422
  | malformedCursor _ | emptyCursorPart => 400

/-- `_encode_cursor`. -/
def encodeCursor (ts id : String) : String := ts ++ "|" ++ id

/-- `_decode_cursor`. -/
def decodeCursor : Option String → Except ActivityRefusal (Option (String × String))
  | none => .ok none
  | some cursor =>
    if cursor = "" then .ok none
    else if '|' ∉ cursor.toList then .error (.malformedCursor cursor)
    else
      let ts := upTo '|' cursor.toList
      let id := cursor.toList.drop (ts.length + 1)
      if ts = [] ∨ id = [] then .error .emptyCursorPart
      else .ok (some (String.ofList ts, String.ofList id))

/-- The instant of a bound: `datetime.fromisoformat(value.replace("Z", "+00:00"))`; none is its
`ValueError`. -/
def boundInstant (value : String) : Option Int :=
  (fromIsoformat (value.toList.flatMap fun c => if c = 'Z' then "+00:00".toList else [c])).map
    Reading.instant

/-- `_normalise_iso`: the text as it is, if it can be read. -/
def normaliseIso (fieldName : String) : Option String → Except ActivityRefusal (Option String)
  | none => .ok none
  | some value =>
    match boundInstant value with
    | none => .error (.badTimestamp fieldName value)
    | some _ => .ok (some value)

/-- The user row of the caller. -/
structure ActivityUser extends UserRow where
  role : Option String

/-- The query parameters; the limit is validated. -/
structure ActivityRequest where
  persona : Option String
  since : Option String
  until_ : Option String
  eventType : Option String
  limit : Nat
  limit_pos : 0 < limit
  limit_le : limit ≤ 500

/-- `ActivityListResponse`. -/
structure ActivityPage where
  items : List ActivityRow
  count : Nat
  nextCursor : Option String

section Route

variable [Casing]

/-- The conditions that a request is answered under: its persona is the caller's own unless that
is an admin. -/
def effectiveFilter (env : Environ) (user : ActivityUser) (username : String)
    (request : ActivityRequest) : Except ActivityRefusal ActivityFilter := do
  let scope := scopeFilter env user.toUserRow
  let persona := if Consent.isAdminRole user.role = true then request.persona else some username
  let eventType ← match request.eventType with
    | none => .ok none
    | some s =>
      match EventType.ofValue s with
      | none => .error (.unknownEventType s)
      | some e => .ok (some e)
  let since ← normaliseIso "since" request.since
  let until_ ← normaliseIso "until" request.until_
  .ok ⟨scope.1, scope.2, persona, since, until_, eventType⟩

/-- `list_activity`. -/
def listActivity (env : Environ) (user : Option ActivityUser) (username : String)
    (log : ActivityLog) (request : ActivityRequest) (cursor : Option String) :
    Except ActivityRefusal ActivityPage :=
  match user with
  | none => .error .userNotFound
  | some user => do
    let f ← effectiveFilter env user username request
    let after ← decodeCursor cursor
    let items := listRows log f request.limit after
    let next := if items.length = request.limit then
      items.getLast?.map fun r => encodeCursor r.ts r.id else none
    .ok ⟨items, items.length, next⟩

end Route

end EighthLayer.Activity
