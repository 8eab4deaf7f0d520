import EighthLayer.Crosstalk.Store
import EighthLayer.Environ

/-!
# EighthLayer.Crosstalk.Routes

The routes that send a message, reply on a thread and close it, as programs over the two tables.

A request sees the rest of its L2 (users, the time, what its random ids are) as a `Site`.
-/

namespace EighthLayer.Crosstalk

open Lib

/-! ## What a request finds -/

/-- A row of `users`, as far as it is read. -/
structure UserRow where
  enterpriseId : Option String
  groupId : Option String
  role : Option String
deriving DecidableEq

/-- What a request finds at the L2 that serves it, the crosstalk apart. -/
structure Site where
  env : Environ
  /-- `get_user`. -/
  users : String → Option UserRow
  /-- `_now_iso`. -/
  now : String
  /-- `_new_thread_id`. -/
  newThreadId : String
  /-- `_new_message_id`. -/
  newMessageId : String

/-- Why a request is refused. -/
inductive CrosstalkRefusal where
  | userNotFound
  | missingTenancy
  | recipientNotFound (to_ : String)
  | threadNotFound
  | threadClosed
  | notParticipant
  | alreadyClosed
  /-- An `IntegrityError`. -/
  | internalError
deriving DecidableEq

/-- The HTTP status of a refusal. -/
def CrosstalkRefusal.status : CrosstalkRefusal → Nat
  | userNotFound => 401
  | recipientNotFound _ | threadNotFound => 404
  | threadClosed | alreadyClosed => 409
  | notParticipant => 403
  | missingTenancy | internalError => 500

/-- How a route answers. -/
inductive CrosstalkResponse where
  /-- `SendResponse`. -/
  | sent (threadId messageId sentAt : String)
  | closed (threadId : String)
  | refused (r : CrosstalkRefusal)
deriving DecidableEq

/-- A route at work. -/
abbrev RouteProg := CrosstalkProg CrosstalkResponse

/-- `SendMessageRequest`, as validated. -/
structure SendMessageRequest where
  to_ : String
  content : String
  persona : Option String
  subject : String
  threadId : Option String
  messageId : Option String
  content_ne : content ≠ ""

/-- `ReplyRequest`, as validated. -/
structure ReplyRequest where
  content : String
  persona : Option String
  messageId : Option String
  content_ne : content ≠ ""

/-- `is_admin_role`. -/
def isAdminRole (role : String) : Bool := role ∈ ["admin", "enterprise_admin", "l2_admin"]

/-- `per_l2_isolation_enabled`. -/
def perL2IsolationEnabled (env : Environ) : Bool :=
  (env.get "PER_L2_ISOLATION" "").toList.map Char.toLower ∈
    ["1".toList, "true".toList, "yes".toList]

/-- Enterprise, group and role of a caller. -/
structure Caller where
  enterpriseId : String
  groupId : String
  role : String

/-- `_resolve_caller`. -/
def resolveCaller (site : Site) (username : String) : Except CrosstalkRefusal Caller :=
  match site.users username with
  | none => .error .userNotFound
  | some user =>
    if !truthy user.enterpriseId || !truthy user.groupId then .error .missingTenancy
    else .ok ⟨user.enterpriseId.getD "", user.groupId.getD "", pyOr user.role "user"⟩

/-- `_read_scope`. -/
def readScope (site : Site) (caller : Caller) : Scope where
  enterprise := caller.enterpriseId
  group := if perL2IsolationEnabled site.env then some caller.groupId else none

/-- The messages that the lookup of a duplicate goes through. -/
def duplicateLimit : Nat := 200

/-- The lookup of a duplicate: the response for the message that is there, or what is next. -/
def unlessDuplicate (threadId messageId : String) (scope : Scope) (next : RouteProg) : RouteProg :=
  .call (.listMessages threadId scope duplicateLimit) fun (existing : List Message) =>
    match existing.find? fun m => m.id = messageId with
    | some m => .done (.sent threadId messageId m.sentAt)
    | none => next

/-- The append that both routes end with. -/
def append (m : Message) : RouteProg :=
  .call (.appendMessage m) fun (inserted : Bool) =>
    if inserted then .done (.sent m.threadId m.id m.sentAt) else .done (.refused .internalError)

/-! ## Sending -/

/-- The recipient is one of the caller's tenant. -/
def recipientFound (site : Site) (caller : Caller) (to_ : String) : Bool :=
  match site.users to_ with
  | none => false
  | some recipient =>
    recipient.enterpriseId = some caller.enterpriseId &&
      ((readScope site caller).group = none || recipient.groupId = some caller.groupId)

/-- The id of the thread that a send is about. -/
def SendMessageRequest.thread (req : SendMessageRequest) (site : Site) : String :=
  pyOr req.threadId site.newThreadId

/-- The message that a send appends. -/
def SendMessageRequest.message (req : SendMessageRequest) (site : Site) (caller : Caller)
    (username : String) : Message where
  id := pyOr req.messageId site.newMessageId
  threadId := req.thread site
  fromUsername := username
  fromPersona := req.persona
  toUsername := some req.to_
  content := req.content
  sentAt := site.now
  enterpriseId := caller.enterpriseId
  groupId := caller.groupId

/-- The thread that a send creates. -/
def SendMessageRequest.newThread (req : SendMessageRequest) (site : Site) (caller : Caller)
    (username : String) : Thread where
  id := req.thread site
  subject := req.subject
  status := .opened
  closedAt := none
  closedByUsername := none
  closedReason := none
  enterpriseId := caller.enterpriseId
  groupId := caller.groupId
  createdAt := site.now
  createdByUsername := username
  participants := [username, req.to_]

/-- The send, from where its thread has been looked up. -/
def sendOn (site : Site) (caller : Caller) (username : String) (req : SendMessageRequest)
    (existing : Option Thread) : RouteProg :=
  match existing with
  | none =>
    .call (.createThread (req.newThread site caller username)) fun (created : Bool) =>
      if created then append (req.message site caller username)
      else .done (.refused .internalError)
  | some t =>
    if t.status ≠ .opened then .done (.refused .threadClosed)
    else if username ∉ t.participants then .done (.refused .notParticipant)
    else append (req.message site caller username)

/-- The send, from where no duplicate was found. -/
def sendFresh (site : Site) (caller : Caller) (username : String) (req : SendMessageRequest) :
    RouteProg :=
  if req.threadId ≠ none then
    .call (.getThread (req.thread site) (readScope site caller)) fun (existing : Option Thread) =>
      sendOn site caller username req existing
  else sendOn site caller username req none

/-- `send_message`. -/
def sendMessage (site : Site) (username : String) (req : SendMessageRequest) : RouteProg :=
  match resolveCaller site username with
  | .error e => .done (.refused e)
  | .ok caller =>
    if !recipientFound site caller req.to_ then .done (.refused (.recipientNotFound req.to_))
    else if req.messageId ≠ none then
      .call (.getThread (req.thread site) (readScope site caller)) fun (existing : Option Thread) =>
        match existing with
        | none => sendFresh site caller username req
        | some _ =>
          unlessDuplicate (req.thread site) (req.message site caller username).id
            (readScope site caller) (sendFresh site caller username req)
    else sendFresh site caller username req

/-! ## Replying -/

/-- The message that a reply appends: to the first other participant. -/
def ReplyRequest.message (req : ReplyRequest) (site : Site) (caller : Caller) (username : String)
    (t : Thread) : Message where
  id := pyOr req.messageId site.newMessageId
  threadId := t.id
  fromUsername := username
  fromPersona := req.persona
  toUsername := (t.participants.filter fun p => p ≠ username).head?
  content := req.content
  sentAt := site.now
  enterpriseId := caller.enterpriseId
  groupId := caller.groupId

/-- `reply_on_thread`. -/
def replyOnThread (site : Site) (username threadId : String) (req : ReplyRequest) : RouteProg :=
  match resolveCaller site username with
  | .error e => .done (.refused e)
  | .ok caller =>
    .call (.getThread threadId (readScope site caller)) fun (thread : Option Thread) =>
      match thread with
      | none => .done (.refused .threadNotFound)
      | some t =>
        if t.status ≠ .opened then .done (.refused .threadClosed)
        else if username ∉ t.participants ∧ isAdminRole caller.role = false then
          .done (.refused .notParticipant)
        else if req.messageId ≠ none then
          unlessDuplicate t.id (req.message site caller username t).id (readScope site caller)
            (append (req.message site caller username t))
        else append (req.message site caller username t)

/-! ## Closing -/

/-- `close_thread`. -/
def closeThread (site : Site) (username threadId : String) (reason : Option String) : RouteProg :=
  match resolveCaller site username with
  | .error e => .done (.refused e)
  | .ok caller =>
    .call (.getThread threadId (readScope site caller)) fun (thread : Option Thread) =>
      match thread with
      | none => .done (.refused .threadNotFound)
      | some t =>
        if username ∉ t.participants ∧ isAdminRole caller.role = false then
          .done (.refused .notParticipant)
        else
          .call (.closeThread threadId username site.now reason (readScope site caller))
            fun (won : Bool) =>
              if won then .done (.closed threadId) else .done (.refused .alreadyClosed)

/-! ## Calls -/

/-- A request, with the user it has been authenticated as. -/
inductive CrosstalkCall where
  | send (username : String) (req : SendMessageRequest)
  | reply (username threadId : String) (req : ReplyRequest)
  | close (username threadId : String) (reason : Option String)

/-- The program that serves a request. -/
def CrosstalkCall.prog (site : Site) : CrosstalkCall → RouteProg
  | send username req => sendMessage site username req
  | reply username threadId req => replyOnThread site username threadId req
  | close username threadId reason => closeThread site username threadId reason

/-- The programs of a pool of requests. -/
def crosstalkProgs (calls : List (Site × CrosstalkCall)) : List RouteProg :=
  calls.map fun p => p.2.prog p.1

end EighthLayer.Crosstalk
