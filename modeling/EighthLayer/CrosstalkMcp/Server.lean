import EighthLayer.CrosstalkMcp.Store

/-!
# EighthLayer.CrosstalkMcp.Server

The tools of a crosstalk server, its poll and its start, as programs over what the servers share.

A server knows its session's name and how far it has ingested its inbox file. What it finds in the
rest of the machine (the time, random ids, which sessions are gone, whom a help request is routed
to) is part of a call.
-/

namespace EighthLayer.CrosstalkMcp

open Lib

/-! ## Calls -/

/-- What a call finds on the machine. -/
structure Host where
  /-- `new Date().toISOString()`. -/
  now : String
  /-- The random ids that it draws. -/
  fresh : Nat → String
  /-- `recipientGone`. -/
  gone : String → Bool

/-- A machine where the ids that are drawn are numbered, and nobody is gone. -/
def Host.numbered (pre now : String) : Host where
  now
  fresh := fun n => pre ++ toString n
  gone := fun _ => false

/-- Why a tool refuses. -/
inductive Refusal where
  | notDelivered
  | badArguments
  | threadNotFound
  | threadClosed
  | notHelp
  | noOther
  | notParticipant
  | notRouted
deriving DecidableEq

/-- How a tool answers. -/
inductive McpAnswer where
  | sent (threadId : String)
  | replied (threadId : String)
  | closed (threadId : String)
  | unmatched
  /-- Whether the claim is the first. -/
  | claimed (threadId : String) (first : Bool)
  | declined (threadId : String)
  | adopted (threadId : String)
  | rejected (threadId : String)
  | messages (ms : List Message)
  | refused (why : Refusal)
deriving DecidableEq

/-- A tool at work. -/
abbrev ToolProg := McpProg McpAnswer

/-! ## Messages -/

/-- The deliveries of `insertMessage`. -/
def insertDeliveries {α : Type} (messageId : String) : List String → McpProg α → McpProg α
  | [], next => next
  | session :: rest, next =>
    .call (.insertDelivery messageId session) fun _ => insertDeliveries messageId rest next

/-- `insertMessage`. -/
def insertMessage {α : Type} (m : Message) (extraRecipients : List String) (next : McpProg α) :
    McpProg α :=
  .call (.insertMessage m) fun _ =>
    insertDeliveries m.id (m.toSession :: extraRecipients).eraseDups next

/-- `appendToInboxFile`, for every recipient. -/
def appendToInboxFiles {α : Type} (m : Message) : List String → McpProg α → McpProg α
  | [], next => next
  | r :: rest, next =>
    .call (.appendInbox r { m with toSession := r }) fun _ => appendToInboxFiles m rest next

/-- A message to all the recipients. Where there are none it is not even stored, as `to_session`
may not be null. -/
def fanOut {α : Type} (m : String → Message) (recipients : List String) (next : McpProg α) :
    McpProg α :=
  match recipients with
  | [] => next
  | r :: _ => insertMessage (m r) recipients (appendToInboxFiles (m r) recipients next)

/-- A message of its own to each of the others. -/
def announce {α : Type} (host : Host) (m : String → String → Message) :
    Nat → List String → McpProg α → McpProg α
  | _, [], next => next
  | n, target :: rest, next =>
    insertMessage (m (host.fresh n) target) []
      (appendToInboxFiles (m (host.fresh n) target) [target] (announce host m (n + 1) rest next))

/-- `x || null`. -/
def orNull (x : Option String) : Option String := x.filter (· ≠ "")

/-- A message of a session's. -/
def mkMessage (me : String) (host : Host) (threadId id : String) (type : MessageType)
    (content : String) (fromTag toTag : Option String) (toSession : String) : Message where
  id
  threadId
  ts := host.now
  fromSession := me
  toSession
  type
  content
  fromTag := orNull fromTag
  toTag := orNull toTag
  deliveredAt := none

/-- A thread that is opened. -/
def mkThread (me : String) (host : Host) (id : String) (participants : List String)
    (kind : ThreadKind) (fromTag toTag : Option String) : Thread where
  id
  participants
  initiator := me
  updated := host.now
  status := .opened
  closedBy := none
  closeReason := none
  kind
  resolution := none
  fromTag := orNull fromTag
  toTag := orNull toTag

/-! ## Opening threads -/

/-- `send_message`, to a session that is active or will be woken. -/
def sendMessage (me : String) (host : Host) (to_ content : String) (tag toTag : Option String)
    (reachable : Bool) : ToolProg :=
  if !reachable then .done (.refused .notDelivered)
  else
    .call (.upsertThread (mkThread me host (host.fresh 0) [me, to_] .pair tag toTag)) fun _ =>
      insertMessage (mkMessage me host (host.fresh 0) (host.fresh 1) .message content tag toTag to_) []
        (appendToInboxFiles
          (mkMessage me host (host.fresh 0) (host.fresh 1) .message content tag toTag to_) [to_]
          (.done (.sent (host.fresh 0))))

/-- A thread with all its participants, and its first message to the others. -/
def openThread (me : String) (host : Host) (kind : ThreadKind) (type : MessageType)
    (others : List String) (content : String) : ToolProg :=
  .call (.upsertThread (mkThread me host (host.fresh 0) (me :: others) kind none none)) fun _ =>
    fanOut (mkMessage me host (host.fresh 0) (host.fresh 1) type content none none) others
      (.done (.sent (host.fresh 0)))

/-- `group`. -/
def group (me : String) (host : Host) (participants : List String) (content : String) : ToolProg :=
  if participants.length < 2 then .done (.refused .badArguments)
  else openThread me host .group .message (participants.filter (· ≠ me)) content

/-- `help`, once it is decided whom to ask among the live sessions. -/
def help (me : String) (host : Host) (routed : List String) (topic question : String) : ToolProg :=
  if routed.filter (· ≠ me) = [] then .done .unmatched
  else
    openThread me host .help .help (routed.filter (· ≠ me)) ("[help/" ++ topic ++ "] " ++ question)

/-! ## On a thread -/

/-- `reply`. -/
def reply (me : String) (host : Host) (threadId content : String) (tag : Option String) :
    ToolProg :=
  .call (.getThread threadId) fun (thread : Option Thread) =>
    match thread with
    | none => .done (.refused .threadNotFound)
    | some t =>
      if t.status = .closed then .done (.refused .threadClosed)
      else
        .call (.upsertThread { t with updated := host.now }) fun _ =>
          .call (.lastIncomingTag threadId me) fun (routeToTag : Option String) =>
            let m := mkMessage me host threadId (host.fresh 0) .reply content tag routeToTag
            if t.participants.length > 2 then
              fanOut m (t.participants.filter (· ≠ me)) (.done (.replied threadId))
            else
              match t.participants.find? (· ≠ me) with
              | none => .done (.refused .noOther)
              | some target =>
                if host.gone target then .done (.refused .notDelivered)
                else
                  insertMessage (m target) []
                    (appendToInboxFiles (m target) [target] (.done (.replied threadId)))

/-- The argument `resolution` of `close_thread`. -/
structure ResolutionArg where
  resolvedBy : Option String
  summary : Option String

/-- The resolution that is recorded. -/
def ResolutionArg.record (r : ResolutionArg) (me closedAt : String) : Resolution where
  resolvedBy := some ((orNull r.resolvedBy).getD me)
  summary := r.summary
  resolvedAt := some closedAt
  claimedBy := none
  claimedAt := none

/-- `close_thread`. -/
def closeThread (me : String) (host : Host) (threadId : String) (reason : Option String)
    (resolution : Option ResolutionArg) : ToolProg :=
  .call (.getThread threadId) fun (thread : Option Thread) =>
    match thread with
    | none => .done (.refused .threadNotFound)
    | some t =>
      .call (.upsertThread { t with
          updated := host.now, status := .closed, closedBy := some me,
          closeReason := orNull reason,
          resolution := match resolution with
            | some r => some (r.record me host.now)
            | none => t.resolution }) fun _ =>
        announce host (fun id => mkMessage me host threadId id .close
            ("[thread closed: " ++ (orNull reason).getD "done" ++ "]") none none)
          0 (t.participants.filter (· ≠ me)) (.done (.closed threadId))

/-- The resolution of a thread that is claimed. -/
def claimResolution (me : String) (host : Host) (existing : Option Resolution) : Resolution :=
  let r := existing.getD ⟨none, none, none, none, none⟩
  match r.claimedBy with
  | some _ => r
  | none => { r with claimedBy := some me, claimedAt := some host.now }

/-- What the others are told of a claim. -/
def claimContent (me commitment : String) (first : Bool) : String :=
  (if first then "[claimed by " else "[also-claimed by ") ++ me ++ "]" ++
    if commitment = "" then "" else ": " ++ commitment

/-- `claim`. -/
def claim (me : String) (host : Host) (helpId commitment : String) : ToolProg :=
  .call (.getThread helpId) fun (thread : Option Thread) =>
    match thread with
    | none => .done (.refused .threadNotFound)
    | some t =>
      if t.kind ≠ .help then .done (.refused .notHelp)
      else if t.status = .closed then .done (.refused .threadClosed)
      else
        .call (.upsertThread { t with
            updated := host.now, status := .claimed,
            resolution := some (claimResolution me host t.resolution) }) fun _ =>
          announce host (fun id => mkMessage me host helpId id .claim
              (claimContent me commitment t.claimedBy.isNone) none none)
            0 (t.participants.filter (· ≠ me)) (.done (.claimed helpId t.claimedBy.isNone))

/-- `decline`. -/
def decline (me : String) (host : Host) (threadId : String) : ToolProg :=
  .call (.getThread threadId) fun (thread : Option Thread) =>
    match thread with
    | none => .done (.refused .threadNotFound)
    | some t =>
      if t.status = .closed then .done (.refused .threadClosed)
      else .call (.decline threadId me host.now) fun _ => .done (.declined threadId)

/-- `adopt_thread`. -/
def adoptThread (me : String) (host : Host) (threadId : String) (newTag : Option String) :
    ToolProg :=
  .call (.getThread threadId) fun (thread : Option Thread) =>
    match thread with
    | none => .done (.refused .threadNotFound)
    | some t =>
      if me ∉ t.participants then .done (.refused .notParticipant)
      else
        .call (.adoptThread threadId (t.initiator = me) newTag host.now) fun _ =>
          .call (.adoptMessages threadId me (t.initiator = me) newTag) fun _ =>
            .done (.adopted threadId)

/-- `reject_routing`. -/
def rejectRouting (me : String) (host : Host) (threadId reason : String) : ToolProg :=
  .call (.getThread threadId) fun (thread : Option Thread) =>
    match thread with
    | none => .done (.refused .threadNotFound)
    | some t =>
      if me ∉ t.participants then .done (.refused .notParticipant)
      else
        .call (.getMessages threadId) fun (msgs : List Message) =>
          match msgs.reverse.find? fun m => m.toSession = me && (orNull m.toTag).isSome with
          | none => .done (.refused .notRouted)
          | some routed =>
            .call (.rejectRoutings threadId me host.now) fun _ =>
              let m := mkMessage me host threadId (host.fresh 0) .routingRejected
                ("[routing rejected by " ++ me ++ "] " ++ reason) none routed.fromTag
                routed.fromSession
              insertMessage m [] (appendToInboxFiles m [routed.fromSession]
                (.call (.upsertThread { t with
                    updated := host.now, status := .closed, closedBy := some me,
                    closeReason := some ("routing_rejected: " ++ reason) }) fun _ =>
                  .done (.rejected threadId)))

/-- `reapStaleThreads`. -/
def reapStaleThreads (host : Host) (stale : String → Bool) : ToolProg :=
  .call (.reap stale "auto-reaped: no activity in 7+ days" host.now) fun _ => .done .unmatched

/-! ## The inbox -/

/-- A line of the inbox file, as it is inserted. -/
def Message.ingested (m : Message) : Message :=
  { m with fromTag := none, toTag := none, deliveredAt := none }

/-- The lines that are ingested. -/
def insertLines {α : Type} : List Message → McpProg α → McpProg α
  | [], next => next
  | m :: rest, next => insertMessage m.ingested [] (insertLines rest next)

/-- `ingestInboxFile`; what is next gets the new offset. -/
def ingestInboxFile {α : Type} (me : String) (offset : Nat) (next : Nat → McpProg α) : McpProg α :=
  .call (.readInbox me offset) fun (read : List Message × Nat) =>
    if read.2 ≤ offset then next offset else insertLines read.1 (next read.2)

/-- The loop of `pollInbox`: notify, then `markDelivered`. -/
def notifyAll {α : Type} (me : String) (host : Host) : List Message → McpProg α → McpProg α
  | [], next => next
  | m :: rest, next =>
    .call (.notify me m.id) fun _ =>
      .call (.markDelivery m.id me host.now) fun _ =>
        .call (.markMessage m.id host.now) fun _ => notifyAll me host rest next

/-- How many messages a poll takes. -/
def pollLimit : Nat := 20

/-- `pollInbox`. -/
def pollInbox {α : Type} (me : String) (host : Host) (offset : Nat) (next : Nat → McpProg α) :
    McpProg α :=
  ingestInboxFile me offset fun offset =>
    .call (.pending me pollLimit none) fun (pending : List Message) =>
      notifyAll me host pending (next offset)

/-! ## A server -/

/-- What a server does next. -/
inductive Action where
  | sendMessage (to_ content : String) (tag toTag : Option String) (reachable : Bool)
  | group (participants : List String) (content : String)
  | help (routed : List String) (topic question : String)
  | reply (threadId content : String) (tag : Option String)
  | closeThread (threadId : String) (reason : Option String) (resolution : Option ResolutionArg)
  | claim (helpId commitment : String)
  | decline (threadId : String)
  | adoptThread (threadId : String) (newTag : Option String)
  | rejectRouting (threadId reason : String)
  | reap (stale : String → Bool)
  | checkInbox (limit : Nat) (tag : Option String)
  | listRoutings (limit : Nat)
  | poll
  /-- The server stops, and starts again. -/
  | restart

/-- The program of an action, for a server that has ingested its inbox file up to `offset`: its
answer to the client, and the new offset. -/
def Action.prog (me : String) (host : Host) (offset : Nat) : Action → McpProg (McpAnswer × Nat)
  | .sendMessage to_ content tag toTag reachable =>
      (CrosstalkMcp.sendMessage me host to_ content tag toTag reachable).bind fun a =>
        .done (a, offset)
  | .group participants content =>
      (CrosstalkMcp.group me host participants content).bind fun a => .done (a, offset)
  | .help routed topic question =>
      (CrosstalkMcp.help me host routed topic question).bind fun a => .done (a, offset)
  | .reply threadId content tag =>
      (CrosstalkMcp.reply me host threadId content tag).bind fun a => .done (a, offset)
  | .closeThread threadId reason resolution =>
      (CrosstalkMcp.closeThread me host threadId reason resolution).bind fun a => .done (a, offset)
  | .claim helpId commitment =>
      (CrosstalkMcp.claim me host helpId commitment).bind fun a => .done (a, offset)
  | .decline threadId => (CrosstalkMcp.decline me host threadId).bind fun a => .done (a, offset)
  | .adoptThread threadId newTag =>
      (CrosstalkMcp.adoptThread me host threadId newTag).bind fun a => .done (a, offset)
  | .rejectRouting threadId reason =>
      (CrosstalkMcp.rejectRouting me host threadId reason).bind fun a => .done (a, offset)
  | .reap stale => (reapStaleThreads host stale).bind fun a => .done (a, offset)
  | .checkInbox limit tag =>
      ingestInboxFile me offset fun offset =>
        .call (.listInbox me limit (some tag)) fun (ms : List Message) =>
          .done (.messages ms.reverse, offset)
  | .listRoutings limit =>
      ingestInboxFile me offset fun offset =>
        .call (.pendingRoutings me limit) fun (ms : List Message) => .done (.messages ms, offset)
  | .poll => pollInbox me host offset fun offset => .done (.unmatched, offset)
  | .restart =>
      .call (.readInbox me 0) fun (read : List Message × Nat) =>
        .call .seed fun _ => .done (.unmatched, read.2)

/-- A server at work: its actions one after another, each with what it finds on the machine. -/
def serve (me : String) : Nat → List (Host × Action) → McpProg Unit
  | _, [] => .done ()
  | offset, (host, action) :: rest =>
    (action.prog me host offset).bind fun done =>
      .call (.respond me) fun _ => serve me done.2 rest

/-- A session's server, how far it has ingested its inbox file, and what it does. -/
structure Server where
  me : String
  offset : Nat
  actions : List (Host × Action)

/-- The servers of a machine, which start on a database in which there is nothing. -/
def servers (ss : List Server) : Config McpStore McpStmt.Answer Unit :=
  Config.start .empty (ss.map fun s => serve s.me s.offset s.actions)

end EighthLayer.CrosstalkMcp
