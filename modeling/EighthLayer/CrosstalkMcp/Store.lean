import EighthLayer.Lib.Interleave
import EighthLayer.Lib.Table
import Mathlib.Data.List.Sort
import Mathlib.Data.String.Basic

/-!
# EighthLayer.CrosstalkMcp.Store

What the crosstalk servers of a machine share: the tables `threads`, `messages` and
`message_deliveries` of one database, and an inbox file for each session; and what the clients
have been notified of.

Every statement is a transaction of its own. A session's server executes its statements one after
another, with those of other servers anywhere between them.
-/

namespace EighthLayer.CrosstalkMcp

open Lib

/-! ## Rows -/

/-- The column `status` of `threads`. -/
inductive ThreadStatus where
  | opened
  | claimed
  | closed
deriving DecidableEq

/-- The column `kind` of `threads`. -/
inductive ThreadKind where
  | pair
  | group
  | help
deriving DecidableEq

/-- The column `resolution` of `threads`. -/
structure Resolution where
  resolvedBy : Option String
  summary : Option String
  resolvedAt : Option String
  claimedBy : Option String
  claimedAt : Option String
deriving DecidableEq

/-- A row of `threads`. -/
structure Thread where
  id : String
  participants : List String
  initiator : String
  updated : String
  status : ThreadStatus
  closedBy : Option String
  closeReason : Option String
  kind : ThreadKind
  resolution : Option Resolution
  fromTag : Option String
  toTag : Option String
deriving DecidableEq

/-- The column `type` of `messages`. -/
inductive MessageType where
  | message
  | reply
  | close
  | help
  | claim
  | routingRejected
deriving DecidableEq

/-- A row of `messages`; also a line of an inbox file. -/
structure Message where
  id : String
  threadId : String
  ts : String
  fromSession : String
  toSession : String
  type : MessageType
  content : String
  fromTag : Option String
  toTag : Option String
  /-- The legacy column, which `getDb` seeds deliveries from. -/
  deliveredAt : Option String
deriving DecidableEq

/-- A row of `message_deliveries`. -/
structure Delivery where
  messageId : String
  session : String
  deliveredAt : Option String
deriving DecidableEq

/-- The primary key of `message_deliveries`. -/
def Delivery.key (d : Delivery) : String × String := (d.messageId, d.session)

/-- Who has claimed the thread. -/
def Thread.claimedBy (t : Thread) : Option String := t.resolution.bind Resolution.claimedBy

/-- What becomes of a row when `upsertThread` is called with another one of its id. -/
def Thread.merge (old t : Thread) : Thread :=
  { old with
    updated := t.updated
    status := t.status
    closedBy := t.closedBy <|> old.closedBy
    closeReason := t.closeReason <|> old.closeReason
    resolution := t.resolution <|> old.resolution
    toTag := t.toTag <|> old.toTag }

@[simp] theorem Thread.merge_id (old t : Thread) : (old.merge t).id = old.id := rfl

/-! ## The store -/

/-- The database and the inbox files, and the notifications that have been sent: to which session,
about which message. -/
structure McpStore where
  threads : Table Thread.id
  messages : Table Message.id
  deliveries : Table Delivery.key
  inbox : String → List Message
  shown : List (String × String)

namespace McpStore

/-- Nothing. -/
def empty : McpStore := ⟨.empty, .empty, .empty, fun _ => [], []⟩

/-- `upsertThread`. -/
def upsertThread (s : McpStore) (t : Thread) : McpStore :=
  { s with
    threads := match s.threads.find t.id with
      | none => s.threads.insertOrIgnore t
      | some _ => s.threads.update (fun old => old.id = t.id) (fun old => old.merge t)
          fun old => old.merge_id t }

/-- The messages of a thread, by time. -/
def getMessages (s : McpStore) (threadId : String) : List Message :=
  (s.messages.rows.filter fun m => m.threadId = threadId).insertionSort fun m m' => m.ts ≤ m'.ts

/-- `lastIncomingTag`. -/
def lastIncomingTag (s : McpStore) (threadId session : String) : Option String :=
  (((s.getMessages threadId).filter fun m => m.toSession = session).getLast?).bind Message.fromTag

/-- `listInboxMessages`: the last ones to a session, the latest first. -/
def listInboxMessages (s : McpStore) (session : String) (limit : Nat)
    (tag : Option (Option String)) : List Message :=
  (((s.messages.rows.filter fun m => m.toSession = session && tag.all (m.toTag = ·)).insertionSort
    fun m m' => m.ts ≤ m'.ts).reverse).take limit

/-- The messages that are not yet delivered to a session, by time. -/
def undelivered (s : McpStore) (session : String) : List Message :=
  (s.deliveries.rows.filterMap fun d =>
    if d.session = session ∧ d.deliveredAt = none then s.messages.find d.messageId else none)
    |>.insertionSort fun m m' => m.ts ≤ m'.ts

theorem mem_undelivered {s : McpStore} {session : String} {m : Message} :
    m ∈ s.undelivered session ↔ ∃ d ∈ s.deliveries, d.session = session ∧ d.deliveredAt = none ∧
      s.messages.find d.messageId = some m := by
  unfold McpStore.undelivered
  rw [List.mem_insertionSort, List.mem_filterMap]
  refine exists_congr fun d => and_congr_right fun _ => ?_
  rw [Option.ite_none_right_eq_some, and_assoc]

/-- A session has one delivery of a message. -/
theorem nodup_undelivered (s : McpStore) (session : String) :
    ((s.undelivered session).map Message.id).Nodup := by
  unfold undelivered
  refine ((List.perm_insertionSort _ _).map Message.id).nodup_iff.mpr ?_
  rw [List.map_filterMap, List.nodup_iff_pairwise_ne, List.pairwise_filterMap]
  refine (List.pairwise_map.mp s.deliveries.nodup).imp fun {d d'} hkey id hid id' hid' heq => ?_
  obtain ⟨m, hm, rfl⟩ := Option.map_eq_some_iff.mp hid
  obtain ⟨m', hm', rfl⟩ := Option.map_eq_some_iff.mp hid'
  obtain ⟨⟨hsession, -⟩, hfind⟩ := Option.ite_none_right_eq_some.mp hm
  obtain ⟨⟨hsession', -⟩, hfind'⟩ := Option.ite_none_right_eq_some.mp hm'
  refine hkey (Prod.ext ?_ (hsession.trans hsession'.symm))
  have hmid := (Table.find_eq_some_iff.mp hfind).2
  have hmid' := (Table.find_eq_some_iff.mp hfind').2
  exact hmid.symm.trans (heq.trans hmid')

/-- `pendingForSession`: `none` is no filter, otherwise the tag (or none) that is asked for. -/
def pendingForSession (s : McpStore) (session : String) (limit : Nat)
    (tag : Option (Option String)) : List Message :=
  ((s.undelivered session).filter fun m => tag.all (m.toTag = ·)).take limit

/-- `pendingRoutings`. -/
def pendingRoutings (s : McpStore) (session : String) (limit : Nat) : List Message :=
  ((s.undelivered session).filter fun m => m.toTag.isSome).take limit

/-- Set `delivered_at` of deliveries. -/
def deliver (s : McpStore) (which : Delivery → Bool) (now : String) : McpStore :=
  { s with
    deliveries := s.deliveries.update which (fun d => { d with deliveredAt := some now })
      fun _ => rfl }

theorem mem_deliver {s : McpStore} {which : Delivery → Bool} {now : String} {d' : Delivery} :
    d' ∈ (s.deliver which now).deliveries ↔ ∃ d ∈ s.deliveries,
      (if which d then { d with deliveredAt := some now } else d) = d' :=
  @Table.mem_update _ _ Delivery.key s.deliveries which
    (fun d => { d with deliveredAt := some now }) (fun _ => rfl) d'

end McpStore

/-! ## Statements -/

/-- The statements of the server: those of its database, what it does to inbox files, and its
notifications and answers to its client. -/
inductive McpStmt where
  | getThread (threadId : String)
  | upsertThread (t : Thread)
  | lastIncomingTag (threadId session : String)
  | getMessages (threadId : String)
  /-- `INSERT OR IGNORE INTO messages`. -/
  | insertMessage (m : Message)
  /-- `INSERT OR IGNORE INTO message_deliveries`. -/
  | insertDelivery (messageId session : String)
  | appendInbox (session : String) (m : Message)
  /-- What the inbox file has from an offset on, and its size. -/
  | readInbox (session : String) (offset : Nat)
  | pending (session : String) (limit : Nat) (tag : Option (Option String))
  | pendingRoutings (session : String) (limit : Nat)
  | listInbox (session : String) (limit : Nat) (tag : Option (Option String))
  /-- The two statements of `markDelivered`. -/
  | markDelivery (messageId session now : String)
  | markMessage (messageId now : String)
  /-- The `UPDATE` of `decline`. -/
  | decline (threadId session now : String)
  /-- The `UPDATE` of `reject_routing`. -/
  | rejectRoutings (threadId session now : String)
  /-- The two statements of `adoptThread`. -/
  | adoptThread (threadId : String) (initiator : Bool) (newTag : Option String) (now : String)
  | adoptMessages (threadId session : String) (initiator : Bool) (newTag : Option String)
  /-- The `UPDATE` of `reapStaleThreads`; `stale` tells of a time whether it is too long ago. -/
  | reap (stale : String → Bool) (reason now : String)
  /-- The seeding of deliveries in `getDb`. -/
  | seed
  | notify (session messageId : String)
  | respond (session : String)

/-- What a statement answers. -/
@[reducible] def McpStmt.Answer : McpStmt → Type
  | getThread _ => Option Thread
  | lastIncomingTag _ _ => Option String
  | getMessages _ | pending _ _ _ | pendingRoutings _ _ | listInbox _ _ _ => List Message
  | readInbox _ _ => List Message × Nat
  | upsertThread _ | insertMessage _ | insertDelivery _ _ | appendInbox _ _ | markDelivery _ _ _
  | markMessage _ _ | decline _ _ _ | rejectRoutings _ _ _ | adoptThread _ _ _ _
  | adoptMessages _ _ _ _ | reap _ _ _ | seed | notify _ _ | respond _ => Unit

/-- The thread after the `UPDATE` of the reaper. -/
def Thread.reap (t : Thread) (reason now : String) : Thread :=
  { t with
    status := .closed, closedBy := some "auto-reaper", closeReason := some reason, updated := now }

/-- The delivery that a message is seeded with. -/
def Message.seeded (m : Message) : Delivery := ⟨m.id, m.toSession, m.deliveredAt⟩

def McpStmt.exec : (q : McpStmt) → McpStore → q.Answer × McpStore
  | getThread threadId, s => (s.threads.find threadId, s)
  | upsertThread t, s => ((), s.upsertThread t)
  | lastIncomingTag threadId session, s => (s.lastIncomingTag threadId session, s)
  | getMessages threadId, s => (s.getMessages threadId, s)
  | insertMessage m, s => ((), { s with messages := s.messages.insertOrIgnore m })
  | insertDelivery messageId session, s =>
      ((), { s with deliveries := s.deliveries.insertOrIgnore ⟨messageId, session, none⟩ })
  | appendInbox session m, s =>
      ((), { s with inbox := fun f => if f = session then s.inbox f ++ [m] else s.inbox f })
  | readInbox session offset, s =>
      (((s.inbox session).drop offset, (s.inbox session).length), s)
  | pending session limit tag, s => (s.pendingForSession session limit tag, s)
  | pendingRoutings session limit, s => (s.pendingRoutings session limit, s)
  | listInbox session limit tag, s => (s.listInboxMessages session limit tag, s)
  | markDelivery messageId session now, s =>
      ((), s.deliver (fun d => d.messageId = messageId && d.session = session) now)
  | markMessage messageId now, s =>
      ((), { s with
        messages := s.messages.update (fun m => m.id = messageId)
          (fun m => { m with deliveredAt := some now }) fun _ => rfl })
  | decline threadId session now, s =>
      ((), s.deliver (fun d => d.session = session && d.deliveredAt.isNone &&
        s.messages.rows.any fun m => m.id = d.messageId && m.threadId = threadId) now)
  | rejectRoutings threadId session now, s =>
      ((), s.deliver (fun d => d.session = session && d.deliveredAt.isNone &&
        s.messages.rows.any fun m => m.id = d.messageId && m.threadId = threadId &&
          m.toSession = session && m.toTag.isSome) now)
  | adoptThread threadId initiator newTag now, s =>
      ((), { s with
        threads := s.threads.update (fun t => t.id = threadId)
          (fun t => if initiator then { t with fromTag := newTag, updated := now }
            else { t with toTag := newTag, updated := now }) fun t => by split <;> rfl })
  | adoptMessages threadId session initiator newTag, s =>
      ((), { s with
        messages := if initiator then
            s.messages.update (fun m => m.threadId = threadId && m.fromSession = session)
              (fun m => { m with fromTag := newTag }) fun _ => rfl
          else
            s.messages.update (fun m => m.threadId = threadId && m.toSession = session)
              (fun m => { m with toTag := newTag }) fun _ => rfl })
  | reap stale reason now, s =>
      ((), { s with
        threads := s.threads.update (fun t => t.status = .opened && stale t.updated)
          (fun t => t.reap reason now) fun _ => rfl })
  | seed, s =>
      ((), { s with
        deliveries := (s.messages.rows.map Message.seeded).foldl Table.insertOrIgnore s.deliveries })
  | notify session messageId, s => ((), { s with shown := s.shown ++ [(session, messageId)] })
  | respond _, s => ((), s)

instance : Database McpStore McpStmt.Answer := ⟨McpStmt.exec⟩

/-- Programs of these statements. -/
abbrev McpProg (α : Type) : Type := Prog McpStmt.Answer α

/-- The worlds they run in. -/
abbrev McpWorld : Type := World McpStore McpStmt.Answer

end EighthLayer.CrosstalkMcp
