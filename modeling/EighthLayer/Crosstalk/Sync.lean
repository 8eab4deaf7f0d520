import EighthLayer.Crosstalk.Retry
import EighthLayer.Lib.Crash
import Mathlib.Data.List.Sort

/-!
# EighthLayer.Crosstalk.Sync

The copy of a machine's crosstalk at its L2. What is sent, replied and closed on the machine is
posted to the L2 as well; what fails is queued in `pending_l2_sync`, and drains try it again.

The sessions of the machine share the queue and the API key. A drain reads the rows that it goes
through once, at its start; calls and other drains may come between its attempts.
-/

namespace EighthLayer.Crosstalk

open Lib

/-! ## Operations -/

/-- The arguments of `syncMessageToL2`, `syncReplyToL2` and `syncCloseToL2`; also the columns `op`
and `payload` of a queued row. -/
inductive SyncOp where
  | sendMessage (threadId messageId to_ content : String) (persona subject : Option String)
  | reply (threadId messageId content : String) (persona : Option String)
  | closeThread (threadId : String) (reason : Option String)
deriving DecidableEq

/-- The id of the message that an operation is about. -/
def SyncOp.messageId : SyncOp → Option String
  | sendMessage _ messageId _ _ _ _ => some messageId
  | reply _ messageId _ _ => some messageId
  | closeThread _ _ => none

def SyncOp.isSend : SyncOp → Bool
  | sendMessage .. => true
  | reply .. | closeThread .. => false

def SyncOp.isReply : SyncOp → Bool
  | reply .. => true
  | sendMessage .. | closeThread .. => false

def SyncOp.isClose : SyncOp → Bool
  | closeThread .. => true
  | sendMessage .. | reply .. => false

/-- The request that an operation is posted as; `none` where the L2 does not take its content. -/
def SyncOp.request (username : String) : SyncOp → Option CrosstalkCall
  | sendMessage threadId messageId to_ content persona subject =>
    if h : content ≠ "" then
      some (.send username
        ⟨to_, content, persona, subject.getD "", some threadId, some messageId, h⟩)
    else none
  | reply threadId messageId content persona =>
    if h : content ≠ "" then
      some (.reply username threadId ⟨content, persona, some messageId, h⟩)
    else none
  | closeThread threadId reason => some (.close username threadId reason)

/-! ## Posting -/

/-- What an attempt meets at the L2: the time, the random ids, and, where it fails on the way,
how many of its statements have been executed by then. -/
structure Attempt where
  now : String
  newThreadId : String
  newMessageId : String
  cut : Option Nat

/-- `resp.ok`. -/
def CrosstalkResponse.ok : CrosstalkResponse → Bool
  | sent .. | closed _ => true
  | refused _ => false

/-- `l2Post`: whether it succeeds, and what it leaves at the L2. -/
def l2Post (site : Site) (username : String) (op : SyncOp) (a : Attempt) (s : CrosstalkStore) :
    Bool × CrosstalkStore :=
  match op.request username with
  | none => (false, s)
  | some call =>
    let route := call.prog (site.again a.now a.newThreadId a.newMessageId)
    match a.cut with
    | some n => (false, route.cut n s)
    | none => ((route.alone s).1.ok, (route.alone s).2)

/-! ## The queue -/

/-- A row of `pending_l2_sync`. -/
structure PendingRow where
  id : Nat
  op : SyncOp
  createdAt : String
  attempts : Nat
deriving DecidableEq

/-- What rows are ordered by: `attempts ASC, created_at ASC`. -/
def PendingRow.order (r : PendingRow) : Lex (Nat × String) := toLex (r.attempts, r.createdAt)

/-- The table `pending_l2_sync`, with the next id that it gives out. -/
structure PendingQueue where
  rows : Table PendingRow.id
  nextId : Nat
  issued : ∀ r ∈ rows, r.id < nextId

namespace PendingQueue

def empty : PendingQueue := ⟨.empty, 1, by simp⟩

/-- `enqueuePendingL2Sync`, after a first attempt that has failed. -/
def enqueue (q : PendingQueue) (op : SyncOp) (now : String) : PendingQueue where
  rows :=
    { rows := q.rows.rows ++ [⟨q.nextId, op, now, 1⟩]
      nodup := by
        rw [List.map_append, List.map_singleton]
        refine List.nodup_append.mpr ⟨q.rows.nodup, List.nodup_singleton _, ?_⟩
        intro k hk k' hk'
        obtain ⟨r, hr, rfl⟩ := List.mem_map.mp hk
        rw [List.mem_singleton.mp hk']
        exact (q.issued r hr).ne }
  nextId := q.nextId + 1
  issued := by
    intro r hr
    rcases List.mem_append.mp hr with hr | hr
    · exact Nat.lt_succ_of_lt (q.issued r hr)
    · rw [List.mem_singleton.mp hr]
      exact Nat.lt_succ_self _

/-- `listPendingL2Sync`. -/
def list (q : PendingQueue) (limit : Nat) : List PendingRow :=
  (q.rows.rows.insertionSort fun r r' => r.order ≤ r'.order).take limit

/-- `deletePendingL2Sync`. -/
def delete (q : PendingQueue) (id : Nat) : PendingQueue where
  rows := q.rows.delete fun r => r.id = id
  nextId := q.nextId
  issued := fun r hr => q.issued r (Table.mem_delete.mp hr).1

/-- A row after an attempt that has failed. -/
def bumped (r : PendingRow) : PendingRow := { r with attempts := r.attempts + 1 }

theorem bumped_id (r : PendingRow) : (bumped r).id = r.id := rfl

/-- `bumpPendingL2SyncAttempt`. -/
def bump (q : PendingQueue) (id : Nat) : PendingQueue where
  rows := q.rows.update (fun r => r.id = id) bumped bumped_id
  nextId := q.nextId
  issued := by
    intro r hr
    obtain ⟨r', hr', rfl⟩ := Table.mem_update.mp hr
    split
    · exact q.issued r' hr'
    · exact q.issued r' hr'

theorem mem_enqueue {q : PendingQueue} {op : SyncOp} {now : String} {r : PendingRow} :
    r ∈ (q.enqueue op now).rows ↔ r ∈ q.rows ∨ r = ⟨q.nextId, op, now, 1⟩ := by
  simp [Table.mem_def, enqueue]

theorem mem_delete {q : PendingQueue} {id : Nat} {r : PendingRow} :
    r ∈ (q.delete id).rows ↔ r ∈ q.rows ∧ r.id ≠ id := by
  simp [delete, Table.mem_delete]

theorem mem_bump {q : PendingQueue} {id : Nat} {r : PendingRow} :
    r ∈ (q.bump id).rows ↔ ∃ r' ∈ q.rows, (if r'.id = id then bumped r' else r') = r := by
  have hupdate := @Table.mem_update _ _ _ q.rows (fun r => decide (r.id = id)) bumped bumped_id r
  simp only [decide_eq_true_eq] at hupdate
  exact hupdate

theorem mem_of_list {q : PendingQueue} {limit : Nat} {r : PendingRow} (h : r ∈ q.list limit) :
    r ∈ q.rows :=
  (List.mem_insertionSort _).mp (List.mem_of_mem_take h)

end PendingQueue

/-! ## The machine and its L2 -/

/-- `MAX_ATTEMPTS`. -/
def maxAttempts : Nat := 10

/-- How many rows a drain goes through. -/
def drainLimit : Nat := 50

/-- The state of the machine and of its L2. -/
structure SyncState where
  /-- What has been done on the machine, which comes before the L2 is told. -/
  done : List SyncOp
  l2 : CrosstalkStore
  queue : PendingQueue
  /-- The rows that every drain is still to go through. -/
  drains : Nat → List PendingRow

/-- What happens next: a call of one of the three functions, a drain that reads its rows, or its
attempt at the next one of them. -/
inductive SyncStep where
  | call (op : SyncOp) (a : Attempt) (now : String)
  | list (drain : Nat)
  | retry (drain : Nat) (a : Attempt)

/-- The operation of a call. -/
def SyncStep.op : SyncStep → Option SyncOp
  | call op _ _ => some op
  | list _ | retry _ _ => none

namespace SyncState

/-- `syncMessageToL2`, `syncReplyToL2` and `syncCloseToL2`. -/
def sync (site : Site) (username : String) (S : SyncState) (op : SyncOp) (a : Attempt)
    (now : String) : SyncState :=
  let posted := l2Post site username op a S.l2
  { S with
    done := S.done ++ [op]
    l2 := posted.2
    queue := if posted.1 then S.queue else S.queue.enqueue op now }

/-- The body of the loop of `drainPendingSync`. -/
def retry (site : Site) (username : String) (S : SyncState) (drain : Nat) (a : Attempt) :
    SyncState :=
  match S.drains drain with
  | [] => S
  | row :: rest =>
    let drains := fun i => if i = drain then rest else S.drains i
    -- a row that is stuck
    if maxAttempts ≤ row.attempts then { S with drains }
    else
      let posted := l2Post site username row.op a S.l2
      { S with
        l2 := posted.2
        queue := if posted.1 then S.queue.delete row.id else S.queue.bump row.id
        drains }

/-- One step. -/
def step (site : Site) (username : String) (S : SyncState) : SyncStep → SyncState
  | .call op a now => S.sync site username op a now
  | .list drain =>
    { S with drains := fun i => if i = drain then S.queue.list drainLimit else S.drains i }
  | .retry drain a => S.retry site username drain a

/-- A run. -/
def run (site : Site) (username : String) (S : SyncState) (steps : List SyncStep) : SyncState :=
  steps.foldl (step site username) S

/-- A machine that has done nothing yet. -/
def fresh (l2 : CrosstalkStore) : SyncState := ⟨[], l2, .empty, fun _ => []⟩

end SyncState

end EighthLayer.Crosstalk
