import EighthLayer.Crosstalk.Sync
import EighthLayer.Lib.Runs
import Mathlib.Algebra.GroupWithZero.Nat
import Mathlib.Algebra.Order.BigOperators.Group.List

/-!
# EighthLayer.Crosstalk.Convergence

When the copy of a thread at the L2 comes to be what the machine has.

An operation that has failed is tried again until it succeeds or is stuck, and what comes after it
does not wait. A reply that is overtaken by the close of its thread is refused for good, and so is
a close whose answer was lost. Where every close comes in turn and is answered, where no operation
fails for the tenth time, and where a message that is tried again is found among the first of its
thread, the queue runs empty and the copies agree (`mirror_converges`).
-/

namespace EighthLayer.Crosstalk

open Lib

/-! ## The thread on the machine -/

/-- A message of the machine. -/
structure LocalMessage where
  id : String
  persona : Option String
  content : String
deriving DecidableEq

/-- A thread of the machine: the message it was opened with, the replies in their order, and the
reason it was closed for if it was. -/
structure LocalThread where
  threadId : String
  to_ : String
  subject : Option String
  send : LocalMessage
  replies : List LocalMessage
  close : Option (Option String)
  named : threadId ≠ ""
  ids : ∀ x ∈ send :: replies, x.id ≠ ""
  nodup : ((send :: replies).map LocalMessage.id).Nodup

namespace LocalThread

variable (th : LocalThread)

def messages : List LocalMessage := th.send :: th.replies

def sendOp : SyncOp :=
  .sendMessage th.threadId th.send.id th.to_ th.send.content th.send.persona th.subject

def replyOp (x : LocalMessage) : SyncOp := .reply th.threadId x.id x.content x.persona

/-- The calls that follow the thread. -/
def ops : List SyncOp :=
  th.sendOp :: (th.replies.map th.replyOp ++ (th.close.map (.closeThread th.threadId)).toList)

variable {th}

theorem mem_ops {op : SyncOp} :
    op ∈ th.ops ↔ op = th.sendOp ∨ (∃ x ∈ th.replies, op = th.replyOp x) ∨
      ∃ reason, th.close = some reason ∧ op = .closeThread th.threadId reason := by
  simp [ops, eq_comm]

theorem ops_nodup : th.ops.Nodup := by
  have hids : (th.replies.map th.replyOp).Nodup := by
    refine List.Nodup.of_map SyncOp.messageId ?_
    rw [List.map_map]
    have hreplies : (th.replies.map fun x => some x.id).Nodup := by
      have hnodup := (List.nodup_cons.mp th.nodup).2
      have hsome : th.replies.map (fun x => some x.id) =
          (th.replies.map LocalMessage.id).map some := by
        rw [List.map_map]
        rfl
      rw [hsome]
      exact hnodup.map (Option.some_injective String)
    exact hreplies
  unfold ops
  refine List.nodup_cons.mpr ⟨?_, List.nodup_append.mpr ⟨hids, ?_, ?_⟩⟩
  · simp [sendOp, replyOp]
  · cases th.close with
    | none => exact List.nodup_nil
    | some reason => exact List.nodup_singleton _
  · intro op hop op' hop'
    obtain ⟨x, -, rfl⟩ := List.mem_map.mp hop
    obtain ⟨reason, -, rfl⟩ := Option.map_eq_some_iff.mp (Option.mem_toList.mp hop')
    exact fun h => nomatch h

/-- The close comes last. -/
theorem ops_pairwise : th.ops.Pairwise fun op _ => op.isClose = false := by
  unfold ops
  refine List.pairwise_cons.mpr ⟨fun _ _ => rfl, List.pairwise_append.mpr ⟨?_, ?_, ?_⟩⟩
  · exact List.pairwise_map.mpr (List.pairwise_of_forall fun _ _ => rfl)
  · cases th.close with
    | none => exact List.Pairwise.nil
    | some reason => exact List.pairwise_singleton _ _
  · intro op hop _ _
    obtain ⟨x, -, rfl⟩ := List.mem_map.mp hop
    rfl

/-- What comes before something else is no close. -/
theorem isClose_of_more {done rest : List SyncOp} (hfollows : done ++ rest = th.ops)
    (hrest : rest ≠ []) {op : SyncOp} (hop : op ∈ done) : op.isClose = false := by
  obtain ⟨next, rest, rfl⟩ := List.exists_cons_of_ne_nil hrest
  have hpairwise := hfollows ▸ th.ops_pairwise
  exact (List.pairwise_append.mp hpairwise).2.2 op hop next List.mem_cons_self

/-- After the close nothing is left to be done. -/
theorem eq_ops_of_isClose {done : List SyncOp} (hfollows : done <+: th.ops) {op : SyncOp}
    (hop : op ∈ done) (hclose : op.isClose = true) : done = th.ops := by
  obtain ⟨rest, hrest⟩ := hfollows
  by_cases hnil : rest = []
  · rw [hnil, List.append_nil] at hrest
    exact hrest
  · rw [isClose_of_more hrest hnil hop] at hclose
    cases hclose

/-- There is one close. -/
theorem eq_of_isClose {op op' : SyncOp} (hop : op ∈ th.ops) (hop' : op' ∈ th.ops)
    (hclose : op.isClose = true) (hclose' : op'.isClose = true) : op = op' := by
  rcases mem_ops.mp hop with rfl | ⟨x, -, rfl⟩ | ⟨reason, hreason, rfl⟩
  · cases hclose
  · cases hclose
  · rcases mem_ops.mp hop' with rfl | ⟨x, -, rfl⟩ | ⟨reason', hreason', rfl⟩
    · cases hclose'
    · cases hclose'
    · rw [Option.some.inj (hreason.symm.trans hreason')]

end LocalThread

/-- A message of the L2, as the machine has it. -/
def Message.asLocal (m : Message) : LocalMessage := ⟨m.id, m.fromPersona, m.content⟩

/-- The L2 has a copy of the thread: the same messages, and closed if it is. -/
structure Copied (th : LocalThread) (s : CrosstalkStore) : Prop where
  status : ∃ t, s.threads.find th.threadId = some t ∧
    (t.status = .closed ↔ th.close.isSome = true)
  messages : ∀ x, x ∈ th.messages ↔
    ∃ m ∈ s.messages, m.threadId = th.threadId ∧ m.asLocal = x

/-- Nothing is left to be done. -/
def Converged (th : LocalThread) (S : SyncState) : Prop :=
  S.queue.rows.rows = [] ∧ Copied th S.l2

/-! ## What the L2 holds -/

/-- The message with the id is in the thread at the L2. -/
def Held (th : LocalThread) (s : CrosstalkStore) (id : String) : Prop :=
  ∃ m ∈ s.messages.rows, m.threadId = th.threadId ∧ m.id = id

instance (th : LocalThread) (s : CrosstalkStore) (id : String) : Decidable (Held th s id) :=
  inferInstanceAs (Decidable (∃ m ∈ s.messages.rows, m.threadId = th.threadId ∧ m.id = id))

/-- The thread is there with the status. -/
def HasStatus (th : LocalThread) (s : CrosstalkStore) (status : ThreadStatus) : Prop :=
  (s.threads.find th.threadId).map Thread.status = some status

instance (th : LocalThread) (s : CrosstalkStore) (status : ThreadStatus) :
    Decidable (HasStatus th s status) :=
  inferInstanceAs (Decidable (_ = _))

/-- The L2 holds nothing of the thread but what the machine has posted. -/
structure Mirrors (scope : Scope) (username : String) (th : LocalThread) (s : CrosstalkStore) :
    Prop where
  thread : ∀ t, s.threads.find th.threadId = some t →
    t.inScope scope = true ∧ username ∈ t.participants
  messages : ∀ m ∈ s.messages, m.threadId = th.threadId →
    m.inScope scope = true ∧ m.asLocal ∈ th.messages
  ids : ∀ m ∈ s.messages, m.id ∈ th.messages.map LocalMessage.id → m.threadId = th.threadId

/-- What an attempt may do to the L2, a close apart. -/
structure Advances (scope : Scope) (username : String) (th : LocalThread) (s s' : CrosstalkStore) :
    Prop where
  grows : s.Grows s'
  mirrors : Mirrors scope username th s'
  closed : HasStatus th s' .closed → HasStatus th s .closed

/-- A message of the thread that is there is among the first of it. -/
def EarlyOf (scope : Scope) (th : LocalThread) (s : CrosstalkStore) (id : String) : Prop :=
  ∀ m ∈ s.messages.rows, m.threadId = th.threadId → m.id = id → Early s scope m

instance (scope : Scope) (s : CrosstalkStore) (m : Message) : Decidable (Early s scope m) :=
  inferInstanceAs (Decidable (_ < _))

instance (scope : Scope) (th : LocalThread) (s : CrosstalkStore) (id : String) :
    Decidable (EarlyOf scope th s id) :=
  inferInstanceAs (Decidable (∀ m ∈ s.messages.rows, m.threadId = th.threadId → m.id = id →
    Early s scope m))

section Held

variable {scope : Scope} {username : String} {th : LocalThread} {s s' : CrosstalkStore}
  {x : LocalMessage}

theorem Held.grows {id : String} (h : Held th s id) (hgrows : s.Grows s') : Held th s' id := by
  obtain ⟨m, hm, hrow⟩ := h
  exact ⟨m, hgrows.messages m hm, hrow⟩

theorem HasStatus.closed_grows (h : HasStatus th s .closed) (hgrows : s.Grows s') :
    HasStatus th s' .closed := by
  obtain ⟨t, ht, hclosed⟩ := Option.map_eq_some_iff.mp h
  obtain ⟨t', ht', -, -, -, hsame⟩ := hgrows.threads _ t ht
  rw [hsame hclosed] at ht'
  exact Option.map_eq_some_iff.mpr ⟨t, ht', hclosed⟩

theorem Advances.refl (h : Mirrors scope username th s) : Advances scope username th s s :=
  ⟨.refl s, h, id⟩

theorem Advances.trans {s'' : CrosstalkStore} (h : Advances scope username th s s')
    (h' : Advances scope username th s' s'') : Advances scope username th s s'' :=
  ⟨h.grows.trans h'.grows, h'.mirrors, fun hclosed => h.closed (h'.closed hclosed)⟩

/-- The user sees the thread. -/
theorem Mirrors.getThread (h : Mirrors scope username th s) :
    s.getThread th.threadId scope = s.threads.find th.threadId := by
  cases ht : s.threads.find th.threadId with
  | none =>
      unfold CrosstalkStore.getThread
      rw [ht, Option.filter_none]
  | some t => exact CrosstalkStore.getThread_eq_some_iff.mpr ⟨ht, (h.thread t ht).1⟩

/-- A message of the machine is held wherever its id is taken. -/
theorem Mirrors.held_of_taken (h : Mirrors scope username th s) (hx : x ∈ th.messages)
    {m : Message} (hm : m ∈ s.messages) (hid : m.id = x.id) : Held th s x.id :=
  ⟨m, hm, h.ids m hm (hid ▸ List.mem_map_of_mem hx), hid⟩

/-- One that is held is the one that is meant. -/
theorem Mirrors.asLocal_of_held (h : Mirrors scope username th s) (hx : x ∈ th.messages)
    (hheld : Held th s x.id) : ∃ m ∈ s.messages, m.threadId = th.threadId ∧ m.asLocal = x := by
  obtain ⟨m, hm, hthread, hid⟩ := hheld
  refine ⟨m, hm, hthread, ?_⟩
  exact List.inj_on_of_nodup_map th.nodup (h.messages m hm hthread).2 hx hid

/-- The thread is there where a message of it is. -/
theorem thread_of_held {id : String} (h : Held th s id) :
    ∃ t, s.threads.find th.threadId = some t := by
  obtain ⟨m, hm, hthread, -⟩ := h
  obtain ⟨t, ht, hid⟩ := s.foreignKey m hm
  exact ⟨t, Table.find_eq_some_iff.mpr ⟨ht, hid.trans hthread⟩⟩

/-- Creating the thread. -/
theorem Mirrors.advances_createThread (h : Mirrors scope username th s) {t : Thread}
    (hs' : s.createThread t = some s') (hid : t.id = th.threadId) (hopen : t.status = .opened)
    (hscope : t.inScope scope = true) (hparts : username ∈ t.participants) :
    Advances scope username th s s' := by
  obtain ⟨hins, hmessages⟩ := CrosstalkStore.createThread_eq_some hs'
  have hfind : s'.threads.find th.threadId = some t := hid ▸ Table.find_insert_self hins
  refine ⟨?_, ⟨?_, ?_, ?_⟩, ?_⟩
  · have hexec : ((CrosstalkStmt.createThread t).exec s).2 = s' := by
      unfold CrosstalkStmt.exec
      simp only [hs']
    exact hexec ▸ CrosstalkStmt.grows_exec (.createThread t) s
  · intro t' ht'
    obtain rfl := Option.some.inj (hfind.symm.trans ht')
    exact ⟨hscope, hparts⟩
  · rw [hmessages]
    exact h.messages
  · rw [hmessages]
    exact h.ids
  · intro hclosed
    unfold HasStatus at hclosed
    rw [hfind, Option.map_some, hopen] at hclosed
    cases hclosed

/-- Adding a message of the machine. -/
theorem Mirrors.advances_appendMessage (h : Mirrors scope username th s) {m : Message}
    (hs' : s.appendMessage m = some s') (hthread : m.threadId = th.threadId)
    (hscope : m.inScope scope = true) (hlocal : m.asLocal ∈ th.messages) :
    Advances scope username th s s' := by
  obtain ⟨hins, hthreads⟩ := CrosstalkStore.appendMessage_eq_some hs'
  refine ⟨?_, ⟨?_, ?_, ?_⟩, ?_⟩
  · have hexec : ((CrosstalkStmt.appendMessage m).exec s).2 = s' := by
      unfold CrosstalkStmt.exec
      simp only [hs']
    exact hexec ▸ CrosstalkStmt.grows_exec (.appendMessage m) s
  · rw [hthreads]
    exact h.thread
  · intro m' hm' hthread'
    rcases (Table.mem_insert hins).mp hm' with hm' | rfl
    · exact h.messages m' hm' hthread'
    · exact ⟨hscope, hlocal⟩
  · intro m' hm' hid
    rcases (Table.mem_insert hins).mp hm' with hm' | rfl
    · exact h.ids m' hm' hid
    · exact hthread
  · unfold HasStatus
    rw [hthreads]
    exact id

/-- The lookup finds a message that is early. -/
theorem find_of_early {threadId messageId : String} {m : Message} (hm : m ∈ s.messages)
    (hthread : m.threadId = threadId) (hid : m.id = messageId) (hscope : m.inScope scope = true)
    (hearly : Early s scope m) :
    (s.listMessages threadId scope duplicateLimit).find? (fun m => m.id = messageId) ≠ none := by
  subst hthread
  have hlisted : m ∈ s.listed m.threadId scope := CrosstalkStore.mem_listed.mpr ⟨hm, rfl, hscope⟩
  have hmem := (CrosstalkStore.mem_listMessages_iff hlisted).mpr hearly
  intro hnone
  exact List.find?_eq_none.mp hnone m hmem (decide_eq_true hid)

end Held

/-! ## One attempt -/

section Attempt

variable {P : CrosstalkStore → Prop} {R : CrosstalkResponse → CrosstalkStore → Prop}
  {s : CrosstalkStore}

theorem through_append {m : Message} (hP : P s) (hthread : s.threads.find m.threadId ≠ none)
    (htaken : ∀ m' ∈ s.messages, m'.id = m.id → R (.refused .internalError) s)
    (hnew : ∀ s', s.appendMessage m = some s' → P s' ∧ R (.sent m.threadId m.id m.sentAt) s') :
    (append m).Through P R s := by
  unfold append
  cases happend : s.appendMessage m with
  | none =>
      have hexec : (CrosstalkStmt.appendMessage m).exec s = (false, s) := by
        unfold CrosstalkStmt.exec
        simp only [happend]
      have htakenid : ∃ m' ∈ s.messages, m'.id = m.id := by
        unfold CrosstalkStore.appendMessage at happend
        split at happend
        · rename_i hins
          exact Table.insert_eq_none_iff.mp hins
        · rw [dif_neg hthread] at happend
          cases happend
      obtain ⟨m', hm', hid⟩ := htakenid
      exact .call hP hexec (.done hP (htaken m' hm' hid))
  | some s' =>
      have hexec : (CrosstalkStmt.appendMessage m).exec s = (true, s') := by
        unfold CrosstalkStmt.exec
        simp only [happend]
      obtain ⟨hP', hR⟩ := hnew s' happend
      exact .call hP hexec (.done hP' hR)

theorem through_unlessDuplicate {threadId messageId : String} {scope : Scope} {next : RouteProg}
    (hP : P s)
    (hfound : ∀ m ∈ s.messages, m.threadId = threadId → m.id = messageId →
      R (.sent threadId messageId m.sentAt) s)
    (hnext : (∀ m ∈ s.messages, m.threadId = threadId → m.id = messageId →
      m.inScope scope = true → ¬ Early s scope m) → next.Through P R s) :
    (unlessDuplicate threadId messageId scope next).Through P R s := by
  refine .call hP (CrosstalkStmt.exec_listMessages threadId scope duplicateLimit) ?_
  split
  · rename_i m hm
    have hid : m.id = messageId := by simpa using List.find?_some hm
    obtain ⟨hmem, hthread, -⟩ := CrosstalkStore.mem_of_listMessages (List.mem_of_find?_eq_some hm)
    exact .done hP (hfound m hmem hthread hid)
  · rename_i hnone
    exact hnext fun m hm hthread hid hscope hearly =>
      find_of_early hm hthread hid hscope hearly hnone

variable {site : Site} {username : String} {caller : Caller} {th : LocalThread} {x : LocalMessage}

/-- What comes of an attempt to post a message. -/
structure Posted (scope : Scope) (username : String) (th : LocalThread) (x : LocalMessage)
    (s : CrosstalkStore) (free : Prop) (answer : CrosstalkResponse) (s' : CrosstalkStore) :
    Prop where
  advances : Advances scope username th s s'
  held : answer.ok = true → Held th s' x.id
  /-- It succeeds if nothing stands in its way. -/
  succeeds : free → EarlyOf scope th s x.id → answer.ok = true

/-- The append at the end of a send or a reply, when the lookup has not found the message. -/
theorem through_append_local {free : Prop} {s₀ : CrosstalkStore} {m : Message}
    (hadvances : Advances (readScope site caller) username th s₀ s)
    (hmessages : s.messages = s₀.messages) (hx : x ∈ th.messages)
    (hexists : ∃ t, s.threads.find th.threadId = some t) (hthread : m.threadId = th.threadId)
    (hlocal : m.asLocal = x) (hscope : m.inScope (readScope site caller) = true)
    (hlookup : ∀ m' ∈ s₀.messages, m'.threadId = th.threadId → m'.id = x.id →
      m'.inScope (readScope site caller) = true → ¬ Early s₀ (readScope site caller) m') :
    (append m).Through (Advances (readScope site caller) username th s₀)
      (Posted (readScope site caller) username th x s₀ free) s := by
  have hid : m.id = x.id := congrArg LocalMessage.id hlocal
  obtain ⟨t, ht⟩ := hexists
  refine through_append hadvances ?_ ?_ ?_
  · rw [hthread, ht]
    exact Option.some_ne_none t
  · intro m' hm' hid'
    refine ⟨hadvances, fun h => (nomatch h), fun _ hearly => ?_⟩
    -- a message that is there and early would have been found
    have hthread' := hadvances.mirrors.ids m' hm'
      (List.mem_map.mpr ⟨x, hx, (hid'.trans hid).symm⟩)
    have hscope' := (hadvances.mirrors.messages m' hm' hthread').1
    rw [hmessages] at hm'
    exact absurd (hearly m' hm' hthread' (hid'.trans hid))
      (hlookup m' hm' hthread' (hid'.trans hid) hscope')
  · intro s' hs'
    have hadvances' := hadvances.trans
      (hadvances.mirrors.advances_appendMessage hs' hthread hscope (hlocal ▸ hx))
    have hmem := (Table.mem_insert (CrosstalkStore.appendMessage_eq_some hs').1).mpr (.inr rfl)
    exact ⟨hadvances', hadvances', fun _ => ⟨m, hmem, hthread, hid⟩, fun _ _ => rfl⟩

/-- A message that the lookup has not found is not there, or not early. -/
theorem not_early {s₀ : CrosstalkStore} (hm : Mirrors (readScope site caller) username th s₀)
    (hlookup : ∀ m' ∈ s₀.messages, m'.threadId = th.threadId → m'.id = x.id →
      m'.inScope (readScope site caller) = true → ¬ Early s₀ (readScope site caller) m')
    (hheld : Held th s₀ x.id) : ¬ EarlyOf (readScope site caller) th s₀ x.id := by
  obtain ⟨m, hmem, hthread, hid⟩ := hheld
  intro hearly
  exact hlookup m hmem hthread hid (hm.messages m hmem hthread).1 (hearly m hmem hthread hid)

theorem through_sendOn (hm : Mirrors (readScope site caller) username th s)
    {req : SendMessageRequest} (hthread : req.thread site = th.threadId)
    (hlocal : (req.message site caller username).asLocal = x) (hx : x ∈ th.messages)
    (hlookup : ∀ m' ∈ s.messages, m'.threadId = th.threadId → m'.id = x.id →
      m'.inScope (readScope site caller) = true → ¬ Early s (readScope site caller) m') :
    (sendOn site caller username req (s.threads.find th.threadId)).Through
      (Advances (readScope site caller) username th s)
      (Posted (readScope site caller) username th x s
        (HasStatus th s .closed → Held th s x.id)) s := by
  have hadvances := Advances.refl hm
  have hscope : (req.message site caller username).inScope (readScope site caller) = true :=
    inScope_own site caller
  unfold sendOn
  cases ht : s.threads.find th.threadId with
  | none =>
      cases hcreate : s.createThread (req.newThread site caller username) with
      | none =>
          exfalso
          unfold CrosstalkStore.createThread at hcreate
          split at hcreate
          · rename_i hins
            obtain ⟨t, htmem, hkey⟩ := Table.insert_eq_none_iff.mp hins
            exact Table.find_eq_none_iff.mp ht t htmem (hkey.trans hthread)
          · cases hcreate
      | some s₁ =>
          have hexec : (CrosstalkStmt.createThread (req.newThread site caller username)).exec s =
              (true, s₁) := by
            unfold CrosstalkStmt.exec
            simp only [hcreate]
          have hadvances₁ := hm.advances_createThread hcreate hthread rfl (inScope_own site caller)
            List.mem_cons_self
          obtain ⟨hins, hmessages⟩ := CrosstalkStore.createThread_eq_some hcreate
          have hfind : s₁.threads.find (req.thread site) =
              some (req.newThread site caller username) := Table.find_insert_self hins
          rw [hthread] at hfind
          refine .call hadvances hexec ?_
          exact through_append_local hadvances₁ hmessages hx ⟨_, hfind⟩ hthread hlocal hscope
            hlookup
  | some t =>
      have hparts := (hm.thread t ht).2
      dsimp only
      split
      · -- closed without the message
        rename_i hclosed
        have hstatus : HasStatus th s .closed := by
          unfold HasStatus
          rw [ht, Option.map_some]
          cases hst : t.status with
          | opened => exact absurd hst hclosed
          | closed => rfl
        exact .done hadvances ⟨hadvances, fun h => (nomatch h), fun hfree hearly =>
          absurd hearly (not_early hm hlookup (hfree hstatus))⟩
      · exact through_append_local hadvances rfl hx ⟨t, ht⟩ hthread hlocal hscope hlookup

/-- A send of a message of the machine. It is refused where the thread is closed without it. -/
theorem through_sendMessage (hcaller : resolveCaller site username = .ok caller)
    (hm : Mirrors (readScope site caller) username th s) {req : SendMessageRequest}
    (hthread : req.threadId = some th.threadId) (hid : req.messageId = some x.id)
    (hpersona : req.persona = x.persona) (hcontent : req.content = x.content)
    (hfound : recipientFound site caller req.to_ = true) (hx : x ∈ th.messages) :
    (sendMessage site username req).Through (Advances (readScope site caller) username th s)
      (Posted (readScope site caller) username th x s
        (HasStatus th s .closed → Held th s x.id)) s := by
  have hadvances := Advances.refl hm
  have hthread' : req.thread site = th.threadId := by
    unfold SendMessageRequest.thread pyOr
    rw [hthread]
    exact if_neg th.named
  have hid' : (req.message site caller username).id = x.id := by
    show pyOr req.messageId site.newMessageId = x.id
    rw [hid]
    exact if_neg (th.ids x hx)
  have hlocal : (req.message site caller username).asLocal = x := by
    show LocalMessage.mk (req.message site caller username).id req.persona req.content = x
    rw [hid', hpersona, hcontent]
  have hsome : req.threadId ≠ none := hthread ▸ Option.some_ne_none _
  have hsome' : req.messageId ≠ none := hid ▸ Option.some_ne_none _
  have hfresh : (∀ m' ∈ s.messages, m'.threadId = th.threadId → m'.id = x.id →
      m'.inScope (readScope site caller) = true → ¬ Early s (readScope site caller) m') →
      (sendFresh site caller username req).Through
        (Advances (readScope site caller) username th s)
        (Posted (readScope site caller) username th x s
          (HasStatus th s .closed → Held th s x.id)) s := by
    intro hlookup
    unfold sendFresh
    rw [if_pos hsome, hthread']
    refine .call hadvances (CrosstalkStmt.exec_getThread _ _) ?_
    rw [hm.getThread]
    exact through_sendOn hm hthread' hlocal hx hlookup
  unfold sendMessage
  simp only [hcaller, hfound, Bool.not_true, Bool.false_eq_true, if_false, if_pos hsome', hid']
  rw [hthread']
  refine .call hadvances (CrosstalkStmt.exec_getThread _ _) ?_
  rw [hm.getThread]
  cases ht : s.threads.find th.threadId with
  | none =>
      refine hfresh fun m hmem hmthread _ _ => ?_
      obtain ⟨t, htmem, hkey⟩ := s.foreignKey m hmem
      exact absurd (hkey.trans hmthread) (Table.find_eq_none_iff.mp ht t htmem)
  | some t =>
      refine through_unlessDuplicate hadvances ?_ hfresh
      intro m hmem hmthread hmid
      exact ⟨hadvances, fun _ => ⟨m, hmem, hmthread, hmid⟩, fun _ _ => rfl⟩

/-- A reply with a message of the machine. It needs the thread to be open. -/
theorem through_replyOnThread (hcaller : resolveCaller site username = .ok caller)
    (hm : Mirrors (readScope site caller) username th s) {req : ReplyRequest}
    (hid : req.messageId = some x.id) (hpersona : req.persona = x.persona)
    (hcontent : req.content = x.content) (hx : x ∈ th.messages) :
    (replyOnThread site username th.threadId req).Through
      (Advances (readScope site caller) username th s)
      (Posted (readScope site caller) username th x s (HasStatus th s .opened)) s := by
  have hadvances := Advances.refl hm
  have hsome : req.messageId ≠ none := hid ▸ Option.some_ne_none _
  unfold replyOnThread
  simp only [hcaller]
  refine .call hadvances (CrosstalkStmt.exec_getThread _ _) ?_
  rw [hm.getThread]
  cases ht : s.threads.find th.threadId with
  | none =>
      refine .done hadvances ⟨hadvances, fun h => (nomatch h), fun hopen => ?_⟩
      unfold HasStatus at hopen
      rw [ht] at hopen
      cases hopen
  | some t =>
      have hparts := (hm.thread t ht).2
      have hthread : t.id = th.threadId := (Table.find_eq_some_iff.mp ht).2
      have hid' : (req.message site caller username t).id = x.id := by
        show pyOr req.messageId site.newMessageId = x.id
        rw [hid]
        exact if_neg (th.ids x hx)
      have hlocal : (req.message site caller username t).asLocal = x := by
        show LocalMessage.mk (req.message site caller username t).id req.persona req.content = x
        rw [hid', hpersona, hcontent]
      have hscope : (req.message site caller username t).inScope (readScope site caller) = true :=
        inScope_own site caller
      have hadmitted : ¬ (username ∉ t.participants ∧ isAdminRole caller.role = false) :=
        fun h => h.1 hparts
      dsimp only
      split
      · rename_i hclosed
        refine .done hadvances ⟨hadvances, fun h => (nomatch h), fun hopen => ?_⟩
        unfold HasStatus at hopen
        rw [ht, Option.map_some] at hopen
        exact absurd (Option.some.inj hopen) hclosed
      · rw [hthread, hid']
        refine through_unlessDuplicate hadvances ?_ fun hlookup => ?_
        · intro m hmem hmthread hmid
          exact ⟨hadvances, fun _ => ⟨m, hmem, hmthread, hmid⟩, fun _ _ => rfl⟩
        · exact through_append_local hadvances rfl hx ⟨t, ht⟩ hthread hlocal hscope hlookup

/-- Whether an attempt at a close gets to its `UPDATE`. -/
def Attempt.reaches (a : Attempt) : Bool := a.cut.all (2 ≤ ·)

/-- The `UPDATE` of a close. -/
theorem Mirrors.closeThread {scope : Scope} (hm : Mirrors scope username th s)
    (closedBy closedAt : String) (reason : Option String) :
    Mirrors scope username th (s.closeThread th.threadId closedBy closedAt reason scope).2 where
  thread := by
    intro t ht
    rw [CrosstalkStore.closeThread_find] at ht
    obtain ⟨t₀, ht₀, rfl⟩ := Option.map_eq_some_iff.mp ht
    have hown := hm.thread t₀ ht₀
    split
    · exact hown
    · exact hown
  messages := hm.messages
  ids := hm.ids

/-- What a close may do to the L2. -/
structure MayClose (scope : Scope) (username : String) (th : LocalThread) (s s' : CrosstalkStore) :
    Prop where
  grows : s.Grows s'
  mirrors : Mirrors scope username th s'
  closed : HasStatus th s' .closed → HasStatus th s .closed ∨ HasStatus th s .opened

theorem through_closeThread (hcaller : resolveCaller site username = .ok caller)
    (hm : Mirrors (readScope site caller) username th s) (reason : Option String) :
    (closeThread site username th.threadId reason).Through
      (MayClose (readScope site caller) username th s)
      (fun answer s' => MayClose (readScope site caller) username th s s' ∧
        (answer.ok = true → HasStatus th s' .closed) ∧
          (HasStatus th s .opened → answer.ok = true)) s := by
  have hstays : MayClose (readScope site caller) username th s s := ⟨.refl s, hm, .inl⟩
  unfold closeThread
  simp only [hcaller]
  refine .call hstays (CrosstalkStmt.exec_getThread _ _) ?_
  rw [hm.getThread]
  cases ht : s.threads.find th.threadId with
  | none =>
      refine .done hstays ⟨hstays, fun h => (nomatch h), fun hopen => ?_⟩
      unfold HasStatus at hopen
      rw [ht] at hopen
      cases hopen
  | some t =>
      obtain ⟨hscope, hparts⟩ := hm.thread t ht
      have hadmitted : ¬ (username ∉ t.participants ∧ isAdminRole caller.role = false) :=
        fun h => h.1 hparts
      have hthere : HasStatus th s .closed ∨ HasStatus th s .opened := by
        unfold HasStatus
        rw [ht, Option.map_some]
        cases t.status with
        | opened => exact .inr rfl
        | closed => exact .inl rfl
      have hcloses : MayClose (readScope site caller) username th s
          (CrosstalkStmt.exec (.closeThread th.threadId username site.now reason
            (readScope site caller)) s).2 :=
        ⟨CrosstalkStmt.grows_exec _ s, hm.closeThread username site.now reason, fun _ => hthere⟩
      dsimp only
      rw [if_neg hadmitted]
      refine .next hstays ?_
      cases hwon : (Database.exec (A := CrosstalkStmt.Answer)
          (.closeThread th.threadId username site.now reason (readScope site caller)) s).1 with
      | true =>
          obtain ⟨t', ht', hclosed⟩ := CrosstalkStmt.closed_of_closeThread hwon
          refine .done hcloses ⟨hcloses, fun _ => ?_, fun _ => rfl⟩
          exact Option.map_eq_some_iff.mpr ⟨t', ht', hclosed⟩
      | false =>
          refine .done hcloses ⟨hcloses, fun h => (nomatch h), fun hopen => ?_⟩
          -- an open thread is one that the update reaches
          obtain ⟨t', ht', hstatus⟩ := Option.map_eq_some_iff.mp hopen
          obtain rfl := Option.some.inj (ht.symm.trans ht')
          obtain ⟨hmem, hkey⟩ := Table.find_eq_some_iff.mp ht
          have hclosable : t.closable th.threadId (readScope site caller) = true := by
            unfold Thread.closable
            rw [hscope, hstatus]
            simp [hkey]
          have hany := List.any_eq_true.mpr ⟨t, hmem, hclosable⟩
          exact absurd (hany.symm.trans hwon) (by decide)

/-- Until it gets to the `UPDATE`, a close changes nothing. -/
theorem cut_closeThread (hcaller : resolveCaller site username = .ok caller)
    (threadId : String) (reason : Option String) {n : Nat} (hn : n < 2) :
    (closeThread site username threadId reason).cut n s = s := by
  unfold closeThread
  simp only [hcaller]
  match n with
  | 0 => rfl
  | 1 => rfl
  | n + 2 => omega

end Attempt

/-! ## One operation -/

section Post

variable {site : Site} {username : String} {caller : Caller} {th : LocalThread} {x : LocalMessage}
  {s : CrosstalkStore}

/-- An attempt fails on its way or is answered. -/
theorem l2Post_cases {P : CrosstalkStore → Prop} {R : CrosstalkResponse → CrosstalkStore → Prop}
    {op : SyncOp} {call : CrosstalkCall} {a : Attempt} (hrequest : op.request username = some call)
    (h : (call.prog (site.again a.now a.newThreadId a.newMessageId)).Through P R s) :
    (a.cut ≠ none ∧ (l2Post site username op a s).1 = false ∧
        P (l2Post site username op a s).2) ∨
      (a.cut = none ∧ ∃ answer : CrosstalkResponse,
        (l2Post site username op a s).1 = answer.ok ∧
          R answer (l2Post site username op a s).2) := by
  unfold l2Post
  simp only [hrequest]
  cases hcut : a.cut with
  | some n => exact .inl ⟨Option.some_ne_none n, rfl, h.cut n⟩
  | none => exact .inr ⟨rfl, _, rfl, h.alone⟩

/-- What comes of posting a message. -/
structure MessagePosted (scope : Scope) (username : String) (th : LocalThread) (x : LocalMessage)
    (s : CrosstalkStore) (free : Prop) (a : Attempt) (posted : Bool × CrosstalkStore) : Prop where
  advances : Advances scope username th s posted.2
  held : posted.1 = true → Held th posted.2 x.id
  succeeds : a.cut = none → free → EarlyOf scope th s x.id → posted.1 = true

theorem messagePosted_of_through {op : SyncOp} {call : CrosstalkCall} {a : Attempt} {free : Prop}
    {scope : Scope} (hrequest : op.request username = some call)
    (h : (call.prog (site.again a.now a.newThreadId a.newMessageId)).Through
      (Advances scope username th s) (Posted scope username th x s free) s) :
    MessagePosted scope username th x s free a (l2Post site username op a s) := by
  rcases l2Post_cases hrequest h with ⟨hcut, hfailed, hadvances⟩ | ⟨-, answer, hok, hposted⟩
  · refine ⟨hadvances, fun hok => ?_, fun hnone => absurd hnone hcut⟩
    rw [hfailed] at hok
    cases hok
  · exact ⟨hposted.advances, fun h => hposted.held (hok ▸ h),
      fun _ hfree hearly => hok.trans (hposted.succeeds hfree hearly)⟩

/-- What comes of posting the close. -/
structure ClosePosted (scope : Scope) (username : String) (th : LocalThread) (s : CrosstalkStore)
    (a : Attempt) (posted : Bool × CrosstalkStore) : Prop where
  grows : s.Grows posted.2
  mirrors : Mirrors scope username th posted.2
  held : posted.1 = true → HasStatus th posted.2 .closed
  succeeds : a.cut = none → HasStatus th s .opened → posted.1 = true
  reaches : HasStatus th posted.2 .closed →
    HasStatus th s .closed ∨ (HasStatus th s .opened ∧ a.reaches = true)

variable (hcaller : resolveCaller site username = .ok caller)
  (hm : Mirrors (readScope site caller) username th s)
  (hcontent : ∀ x ∈ th.messages, x.content ≠ "")

include hcaller hm hcontent

/-- The first message. -/
theorem l2Post_sendOp (hfound : recipientFound site caller th.to_ = true) (a : Attempt) :
    MessagePosted (readScope site caller) username th th.send s
      (HasStatus th s .closed → Held th s th.send.id) a (l2Post site username th.sendOp a s) := by
  have hx : th.send ∈ th.messages := List.mem_cons_self
  have hrequest : th.sendOp.request username = some (.send username ⟨th.to_, th.send.content,
      th.send.persona, th.subject.getD "", some th.threadId, some th.send.id, hcontent _ hx⟩) :=
    dif_pos (hcontent _ hx)
  refine messagePosted_of_through hrequest ?_
  exact through_sendMessage
    (show resolveCaller (site.again a.now a.newThreadId a.newMessageId) username = .ok caller from
      hcaller) hm rfl rfl rfl rfl hfound hx

/-- A reply. -/
theorem l2Post_replyOp (hx : x ∈ th.messages) (a : Attempt) :
    MessagePosted (readScope site caller) username th x s (HasStatus th s .opened) a
      (l2Post site username (th.replyOp x) a s) := by
  have hrequest : (th.replyOp x).request username = some (.reply username th.threadId
      ⟨x.content, x.persona, some x.id, hcontent _ hx⟩) := dif_pos (hcontent _ hx)
  refine messagePosted_of_through hrequest ?_
  exact through_replyOnThread
    (show resolveCaller (site.again a.now a.newThreadId a.newMessageId) username = .ok caller from
      hcaller) hm rfl rfl rfl hx

omit hcontent in
/-- The close. -/
theorem l2Post_closeThread (reason : Option String) (a : Attempt) :
    ClosePosted (readScope site caller) username th s a
      (l2Post site username (.closeThread th.threadId reason) a s) := by
  have hthrough := through_closeThread
    (show resolveCaller (site.again a.now a.newThreadId a.newMessageId) username = .ok caller from
      hcaller) hm reason
  have hrequest : (SyncOp.closeThread th.threadId reason).request username = some _ := rfl
  rcases l2Post_cases hrequest hthrough with
    ⟨hcut, hfailed, hcloses⟩ | ⟨hcut, answer, hok, hcloses, hclosed, hsucceeds⟩
  · refine ⟨hcloses.grows, hcloses.mirrors, fun hok => ?_, fun hnone => absurd hnone hcut,
      fun hstatus => ?_⟩
    · rw [hfailed] at hok
      cases hok
    · by_cases hreaches : a.reaches = true
      · exact (hcloses.closed hstatus).imp_right fun hopen => ⟨hopen, hreaches⟩
      · -- it has not come to the `UPDATE`
        obtain ⟨n, hn⟩ := Option.ne_none_iff_exists'.mp hcut
        have hlt : n < 2 := by
          unfold Attempt.reaches at hreaches
          rw [hn] at hreaches
          simpa using hreaches
        have hsame : (l2Post site username (.closeThread th.threadId reason) a s).2 = s := by
          unfold l2Post
          simp only [SyncOp.request, hn]
          exact cut_closeThread
            (show resolveCaller (site.again a.now a.newThreadId a.newMessageId) username =
              .ok caller from hcaller) th.threadId reason hlt
        rw [hsame] at hstatus
        exact .inl hstatus
  · refine ⟨hcloses.grows, hcloses.mirrors, fun h => hclosed (hok ▸ h),
      fun _ hopen => hok.trans (hsucceeds hopen), fun hstatus => ?_⟩
    have hreaches : a.reaches = true := by
      unfold Attempt.reaches
      rw [hcut]
      rfl
    exact (hcloses.closed hstatus).imp_right fun hopen => ⟨hopen, hreaches⟩

end Post

/-! ## The condition -/

/-- The attempt comes in turn: a message that is there is early in its thread, and a close that
gets to an open thread is answered, and has no reply of the thread waiting and the first message
there before it. -/
def InTurn (scope : Scope) (th : LocalThread) (S : SyncState) (op : SyncOp) (a : Attempt) : Prop :=
  (∀ id ∈ op.messageId, EarlyOf scope th S.l2 id) ∧
    (op.isClose = true → HasStatus th S.l2 .opened → a.reaches = true →
      a.cut = none ∧ (∀ r ∈ S.queue.rows.rows, r.op.isReply = false) ∧
        Held th S.l2 th.send.id)

/-- The row does not fail for the last time: an attempt is left, or the L2 answers this one and,
unless the row is the first message, has the thread. -/
def Spared (th : LocalThread) (S : SyncState) (row : PendingRow) (a : Attempt) : Prop :=
  ∀ r ∈ S.queue.rows.rows, r.id = row.id → r.attempts + 1 < maxAttempts ∨
    (a.cut = none ∧
      (row.op.isSend = true ∨ (S.l2.threads.find th.threadId).isSome = true))

/-- The step is in turn, and spares its row. -/
def SafeSync (scope : Scope) (th : LocalThread) (S : SyncState) : SyncStep → Prop
  | .call op a _ => InTurn scope th S op a
  | .list _ => True
  | .retry drain a => ∀ row ∈ (S.drains drain).head?, row.attempts < maxAttempts →
      InTurn scope th S row.op a ∧ Spared th S row a

instance (scope : Scope) (th : LocalThread) (S : SyncState) (op : SyncOp) (a : Attempt) :
    Decidable (InTurn scope th S op a) :=
  inferInstanceAs (Decidable ((∀ id ∈ op.messageId, EarlyOf scope th S.l2 id) ∧
    (op.isClose = true → HasStatus th S.l2 .opened → a.reaches = true →
      a.cut = none ∧ (∀ r ∈ S.queue.rows.rows, r.op.isReply = false) ∧
        Held th S.l2 th.send.id)))

instance (th : LocalThread) (S : SyncState) (row : PendingRow) (a : Attempt) :
    Decidable (Spared th S row a) :=
  inferInstanceAs (Decidable (∀ r ∈ S.queue.rows.rows, r.id = row.id →
    r.attempts + 1 < maxAttempts ∨ (a.cut = none ∧
      (row.op.isSend = true ∨ (S.l2.threads.find th.threadId).isSome = true))))

instance (scope : Scope) (th : LocalThread) (S : SyncState) :
    (step : SyncStep) → Decidable (SafeSync scope th S step)
  | .call op a _ => inferInstanceAs (Decidable (InTurn scope th S op a))
  | .list _ => isTrue trivial
  | .retry drain a =>
    inferInstanceAs (Decidable (∀ row ∈ (S.drains drain).head?, row.attempts < maxAttempts →
      InTurn scope th S row.op a ∧ Spared th S row a))

/-! ## The invariant -/

/-- What the operation is for is there at the L2. -/
def Settled (th : LocalThread) (s : CrosstalkStore) (op : SyncOp) : Prop :=
  match op.messageId with
  | some id => Held th s id
  | none => HasStatus th s .closed

/-- What has been done on the machine is at the L2 or in the queue, and once the thread is closed
there, at most the first message is. -/
structure Synced (scope : Scope) (username : String) (th : LocalThread) (S : SyncState) :
    Prop where
  mirrors : Mirrors scope username th S.l2
  follows : S.done <+: th.ops
  accounted : ∀ op ∈ S.done, Settled th S.l2 op ∨ ∃ r ∈ S.queue.rows, r.op = op
  queued : ∀ r ∈ S.queue.rows, r.op ∈ S.done ∧ r.attempts < maxAttempts
  once : ∀ r ∈ S.queue.rows, ∀ r' ∈ S.queue.rows, r.op = r'.op → r.id = r'.id
  /-- What drains have read is still what the queue has under its id. -/
  read : ∀ d, ∀ r ∈ S.drains d, r.op ∈ S.done ∧ r.id < S.queue.nextId ∧
    ∀ r' ∈ S.queue.rows, (r'.id = r.id ↔ r'.op = r.op)
  closed : HasStatus th S.l2 .closed → th.close.isSome = true ∧ S.done = th.ops ∧
    Held th S.l2 th.send.id ∧ ∀ r ∈ S.queue.rows, r.op.isSend = true

section Steps

variable {scope : Scope} {site : Site} {username : String} {caller : Caller} {th : LocalThread}
  {s s' : CrosstalkStore} {S : SyncState}

theorem Settled.grows {op : SyncOp} (h : Settled th s op) (hgrows : s.Grows s') :
    Settled th s' op := by
  unfold Settled at h ⊢
  split at h
  · exact Held.grows h hgrows
  · exact HasStatus.closed_grows h hgrows

/-- What an operation needs of the thread. -/
def Ready (th : LocalThread) (s : CrosstalkStore) (op : SyncOp) : Prop :=
  if op.isSend then HasStatus th s .closed → Held th s th.send.id else HasStatus th s .opened

/-- What comes of an attempt at any operation of the thread. -/
structure Tried (scope : Scope) (username : String) (th : LocalThread) (s : CrosstalkStore)
    (op : SyncOp) (a : Attempt) (posted : Bool × CrosstalkStore) : Prop where
  grows : s.Grows posted.2
  mirrors : Mirrors scope username th posted.2
  settled : posted.1 = true → Settled th posted.2 op
  succeeds : a.cut = none → Ready th s op → (∀ id ∈ op.messageId, EarlyOf scope th s id) →
    posted.1 = true
  closed : HasStatus th posted.2 .closed → HasStatus th s .closed ∨
    (op.isClose = true ∧ HasStatus th s .opened ∧ a.reaches = true)

theorem MessagePosted.tried {x : LocalMessage} {free : Prop} {a : Attempt}
    {posted : Bool × CrosstalkStore} {op : SyncOp}
    (h : MessagePosted scope username th x s free a posted) (hid : op.messageId = some x.id)
    (hfree : Ready th s op → free) : Tried scope username th s op a posted where
  grows := h.advances.grows
  mirrors := h.advances.mirrors
  settled := by
    intro hok
    unfold Settled
    rw [hid]
    exact h.held hok
  succeeds := fun hcut hready hearly => h.succeeds hcut (hfree hready) (hearly x.id hid)
  closed := fun hclosed => .inl (h.advances.closed hclosed)

/-- **One spec for every operation.** -/
theorem tried (hcaller : resolveCaller site username = .ok caller)
    (hfound : recipientFound site caller th.to_ = true)
    (hcontent : ∀ x ∈ th.messages, x.content ≠ "")
    (hm : Mirrors (readScope site caller) username th s) {op : SyncOp} (hop : op ∈ th.ops)
    (a : Attempt) :
    Tried (readScope site caller) username th s op a (l2Post site username op a s) := by
  rcases LocalThread.mem_ops.mp hop with rfl | ⟨x, hx, rfl⟩ | ⟨reason, -, rfl⟩
  · exact (l2Post_sendOp hcaller hm hcontent hfound a).tried rfl id
  · exact (l2Post_replyOp hcaller hm hcontent (List.mem_cons_of_mem _ hx) a).tried rfl id
  · have hposted := l2Post_closeThread hcaller hm reason a
    exact ⟨hposted.grows, hposted.mirrors, hposted.held,
      fun hcut hready _ => hposted.succeeds hcut hready,
      fun hclosed => (hposted.reaches hclosed).imp_right fun h => ⟨rfl, h⟩⟩

/-- A close that comes in turn and closes the thread succeeds. -/
theorem Tried.close_succeeds {op : SyncOp} {a : Attempt} {posted : Bool × CrosstalkStore}
    (h : Tried scope username th S.l2 op a posted) (hturn : InTurn scope th S op a)
    (hclose : op.isClose = true) (hopen : HasStatus th S.l2 .opened) (hreaches : a.reaches = true) :
    posted.1 = true := by
  refine h.succeeds (hturn.2 hclose hopen hreaches).1 ?_ hturn.1
  unfold Ready
  cases op with
  | closeThread threadId reason => exact hopen
  | sendMessage threadId messageId to_ content persona subject => cases hclose
  | reply threadId messageId content persona => cases hclose

/-- A call. -/
theorem Synced.sync (h : Synced scope username th S) {op : SyncOp} {a : Attempt} (now : String)
    (hfollows : S.done ++ [op] <+: th.ops)
    (htried : Tried scope username th S.l2 op a (l2Post site username op a S.l2))
    (hturn : InTurn scope th S op a) :
    Synced scope username th (S.sync site username op a now) := by
  obtain ⟨rest, hrest⟩ := hfollows
  have hop : op ∈ th.ops := hrest ▸ (by simp)
  have hdone : ∀ op' ∈ S.done, op' ∈ th.ops := fun op' hmem => h.follows.subset hmem
  have hnew : op ∉ S.done := by
    have hnodup := hrest ▸ th.ops_nodup
    intro hmem
    have hboth := (List.nodup_append.mp hnodup).1
    exact (List.nodup_append.mp hboth).2.2 op hmem op (List.mem_singleton.mpr rfl) rfl
  have hopen : ¬ HasStatus th S.l2 .closed := by
    -- a thread that is closed there leaves nothing to be called
    intro hclosed
    have hlength := congrArg List.length (hrest.trans (h.closed hclosed).2.1.symm)
    simp at hlength
  have hbefore : ∀ op' ∈ S.done, op'.isClose = false := by
    intro op' hmem
    have hfollows : S.done ++ (op :: rest) = th.ops := by
      rw [← hrest, List.append_assoc, List.singleton_append]
    exact LocalThread.isClose_of_more hfollows (List.cons_ne_nil _ _) hmem
  have hmem : ∀ r, r ∈ (S.sync site username op a now).queue.rows → r ∈ S.queue.rows ∨
      ((l2Post site username op a S.l2).1 = false ∧ r = ⟨S.queue.nextId, op, now, 1⟩) := by
    intro r hr
    unfold SyncState.sync at hr
    dsimp only at hr
    split at hr
    · exact .inl hr
    · rename_i hfailed
      exact (PendingQueue.mem_enqueue.mp hr).imp_right fun heq =>
        ⟨Bool.not_eq_true _ ▸ hfailed, heq⟩
  have hkept : ∀ r ∈ S.queue.rows, r ∈ (S.sync site username op a now).queue.rows := by
    intro r hr
    unfold SyncState.sync
    dsimp only
    split
    · exact hr
    · exact PendingQueue.mem_enqueue.mpr (.inl hr)
  refine ⟨htried.mirrors, ⟨rest, hrest⟩, ?_, ?_, ?_, ?_, ?_⟩
  · intro op' hop'
    rcases List.mem_append.mp hop' with hop' | hop'
    · rcases h.accounted op' hop' with hsettled | ⟨r, hr, heq⟩
      · exact .inl (hsettled.grows htried.grows)
      · exact .inr ⟨r, hkept r hr, heq⟩
    · rw [List.mem_singleton.mp hop']
      by_cases hok : (l2Post site username op a S.l2).1 = true
      · exact .inl (htried.settled hok)
      · refine .inr ⟨⟨S.queue.nextId, op, now, 1⟩, ?_, rfl⟩
        unfold SyncState.sync
        dsimp only
        rw [if_neg hok]
        exact PendingQueue.mem_enqueue.mpr (.inr rfl)
  · intro r hr
    rcases hmem r hr with hr | ⟨-, rfl⟩
    · exact ⟨List.mem_append_left _ (h.queued r hr).1, (h.queued r hr).2⟩
    · exact ⟨List.mem_append_right _ (List.mem_singleton.mpr rfl), show 1 < maxAttempts by decide⟩
  · intro r hr r' hr' heq
    rcases hmem r hr with hr | ⟨-, rfl⟩
    · rcases hmem r' hr' with hr' | ⟨-, rfl⟩
      · exact h.once r hr r' hr' heq
      · have hsame : r.op = op := heq
        exact absurd (hsame ▸ (h.queued r hr).1) hnew
    · rcases hmem r' hr' with hr' | ⟨-, rfl⟩
      · have hsame : op = r'.op := heq
        exact absurd (hsame ▸ (h.queued r' hr').1) hnew
      · rfl
  · intro d r hr
    obtain ⟨hdone', hissued, hsame⟩ := h.read d r hr
    refine ⟨List.mem_append_left _ hdone', ?_, ?_⟩
    · show r.id < (if _ then S.queue else S.queue.enqueue op now).nextId
      split
      · exact hissued
      · exact Nat.lt_succ_of_lt hissued
    · intro r' hr'
      rcases hmem r' hr' with hr' | ⟨-, rfl⟩
      · exact hsame r' hr'
      · exact ⟨fun heq => absurd heq.symm hissued.ne, fun heq =>
          absurd ((show op = r.op from heq) ▸ hdone') hnew⟩
  · intro hclosed
    obtain ⟨hclose, hwas, hreaches⟩ := (htried.closed hclosed).resolve_left hopen
    have hok := htried.close_succeeds hturn hclose hwas hreaches
    obtain ⟨-, hreplies, hheld⟩ := hturn.2 hclose hwas hreaches
    refine ⟨?_, ?_, hheld.grows htried.grows, ?_⟩
    · rcases LocalThread.mem_ops.mp hop with rfl | ⟨x, -, rfl⟩ | ⟨reason, hreason, -⟩
      · cases hclose
      · cases hclose
      · rw [hreason]
        rfl
    · exact LocalThread.eq_ops_of_isClose ⟨rest, hrest⟩ (List.mem_append_right _
        (List.mem_singleton.mpr rfl)) hclose
    · intro r hr
      rcases hmem r hr with hr | ⟨hfailed, -⟩
      · have hnot := hbefore _ (h.queued r hr).1
        have hreply := hreplies r hr
        cases hr' : r.op with
        | sendMessage threadId messageId to_ content persona subject => rfl
        | reply threadId messageId content persona =>
            rw [hr'] at hreply
            cases hreply
        | closeThread threadId reason =>
            rw [hr'] at hnot
            cases hnot
      · rw [hfailed] at hok
        cases hok

/-- A drain that reads its rows. -/
theorem Synced.list (h : Synced scope username th S) (d : Nat) :
    Synced scope username th (S.step site username (.list d)) := by
  refine ⟨h.mirrors, h.follows, h.accounted, h.queued, h.once, ?_, h.closed⟩
  intro i r hr
  change r ∈ (if i = d then S.queue.list drainLimit else S.drains i) at hr
  split at hr
  · have hmem := PendingQueue.mem_of_list hr
    refine ⟨(h.queued r hmem).1, S.queue.issued r hmem, fun r' hr' => ⟨fun hid => ?_, fun hop => ?_⟩⟩
    · rw [Table.eq_of_key_eq hr' hmem hid]
    · exact h.once r' hr' r hmem hop
  · exact h.read i r hr

/-- A row after an attempt is one from before it. -/
theorem row_of_attempted {q : PendingQueue} {id : Nat} {ok : Bool} {r : PendingRow}
    (hr : r ∈ (if ok then q.delete id else q.bump id).rows) :
    ∃ r₀ ∈ q.rows, r.id = r₀.id ∧ r.op = r₀.op ∧
      (r.attempts = r₀.attempts ∧ (r.id = id → ok = false) ∨
        r.id = id ∧ ok = false ∧ r.attempts = r₀.attempts + 1) := by
  cases ok with
  | true =>
      obtain ⟨hr, hid⟩ := PendingQueue.mem_delete.mp hr
      exact ⟨r, hr, rfl, rfl, .inl ⟨rfl, fun heq => absurd heq hid⟩⟩
  | false =>
      obtain ⟨r₀, hr₀, rfl⟩ := PendingQueue.mem_bump.mp hr
      split
      · rename_i hid
        exact ⟨r₀, hr₀, rfl, rfl, .inr ⟨hid, rfl, rfl⟩⟩
      · exact ⟨r₀, hr₀, rfl, rfl, .inl ⟨rfl, fun _ => rfl⟩⟩

/-- A row stays, unless it is the one that has succeeded. -/
theorem row_attempted {q : PendingQueue} {id : Nat} {ok : Bool} {r₀ : PendingRow}
    (hr₀ : r₀ ∈ q.rows) (hstays : ok = false ∨ r₀.id ≠ id) :
    ∃ r ∈ (if ok then q.delete id else q.bump id).rows, r.op = r₀.op := by
  cases ok with
  | true =>
      have hid := hstays.resolve_left (by decide)
      exact ⟨r₀, PendingQueue.mem_delete.mpr ⟨hr₀, hid⟩, rfl⟩
  | false =>
      refine ⟨_, PendingQueue.mem_bump.mpr ⟨r₀, hr₀, rfl⟩, ?_⟩
      split
      · rfl
      · rfl

/-- A row that is spared has fewer failures than the limit after the attempt, too. -/
theorem Synced.attempts_lt (h : Synced scope username th S) {row r : PendingRow} {a : Attempt}
    (htried : Tried scope username th S.l2 row.op a (l2Post site username row.op a S.l2))
    (hturn : InTurn scope th S row.op a) (hspared : Spared th S row a) (hr : r ∈ S.queue.rows)
    (hid : r.id = row.id) (hop : r.op = row.op)
    (hfailed : (l2Post site username row.op a S.l2).1 = false) : r.attempts + 1 < maxAttempts := by
  rcases hspared r hr hid with hlt | ⟨hcut, hthere⟩
  · exact hlt
  · -- the L2 answers, and has what the row needs
    have hready : Ready th S.l2 row.op := by
      unfold Ready
      split
      · exact fun hclosed => (h.closed hclosed).2.2.1
      · rename_i hsend
        obtain ⟨t, ht⟩ := Option.isSome_iff_exists.mp (hthere.resolve_left hsend)
        cases hstatus : t.status with
        | opened => exact Option.map_eq_some_iff.mpr ⟨t, ht, hstatus⟩
        | closed =>
            have hclosed : HasStatus th S.l2 .closed :=
              Option.map_eq_some_iff.mpr ⟨t, ht, hstatus⟩
            exact absurd (hop ▸ (h.closed hclosed).2.2.2 r hr) hsend
    rw [htried.succeeds hcut hready hturn.1] at hfailed
    cases hfailed

/-- An attempt of a drain. -/
theorem Synced.attempted (h : Synced scope username th S) {row : PendingRow} {a : Attempt}
    {drains : Nat → List PendingRow} (hrow : ∃ d, row ∈ S.drains d)
    (hdrains : ∀ d, ∀ r ∈ drains d, r ∈ S.drains d)
    (htried : Tried scope username th S.l2 row.op a (l2Post site username row.op a S.l2))
    (hturn : InTurn scope th S row.op a) (hspared : Spared th S row a) :
    Synced scope username th
      { S with
        l2 := (l2Post site username row.op a S.l2).2
        queue := if (l2Post site username row.op a S.l2).1 then S.queue.delete row.id
          else S.queue.bump row.id
        drains } := by
  obtain ⟨d, hrow⟩ := hrow
  obtain ⟨hdone, -, hsame⟩ := h.read d row hrow
  have hop : row.op ∈ th.ops := h.follows.subset hdone
  refine ⟨htried.mirrors, h.follows, ?_, ?_, ?_, ?_, ?_⟩
  · intro op hmem
    rcases h.accounted op hmem with hsettled | ⟨r, hr, heq⟩
    · exact .inl (hsettled.grows htried.grows)
    · by_cases hstays : (l2Post site username row.op a S.l2).1 = false ∨ r.id ≠ row.id
      · obtain ⟨r', hr', heq'⟩ := row_attempted hr hstays
        exact .inr ⟨r', hr', heq'.trans heq⟩
      · -- it is the row that has succeeded
        rw [not_or, not_not, Bool.not_eq_false] at hstays
        rw [← heq, (hsame r hr).mp hstays.2]
        exact .inl (htried.settled hstays.1)
  · intro r hr
    obtain ⟨r₀, hr₀, hid, hop', hattempts⟩ := row_of_attempted hr
    obtain ⟨hdone', hlt⟩ := h.queued r₀ hr₀
    refine ⟨hop' ▸ hdone', ?_⟩
    rcases hattempts with ⟨heq, -⟩ | ⟨hrid, hfailed, heq⟩
    · rw [heq]
      exact hlt
    · rw [heq]
      have hid₀ := hid.symm.trans hrid
      exact h.attempts_lt htried hturn hspared hr₀ hid₀ ((hsame r₀ hr₀).mp hid₀) hfailed
  · intro r hr r' hr' heq
    obtain ⟨r₀, hr₀, hid, hop', -⟩ := row_of_attempted hr
    obtain ⟨r₀', hr₀', hid', hop'', -⟩ := row_of_attempted hr'
    rw [hid, hid']
    exact h.once r₀ hr₀ r₀' hr₀' (hop'.symm.trans (heq.trans hop''))
  · intro i r hr
    obtain ⟨hdone', hissued, hsame'⟩ := h.read i r (hdrains i r hr)
    refine ⟨hdone', ?_, ?_⟩
    · show r.id < (if _ then S.queue.delete row.id else S.queue.bump row.id).nextId
      split
      · exact hissued
      · exact hissued
    · intro r' hr'
      obtain ⟨r₀, hr₀, hid, hop', -⟩ := row_of_attempted hr'
      rw [hid, hop']
      exact hsame' r₀ hr₀
  · intro hclosed
    rcases htried.closed hclosed with hwas | ⟨hclose, hwas, hreaches⟩
    · obtain ⟨hsome, hall, hheld, hrows⟩ := h.closed hwas
      refine ⟨hsome, hall, hheld.grows htried.grows, fun r hr => ?_⟩
      obtain ⟨r₀, hr₀, -, hop', -⟩ := row_of_attempted hr
      rw [hop']
      exact hrows r₀ hr₀
    · -- this attempt has closed the thread
      have hok := htried.close_succeeds hturn hclose hwas hreaches
      obtain ⟨-, hreplies, hheld⟩ := hturn.2 hclose hwas hreaches
      have hall := LocalThread.eq_ops_of_isClose h.follows hdone hclose
      refine ⟨?_, hall, hheld.grows htried.grows, ?_⟩
      · rcases LocalThread.mem_ops.mp hop with heq | ⟨x, -, heq⟩ | ⟨reason, hreason, -⟩
        · rw [heq] at hclose
          cases hclose
        · rw [heq] at hclose
          cases hclose
        · rw [hreason]
          rfl
      · intro r hr
        obtain ⟨r₀, hr₀, hid, hop', hattempts⟩ := row_of_attempted hr
        have hreply := hreplies r₀ hr₀
        have hne : r.id ≠ row.id := by
          intro heq
          rcases hattempts with ⟨-, hfailed⟩ | ⟨-, hfailed, -⟩
          · rw [hfailed heq] at hok
            cases hok
          · rw [hfailed] at hok
            cases hok
        rw [hop']
        cases hr₀' : r₀.op with
        | sendMessage threadId messageId to_ content persona subject => rfl
        | reply threadId messageId content persona =>
            rw [hr₀'] at hreply
            cases hreply
        | closeThread threadId reason =>
            have heq := LocalThread.eq_of_isClose (h.follows.subset (h.queued r₀ hr₀).1) hop
              (hr₀'.symm ▸ rfl) hclose
            exact absurd (hid.trans ((hsame r₀ hr₀).mpr heq)) hne

/-- The next row of a drain. -/
theorem Synced.retry (h : Synced scope username th S) {d : Nat} {a : Attempt}
    (htried : ∀ op ∈ th.ops,
      Tried scope username th S.l2 op a (l2Post site username op a S.l2))
    (hsafe : SafeSync scope th S (.retry d a)) :
    Synced scope username th (S.retry site username d a) := by
  unfold SyncState.retry
  cases hdrain : S.drains d with
  | nil => exact h
  | cons row rest =>
      have hrow : row ∈ S.drains d := hdrain ▸ List.mem_cons_self
      have hdrains : ∀ i, ∀ r ∈ (if i = d then rest else S.drains i), r ∈ S.drains i := by
        intro i r hr
        split at hr
        · rename_i heq
          rw [heq, hdrain]
          exact List.mem_cons_of_mem _ hr
        · exact hr
      dsimp only
      split
      · exact ⟨h.mirrors, h.follows, h.accounted, h.queued, h.once,
          fun i r hr => h.read i r (hdrains i r hr), h.closed⟩
      · rename_i hlt
        have hhead : row ∈ (S.drains d).head? := by
          rw [hdrain]
          rfl
        obtain ⟨hturn, hspared⟩ := hsafe row hhead (Nat.lt_of_not_le hlt)
        exact h.attempted ⟨d, hrow⟩ hdrains (htried _ (h.follows.subset (h.read d row hrow).1))
          hturn hspared

end Steps

/-! ## Runs -/

section Runs

variable {site : Site} {username : String} {caller : Caller} {th : LocalThread} {S : SyncState}

theorem synced_fresh {scope : Scope} {s : CrosstalkStore}
    (hthread : s.threads.find th.threadId = none)
    (hids : ∀ m ∈ s.messages, m.id ∉ th.messages.map LocalMessage.id) :
    Synced scope username th (SyncState.fresh s) := by
  have hnot : ∀ status, ¬ HasStatus th s status := by
    intro status hstatus
    unfold HasStatus at hstatus
    rw [hthread] at hstatus
    cases hstatus
  have hrows : ∀ r, r ∉ (SyncState.fresh s).queue.rows := fun r => Table.not_mem_empty r
  refine ⟨⟨?_, ?_, ?_⟩, List.nil_prefix, ?_, ?_, ?_, ?_, ?_⟩
  · intro t ht
    exact absurd (hthread.symm.trans ht) (by simp)
  · intro m hm heq
    obtain ⟨t, ht, hid⟩ := s.foreignKey m hm
    exact absurd (hid.trans heq) (Table.find_eq_none_iff.mp hthread t ht)
  · exact fun m hm hid => absurd hid (hids m hm)
  · exact fun op hop => nomatch hop
  · exact fun r hr => absurd hr (hrows r)
  · exact fun r hr => absurd hr (hrows r)
  · exact fun d r hr => nomatch hr
  · exact fun hclosed => absurd hclosed (hnot _)

/-- The run lemma. -/
theorem synced_run (hcaller : resolveCaller site username = .ok caller)
    (hfound : recipientFound site caller th.to_ = true)
    (hcontent : ∀ x ∈ th.messages, x.content ≠ "") {steps : List SyncStep}
    (h : Synced (readScope site caller) username th S)
    (hsafe : StepsMeet (SyncState.step site username) (SafeSync (readScope site caller) th) S steps)
    (hcalls : S.done ++ steps.filterMap SyncStep.op <+: th.ops) :
    Synced (readScope site caller) username th (S.run site username steps) ∧
      (S.run site username steps).done = S.done ++ steps.filterMap SyncStep.op := by
  induction steps generalizing S with
  | nil => exact ⟨h, (List.append_nil _).symm⟩
  | cons step steps ih =>
      obtain ⟨hstep, hrest⟩ := hsafe
      have htried := fun (op : SyncOp) (hop : op ∈ th.ops) (a : Attempt) =>
        tried hcaller hfound hcontent h.mirrors hop a
      cases step with
      | call op a now =>
          have hcons : S.done ++ (op :: steps.filterMap SyncStep.op) <+: th.ops := hcalls
          have hfollows : S.done ++ [op] <+: th.ops := by
            refine List.IsPrefix.trans ?_ hcons
            exact ⟨steps.filterMap SyncStep.op, List.append_assoc _ _ _⟩
          have hop : op ∈ th.ops := hfollows.subset (by simp)
          have hsynced := h.sync now hfollows (htried op hop a) hstep
          obtain ⟨hend, hdone⟩ := ih hsynced hrest (by
            show S.done ++ [op] ++ _ <+: th.ops
            rw [← List.append_cons]
            exact hcons)
          refine ⟨hend, hdone.trans ?_⟩
          show S.done ++ [op] ++ _ = S.done ++ (op :: _)
          rw [← List.append_cons]
      | list d => exact ih (h.list d) hrest hcalls
      | retry d a =>
          have hsynced := h.retry (fun op hop => htried op hop a) hstep
          have hsame : (S.retry site username d a).done = S.done := by
            unfold SyncState.retry
            split
            · rfl
            · dsimp only
              split
              · rfl
              · rfl
          obtain ⟨hend, hdone⟩ := ih hsynced hrest (by
            show (S.retry site username d a).done ++ _ <+: th.ops
            rw [hsame]
            exact hcalls)
          refine ⟨hend, hdone.trans ?_⟩
          show (S.retry site username d a).done ++ _ = _
          rw [hsame]
          rfl

/-! ## Progress -/

/-- How many more failures a row may have. -/
def PendingRow.left (r : PendingRow) : Nat := maxAttempts - r.attempts

/-- How many more failures the rows of the queue may have. -/
def PendingQueue.left (q : PendingQueue) : Nat := (q.rows.rows.map PendingRow.left).sum

theorem left_le (q : PendingQueue) : q.left ≤ maxAttempts * q.rows.rows.length := by
  unfold PendingQueue.left
  induction q.rows.rows with
  | nil => exact Nat.zero_le _
  | cons r rows ih =>
      have hr : r.left ≤ maxAttempts := Nat.sub_le _ _
      rw [List.map_cons, List.sum_cons, List.length_cons, Nat.mul_succ]
      omega

theorem left_bumped_le (r : PendingRow) : (PendingQueue.bumped r).left ≤ r.left := by
  unfold PendingRow.left PendingQueue.bumped
  dsimp only
  omega

/-- An attempt takes from what is left. -/
theorem left_attempted (q : PendingQueue) (id : Nat) (ok : Bool) :
    (if ok then q.delete id else q.bump id).left =
      (q.rows.rows.map fun r => if r.id = id then (if ok then 0 else (PendingQueue.bumped r).left)
        else r.left).sum := by
  cases ok with
  | true =>
      show (((q.rows.rows.filter fun r => !decide (r.id = id))).map PendingRow.left).sum = _
      induction q.rows.rows with
      | nil => rfl
      | cons r rows ih =>
          by_cases hid : r.id = id
          · simp [hid, ih]
          · simp [hid, ih]
  | false =>
      show (((q.rows.rows.map fun r => if decide (r.id = id) then PendingQueue.bumped r else r)).map
        PendingRow.left).sum = _
      rw [List.map_map]
      congr 1
      refine List.map_congr_left fun r _ => ?_
      by_cases hid : r.id = id
      · simp [hid]
      · simp [hid]

theorem left_attempted_le (q : PendingQueue) (id : Nat) (ok : Bool) :
    (if ok then q.delete id else q.bump id).left ≤ q.left := by
  rw [left_attempted]
  refine List.sum_le_sum fun r _ => ?_
  split
  · split
    · exact Nat.zero_le _
    · exact left_bumped_le r
  · exact le_rfl

theorem left_attempted_lt {q : PendingQueue} (ok : Bool) {row : PendingRow} (hrow : row ∈ q.rows)
    (hlt : row.attempts < maxAttempts) :
    (if ok then q.delete row.id else q.bump row.id).left < q.left := by
  rw [left_attempted]
  refine List.sum_lt_sum _ _ (fun r _ => ?_) ⟨row, hrow, ?_⟩
  · split
    · split
      · exact Nat.zero_le _
      · exact left_bumped_le r
    · exact le_rfl
  · rw [if_pos rfl]
    unfold PendingRow.left PendingQueue.bumped
    split
    · omega
    · dsimp only
      omega

theorem left_retry_le (S : SyncState) (d : Nat) (a : Attempt) :
    (S.retry site username d a).queue.left ≤ S.queue.left := by
  unfold SyncState.retry
  split
  · exact le_rfl
  · dsimp only
    split
    · exact le_rfl
    · exact left_attempted_le _ _ _

/-- A drain, with its attempts. -/
def drainOf (d : Nat) (attempts : List Attempt) : List SyncStep :=
  .list d :: attempts.map (.retry d)

theorem left_retries_le (S : SyncState) (d : Nat) (attempts : List Attempt) :
    (S.run site username (attempts.map (.retry d))).queue.left ≤ S.queue.left := by
  induction attempts generalizing S with
  | nil => exact le_rfl
  | cons a attempts ih => exact (ih _).trans (left_retry_le S d a)

/-- A drain of a queue that is not empty takes from what is left. -/
theorem left_drainOf {scope : Scope} (h : Synced scope username th S) (d : Nat)
    {attempts : List Attempt} (hne : attempts ≠ []) :
    (S.run site username (drainOf d attempts)).queue.left ≤ S.queue.left - 1 := by
  obtain ⟨a, attempts, rfl⟩ := List.exists_cons_of_ne_nil hne
  have hrest : (((S.step site username (.list d)).retry site username d a).run site username
      (attempts.map (.retry d))).queue.left ≤
        ((S.step site username (.list d)).retry site username d a).queue.left :=
    left_retries_le _ d attempts
  refine hrest.trans ?_
  cases hlist : S.queue.list drainLimit with
  | nil =>
      -- nothing is queued
      have hrows : S.queue.rows.rows = [] := by
        unfold PendingQueue.list at hlist
        rw [List.take_eq_nil_iff] at hlist
        rcases hlist with hzero | hnil
        · exact absurd hzero (by decide)
        · exact List.length_eq_zero_iff.mp ((List.length_insertionSort _ _).symm.trans
            (List.length_eq_zero_iff.mpr hnil))
      have hzero : S.queue.left = 0 := by
        unfold PendingQueue.left
        rw [hrows]
        rfl
      have hle : ((S.step site username (.list d)).retry site username d a).queue.left ≤
          (S.step site username (.list d)).queue.left := left_retry_le _ d a
      rw [show (S.step site username (.list d)).queue = S.queue from rfl, hzero] at hle
      omega
  | cons row rest =>
      have hlisted : row ∈ S.queue.list drainLimit := hlist ▸ List.mem_cons_self
      have hrow : row ∈ S.queue.rows := PendingQueue.mem_of_list hlisted
      have hattempts := (h.queued row hrow).2
      have hhead : (S.step site username (.list d)).drains d = row :: rest := by
        show (if d = d then S.queue.list drainLimit else S.drains d) = row :: rest
        rw [if_pos rfl, hlist]
      have hlt : ((S.step site username (.list d)).retry site username d a).queue.left <
          S.queue.left := by
        unfold SyncState.retry
        simp only [hhead, if_neg (Nat.not_le.mpr hattempts)]
        exact left_attempted_lt _ hrow hattempts
      omega

/-- Drains go on taking from what is left. -/
theorem left_drains (hcaller : resolveCaller site username = .ok caller)
    (hfound : recipientFound site caller th.to_ = true)
    (hcontent : ∀ x ∈ th.messages, x.content ≠ "") {drains : List (Nat × List Attempt)}
    (hdrains : ∀ d ∈ drains, d.2 ≠ []) (h : Synced (readScope site caller) username th S)
    (hsafe : StepsMeet (SyncState.step site username) (SafeSync (readScope site caller) th) S
      (drains.flatMap fun d => drainOf d.1 d.2)) :
    Synced (readScope site caller) username th
        (S.run site username (drains.flatMap fun d => drainOf d.1 d.2)) ∧
      (S.run site username (drains.flatMap fun d => drainOf d.1 d.2)).done = S.done ∧
      (S.run site username (drains.flatMap fun d => drainOf d.1 d.2)).queue.left ≤
        S.queue.left - drains.length := by
  induction drains generalizing S with
  | nil => exact ⟨h, rfl, le_rfl⟩
  | cons d drains ih =>
      rw [List.flatMap_cons] at hsafe ⊢
      obtain ⟨hfirst, hrest⟩ := stepsMeet_append.mp hsafe
      have hcalls : (drainOf d.1 d.2).filterMap SyncStep.op = [] := by
        unfold drainOf
        rw [List.filterMap_cons_none rfl, List.filterMap_map]
        exact List.filterMap_eq_nil_iff.mpr fun a _ => rfl
      obtain ⟨hsynced, hdone⟩ := synced_run hcaller hfound hcontent h hfirst (by
        rw [hcalls, List.append_nil]
        exact h.follows)
      rw [hcalls, List.append_nil] at hdone
      have hleft : (S.run site username (drainOf d.1 d.2)).queue.left ≤ S.queue.left - 1 :=
        left_drainOf h d.1 (hdrains d List.mem_cons_self)
      obtain ⟨hend, hdone', hleft'⟩ :=
        ih (fun d' hd' => hdrains d' (List.mem_cons_of_mem _ hd')) hsynced hrest
      have happend : S.run site username
          (drainOf d.1 d.2 ++ drains.flatMap fun d => drainOf d.1 d.2) =
            (S.run site username (drainOf d.1 d.2)).run site username
              (drains.flatMap fun d => drainOf d.1 d.2) := List.foldl_append
      rw [happend]
      refine ⟨hend, hdone'.trans hdone, hleft'.trans ?_⟩
      rw [List.length_cons]
      omega

/-- When everything has been done and the queue is empty, the L2 has a copy. -/
theorem Synced.converged {scope : Scope} (h : Synced scope username th S) (hdone : S.done = th.ops)
    (hempty : S.queue.rows.rows = []) : Converged th S := by
  have hsettled : ∀ op ∈ th.ops, Settled th S.l2 op := by
    intro op hop
    rcases h.accounted op (hdone ▸ hop) with hsettled | ⟨r, hr, -⟩
    · exact hsettled
    · rw [Table.mem_def, hempty] at hr
      cases hr
  have hheld : ∀ x ∈ th.messages, Held th S.l2 x.id := by
    intro x hx
    rcases List.mem_cons.mp hx with rfl | hx
    · exact hsettled _ (LocalThread.mem_ops.mpr (.inl rfl))
    · exact hsettled _ (LocalThread.mem_ops.mpr (.inr (.inl ⟨x, hx, rfl⟩)))
  obtain ⟨t, ht⟩ := thread_of_held (hheld th.send List.mem_cons_self)
  refine ⟨hempty, ⟨t, ht, ?_⟩, fun x => ⟨fun hx => ?_, ?_⟩⟩
  · constructor
    · intro hclosed
      exact (h.closed (Option.map_eq_some_iff.mpr ⟨t, ht, hclosed⟩)).1
    · intro hsome
      obtain ⟨reason, hreason⟩ := Option.isSome_iff_exists.mp hsome
      have hclosed : HasStatus th S.l2 .closed :=
        hsettled _ (LocalThread.mem_ops.mpr (.inr (.inr ⟨reason, hreason, rfl⟩)))
      obtain ⟨t', ht', hstatus⟩ := Option.map_eq_some_iff.mp hclosed
      rw [Option.some.inj (ht.symm.trans ht')]
      exact hstatus
  · exact h.mirrors.asLocal_of_held hx (hheld x hx)
  · rintro ⟨m, hm, hthread, rfl⟩
    exact (h.mirrors.messages m hm hthread).2

/-- **The mirror converges.** The calls of a run follow a thread, and drains come anywhere among
them, each with any of its attempts failing at any statement. Where every step is in turn and
spares its row, after as many more drains as the queue may still need, it is empty, and the L2 has
the messages and the status of the thread. -/
theorem mirror_converges (hcaller : resolveCaller site username = .ok caller)
    (hfound : recipientFound site caller th.to_ = true)
    (hcontent : ∀ x ∈ th.messages, x.content ≠ "") {s : CrosstalkStore}
    (hthread : s.threads.find th.threadId = none)
    (hids : ∀ m ∈ s.messages, m.id ∉ th.messages.map LocalMessage.id) (steps : List SyncStep)
    (hcalls : steps.filterMap SyncStep.op = th.ops) (drains : List (Nat × List Attempt))
    (hdrains : ∀ d ∈ drains, d.2 ≠ [])
    (hsafe : StepsMeet (SyncState.step site username) (SafeSync (readScope site caller) th)
      (SyncState.fresh s) (steps ++ drains.flatMap fun d => drainOf d.1 d.2))
    (henough : maxAttempts *
      ((SyncState.fresh s).run site username steps).queue.rows.rows.length ≤ drains.length) :
    Converged th ((SyncState.fresh s).run site username
      (steps ++ drains.flatMap fun d => drainOf d.1 d.2)) := by
  obtain ⟨hfirst, hrest⟩ := stepsMeet_append.mp hsafe
  obtain ⟨hsynced, hdone⟩ := synced_run hcaller hfound hcontent (synced_fresh hthread hids) hfirst
    (by rw [hcalls]; exact List.prefix_refl _)
  obtain ⟨hend, hdone', hleft⟩ :=
    left_drains hcaller hfound hcontent hdrains hsynced hrest
  have hbound := left_le ((SyncState.fresh s).run site username steps).queue
  have happend : (SyncState.fresh s).run site username
      (steps ++ drains.flatMap fun d => drainOf d.1 d.2) =
        ((SyncState.fresh s).run site username steps).run site username
          (drains.flatMap fun d => drainOf d.1 d.2) := List.foldl_append
  rw [happend]
  refine hend.converged (hdone'.trans (hdone.trans hcalls)) ?_
  -- a row that is left could still fail
  refine List.eq_nil_iff_forall_not_mem.mpr fun r hr => ?_
  have hlt := (hend.queued r hr).2
  have hpos : r.left ≤ (((SyncState.fresh s).run site username steps).run site username
      (drains.flatMap fun d => drainOf d.1 d.2)).queue.left :=
    List.single_le_sum (fun _ _ => Nat.zero_le _) _ (List.mem_map_of_mem hr)
  unfold PendingRow.left at hpos
  omega

end Runs

/-! ### A thread of alice's -/

/-- alice writes to bob, a reply follows, and the thread is closed. -/
def sampleThread : LocalThread where
  threadId := "th1"
  to_ := "bob"
  subject := none
  send := ⟨"m1", none, "Which key rotates first?"⟩
  replies := [⟨"m2", none, "The old one."⟩]
  close := some none
  named := by decide
  ids := by decide
  nodup := by decide

/-- An attempt that fails after some statements, or is answered. -/
def sampleAttempt (cut : Option Nat) : Attempt := ⟨"2026-06-01T12:00:00Z", "th9", "m9", cut⟩

/-- The send does not get through, and the reply finds no thread; a drain brings both over before
the thread is closed. -/
def sampleSync : List SyncStep :=
  [.call sampleThread.sendOp (sampleAttempt (some 0)) "2026-06-01T12:00:00Z",
    .call (.reply "th1" "m2" "The old one." none) (sampleAttempt none) "2026-06-01T12:00:01Z",
    .list 0, .retry 0 (sampleAttempt none), .retry 0 (sampleAttempt none),
    .call (.closeThread "th1" none) (sampleAttempt none) "2026-06-01T12:00:02Z"]

theorem mirror_converges_sample :
    Converged sampleThread ((SyncState.fresh CrosstalkStore.empty).run (acmeSite "0") "alice"
      (sampleSync ++ [].flatMap fun d : Nat × List Attempt => drainOf d.1 d.2)) := by
  have hsafe : StepsMeet (SyncState.step (acmeSite "0") "alice")
      (SafeSync ⟨"acme", none⟩ sampleThread) (SyncState.fresh CrosstalkStore.empty) sampleSync :=
    @of_decide_eq_true _ (decidableStepsMeet _ _ _ _) (by decide +kernel)
  have hempty : ((SyncState.fresh CrosstalkStore.empty).run (acmeSite "0") "alice"
      sampleSync).queue.rows.rows = [] := by decide +kernel
  have hcaller : resolveCaller (acmeSite "0") "alice" = .ok ⟨"acme", "eng", "user"⟩ := rfl
  refine mirror_converges hcaller (by decide +kernel) (by decide)
    rfl (fun m hm => absurd hm (Table.not_mem_empty m)) sampleSync rfl []
    (fun d hd => nomatch hd) ?_ ?_
  · rw [List.flatMap_nil, List.append_nil]
    exact hsafe
  · rw [hempty]
    exact Nat.zero_le _

/-- The reply does not get through, and the close overtakes it. -/
def sampleOvertaken : List SyncStep :=
  [.call sampleThread.sendOp (sampleAttempt none) "2026-06-01T12:00:00Z",
    .call (.reply "th1" "m2" "The old one." none) (sampleAttempt (some 0)) "2026-06-01T12:00:01Z",
    .call (.closeThread "th1" none) (sampleAttempt none) "2026-06-01T12:00:02Z"]

/-- Drains to which the L2 answers. -/
def sampleDrains : List (Nat × List Attempt) := List.replicate 10 (0, [sampleAttempt none])

/-- The L2 refuses the reply in every drain until the row is stuck, and never has it. -/
theorem sampleOvertaken_diverges :
    sampleOvertaken.filterMap SyncStep.op = sampleThread.ops ∧
    (∀ d ∈ sampleDrains, d.2 ≠ [] ∧ ∀ a ∈ d.2, a.cut = none) ∧
    maxAttempts * ((SyncState.fresh CrosstalkStore.empty).run (acmeSite "0") "alice"
      sampleOvertaken).queue.rows.rows.length ≤ sampleDrains.length ∧
    ¬ Converged sampleThread ((SyncState.fresh CrosstalkStore.empty).run (acmeSite "0") "alice"
      (sampleOvertaken ++ sampleDrains.flatMap fun d => drainOf d.1 d.2)) := by
  have hdrains : ∀ d ∈ sampleDrains, d.2 ≠ [] ∧ ∀ a ∈ d.2, a.cut = none := by
    intro d hd
    obtain rfl := List.eq_of_mem_replicate hd
    simp [sampleAttempt]
  refine ⟨rfl, hdrains, by decide +kernel, fun hconverged => ?_⟩
  have hstuck : ((SyncState.fresh CrosstalkStore.empty).run (acmeSite "0") "alice"
      (sampleOvertaken ++ sampleDrains.flatMap fun d => drainOf d.1 d.2)).queue.rows.rows.map
        PendingRow.attempts = [10] := by decide +kernel
  rw [hconverged.1] at hstuck
  cases hstuck

end EighthLayer.Crosstalk
