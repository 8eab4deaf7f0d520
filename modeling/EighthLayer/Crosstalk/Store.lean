import EighthLayer.Lib.Interleave
import EighthLayer.Lib.Ranking
import EighthLayer.Lib.Table
import Mathlib.Data.String.Basic

/-!
# EighthLayer.Crosstalk.Store

The tables `crosstalk_threads` and `crosstalk_messages`, and the statements by which messages
are sent and threads are closed. Threads are never removed, and messages are only appended.
-/

namespace EighthLayer.Crosstalk

open Lib

/-! ## Rows -/

/-- The states of a thread. -/
inductive ThreadStatus where
  | opened
  | closed
deriving DecidableEq

/-- A row of `crosstalk_threads`. -/
structure Thread where
  id : String
  subject : String
  status : ThreadStatus
  closedAt : Option String
  closedByUsername : Option String
  closedReason : Option String
  enterpriseId : String
  groupId : String
  createdAt : String
  createdByUsername : String
  participants : List String
deriving DecidableEq

/-- A row of `crosstalk_messages`, when it was read apart. -/
structure Message where
  id : String
  threadId : String
  fromUsername : String
  fromPersona : Option String
  toUsername : Option String
  content : String
  sentAt : String
  enterpriseId : String
  groupId : String
deriving DecidableEq

/-- The tenancy that a query is pinned to: an Enterprise, and a group of it if one is given. -/
structure Scope where
  enterprise : String
  group : Option String
deriving DecidableEq

/-- `enterprise_id = :tenant`, and `group_id = :tgroup` if there is one. -/
def Scope.covers (scope : Scope) (enterpriseId groupId : String) : Bool :=
  enterpriseId = scope.enterprise && scope.group.all (groupId = ·)

def Thread.inScope (t : Thread) (scope : Scope) : Bool := scope.covers t.enterpriseId t.groupId

def Message.inScope (m : Message) (scope : Scope) : Bool := scope.covers m.enterpriseId m.groupId

/-- What messages are ordered by: `sent_at ASC, id ASC`. -/
def Message.order (m : Message) : Lex (String × String) := toLex (m.sentAt, m.id)

/-- A row after the `UPDATE` of `_close_crosstalk_thread_sync` has reached it. -/
def Thread.close (t : Thread) (closedBy closedAt : String) (reason : Option String) : Thread :=
  { t with
    status := .closed
    closedAt := some closedAt
    closedByUsername := some closedBy
    closedReason := reason }

@[simp] theorem Thread.close_id (t : Thread) (closedBy closedAt : String) (reason : Option String) :
    (t.close closedBy closedAt reason).id = t.id := rfl

/-- The rows that the `UPDATE` reaches. -/
def Thread.closable (threadId : String) (scope : Scope) (t : Thread) : Bool :=
  t.id = threadId && t.inScope scope && t.status = .opened

/-! ## The tables -/

/-- The two tables. Foreign keys are enforced: every message belongs to a thread. -/
structure CrosstalkStore where
  threads : Table Thread.id
  messages : Table Message.id
  foreignKey : ∀ m ∈ messages, ∃ t ∈ threads, t.id = m.threadId

namespace CrosstalkStore

@[ext] theorem ext {s s' : CrosstalkStore} (ht : s.threads = s'.threads)
    (hm : s.messages = s'.messages) : s = s' := by
  cases s
  cases s'
  cases ht
  cases hm
  rfl

/-- No crosstalk. -/
def empty : CrosstalkStore where
  threads := .empty
  messages := .empty
  foreignKey := by simp

/-- `_get_crosstalk_thread_sync`. -/
def getThread (s : CrosstalkStore) (threadId : String) (scope : Scope) : Option Thread :=
  (s.threads.find threadId).filter fun t => t.inScope scope

theorem getThread_eq_some_iff {s : CrosstalkStore} {threadId : String} {scope : Scope}
    {t : Thread} :
    s.getThread threadId scope = some t ↔
      s.threads.find threadId = some t ∧ t.inScope scope = true := Option.filter_eq_some_iff

/-- The messages of a thread. -/
def visible (s : CrosstalkStore) (threadId : String) (scope : Scope) : List Message :=
  s.messages.rows.filter fun m => m.threadId = threadId && m.inScope scope

/-- The messages of a thread, oldest first. -/
def listed (s : CrosstalkStore) (threadId : String) (scope : Scope) : List Message :=
  (s.visible threadId scope).mergeSort fun m m' => m.order ≤ m'.order

/-- `_list_crosstalk_messages_sync`. -/
def listMessages (s : CrosstalkStore) (threadId : String) (scope : Scope) (limit : Nat) :
    List Message :=
  (s.listed threadId scope).take limit

theorem mem_listed {s : CrosstalkStore} {threadId : String} {scope : Scope} {m : Message} :
    m ∈ s.listed threadId scope ↔
      m ∈ s.messages ∧ m.threadId = threadId ∧ m.inScope scope = true := by
  unfold listed visible
  rw [List.mem_mergeSort, List.mem_filter, Bool.and_eq_true, decide_eq_true_eq]
  exact Iff.rfl

/-- No two messages have one place. -/
theorem listed_sorted (s : CrosstalkStore) (threadId : String) (scope : Scope) :
    (s.listed threadId scope).Pairwise fun m m' => m.order < m'.order := by
  have hle : (s.listed threadId scope).Pairwise fun m m' => decide (m.order ≤ m'.order) = true :=
    List.pairwise_mergeSort
      (fun a b c hab hbc =>
        decide_eq_true ((of_decide_eq_true hab).trans (of_decide_eq_true hbc)))
      (fun a b => by
        rcases le_total a.order b.order with h | h
        · simp [h]
        · simp [h]) _
  have hids : (s.listed threadId scope).Pairwise fun m m' => m.id ≠ m'.id := by
    have hrows : s.messages.rows.Pairwise fun m m' => m.id ≠ m'.id :=
      List.pairwise_map.mp s.messages.nodup
    exact (hrows.filter _).perm (List.mergeSort_perm _ _).symm fun h => h.symm
  refine hle.imp₂ (fun m m' hle hne => ?_) hids
  refine lt_of_le_of_ne (of_decide_eq_true hle) fun heq => hne ?_
  exact congrArg (fun k => (ofLex k).2) heq

/-- A message is among the first that are listed exactly if so few of its thread are before it. -/
theorem mem_listMessages_iff {s : CrosstalkStore} {threadId : String} {scope : Scope}
    {limit : Nat} {m : Message} (hm : m ∈ s.listed threadId scope) :
    m ∈ s.listMessages threadId scope limit ↔
      (s.visible threadId scope).countP (fun m' => m'.order < m.order) < limit := by
  unfold listMessages
  rw [mem_take_iff_countP_lt (s.listed_sorted threadId scope) hm]
  exact iff_of_eq (congrArg (· < limit) ((List.mergeSort_perm _ _).countP_eq _))

theorem mem_of_listMessages {s : CrosstalkStore} {threadId : String} {scope : Scope} {limit : Nat}
    {m : Message} (h : m ∈ s.listMessages threadId scope limit) :
    m ∈ s.messages ∧ m.threadId = threadId ∧ m.inScope scope = true :=
  mem_listed.mp (List.mem_of_mem_take h)

/-- `_create_crosstalk_thread_sync`; `none` when the id is taken (`IntegrityError`). -/
def createThread (s : CrosstalkStore) (t : Thread) : Option CrosstalkStore :=
  match hins : s.threads.insert t with
  | none => none
  | some threads => some
      { s with
        threads
        foreignKey := by
          intro m hm
          obtain ⟨t', ht', hid⟩ := s.foreignKey m hm
          exact ⟨t', (Table.mem_insert hins).mpr (.inl ht'), hid⟩ }

theorem createThread_eq_some {s s' : CrosstalkStore} {t : Thread}
    (h : s.createThread t = some s') :
    s.threads.insert t = some s'.threads ∧ s'.messages = s.messages := by
  unfold createThread at h
  split at h
  · cases h
  · rename_i threads hins
    cases h
    exact ⟨hins, rfl⟩

/-- `_append_crosstalk_message_sync`; `none` when the id is taken or the thread is not there. -/
def appendMessage (s : CrosstalkStore) (m : Message) : Option CrosstalkStore :=
  match hins : s.messages.insert m with
  | none => none
  | some messages =>
    if hthread : s.threads.find m.threadId = none then none
    else some
      { s with
        messages
        foreignKey := by
          intro x hx
          rcases (Table.mem_insert hins).mp hx with hx | rfl
          · exact s.foreignKey x hx
          · obtain ⟨t, ht⟩ := Option.ne_none_iff_exists'.mp hthread
            exact ⟨t, Table.find_eq_some_iff.mp ht⟩ }

theorem appendMessage_eq_some {s s' : CrosstalkStore} {m : Message}
    (h : s.appendMessage m = some s') :
    s.messages.insert m = some s'.messages ∧ s'.threads = s.threads := by
  unfold appendMessage at h
  split at h
  · cases h
  · rename_i messages hins
    split at h
    · cases h
    · cases h
      exact ⟨hins, rfl⟩

/-- A message whose id is taken is not appended. -/
theorem appendMessage_of_taken {s : CrosstalkStore} {m m' : Message} (hm' : m' ∈ s.messages)
    (hid : m'.id = m.id) : s.appendMessage m = none := by
  cases happend : s.appendMessage m with
  | none => rfl
  | some s' =>
      have hfree := Table.find_none_of_insert (appendMessage_eq_some happend).1
      exact absurd hid (Table.find_eq_none_iff.mp hfree m' hm')

/-- `_close_crosstalk_thread_sync`: whether a row was updated, and the tables after it. -/
def closeThread (s : CrosstalkStore) (threadId closedBy closedAt : String)
    (reason : Option String) (scope : Scope) : Bool × CrosstalkStore :=
  (s.threads.rows.any (Thread.closable threadId scope),
    { s with
      threads := s.threads.update (Thread.closable threadId scope)
        (fun t => t.close closedBy closedAt reason) fun t => t.close_id closedBy closedAt reason
      foreignKey := by
        intro m hm
        obtain ⟨t, ht, hid⟩ := s.foreignKey m hm
        refine ⟨_, Table.mem_update.mpr ⟨t, ht, rfl⟩, ?_⟩
        split
        · exact hid
        · exact hid })

theorem closeThread_find (s : CrosstalkStore) (threadId closedBy closedAt : String)
    (reason : Option String) (scope : Scope) (k : String) :
    (s.closeThread threadId closedBy closedAt reason scope).2.threads.find k =
      (s.threads.find k).map fun t =>
        if t.closable threadId scope then t.close closedBy closedAt reason else t :=
  @Table.find_update _ _ _ s.threads _ _ (fun t => t.close_id closedBy closedAt reason) _ k

end CrosstalkStore

/-! ## The statements -/

/-- The statements of the routes, each a transaction of its own. -/
inductive CrosstalkStmt where
  | getThread (threadId : String) (scope : Scope)
  | listMessages (threadId : String) (scope : Scope) (limit : Nat)
  | createThread (t : Thread)
  | appendMessage (m : Message)
  | closeThread (threadId closedBy closedAt : String) (reason : Option String) (scope : Scope)

/-- What a statement answers; a writing one, whether it has written. -/
@[reducible] def CrosstalkStmt.Answer : CrosstalkStmt → Type
  | getThread _ _ => Option Thread
  | listMessages _ _ _ => List Message
  | createThread _ | appendMessage _ | closeThread _ _ _ _ _ => Bool

def CrosstalkStmt.exec : (q : CrosstalkStmt) → CrosstalkStore → q.Answer × CrosstalkStore
  | getThread threadId scope, s => (s.getThread threadId scope, s)
  | listMessages threadId scope limit, s => (s.listMessages threadId scope limit, s)
  | createThread t, s =>
      match s.createThread t with
      | none => (false, s)
      | some s' => (true, s')
  | appendMessage m, s =>
      match s.appendMessage m with
      | none => (false, s)
      | some s' => (true, s')
  | closeThread threadId closedBy closedAt reason scope, s =>
      s.closeThread threadId closedBy closedAt reason scope

instance : Database CrosstalkStore CrosstalkStmt.Answer := ⟨CrosstalkStmt.exec⟩

/-- Programs of these statements. -/
abbrev CrosstalkProg (α : Type) : Type := Prog CrosstalkStmt.Answer α

/-- The worlds they run in. -/
abbrev CrosstalkWorld : Type := World CrosstalkStore CrosstalkStmt.Answer

/-- What any statement may do to the tables: no thread is removed or given other participants
or another tenancy, a closed one stays as it is, and no message is removed. -/
structure CrosstalkStore.Grows (s s' : CrosstalkStore) : Prop where
  threads : ∀ k t, s.threads.find k = some t → ∃ t', s'.threads.find k = some t' ∧
    t'.participants = t.participants ∧ t'.enterpriseId = t.enterpriseId ∧
      t'.groupId = t.groupId ∧ (t.status = .closed → t' = t)
  messages : ∀ m ∈ s.messages, m ∈ s'.messages

namespace CrosstalkStore.Grows

theorem refl (s : CrosstalkStore) : s.Grows s where
  threads := fun _ t ht => ⟨t, ht, rfl, rfl, rfl, fun _ => rfl⟩
  messages := fun _ hm => hm

theorem trans {s₁ s₂ s₃ : CrosstalkStore} (h : s₁.Grows s₂) (h' : s₂.Grows s₃) : s₁.Grows s₃ where
  threads := by
    intro k t ht
    obtain ⟨t', ht', hparts, hent, hgroup, hclosed⟩ := h.threads k t ht
    obtain ⟨t'', ht'', hparts', hent', hgroup', hclosed'⟩ := h'.threads k t' ht'
    refine ⟨t'', ht'', hparts'.trans hparts, hent'.trans hent, hgroup'.trans hgroup, fun hc => ?_⟩
    have heq := hclosed hc
    subst heq
    exact hclosed' hc
  messages := fun m hm => h'.messages m (h.messages m hm)

/-- A thread that a query finds is found again. -/
theorem getThread {s s' : CrosstalkStore} (h : s.Grows s') {threadId : String} {scope : Scope}
    {t : Thread} (ht : s.getThread threadId scope = some t) :
    ∃ t', s'.getThread threadId scope = some t' ∧ t'.participants = t.participants ∧
      (t.status = .closed → t' = t) := by
  obtain ⟨hfind, hscope⟩ := getThread_eq_some_iff.mp ht
  obtain ⟨t', ht', hparts, hent, hgroup, hclosed⟩ := h.threads threadId t hfind
  refine ⟨t', getThread_eq_some_iff.mpr ⟨ht', ?_⟩, hparts, hclosed⟩
  unfold Thread.inScope at hscope ⊢
  rw [hent, hgroup]
  exact hscope

end CrosstalkStore.Grows

namespace CrosstalkStmt

variable {s : CrosstalkStore}

@[simp] theorem exec_getThread (threadId : String) (scope : Scope) :
    Database.exec (A := Answer) (.getThread threadId scope) s =
      (s.getThread threadId scope, s) := rfl

@[simp] theorem exec_listMessages (threadId : String) (scope : Scope) (limit : Nat) :
    Database.exec (A := Answer) (.listMessages threadId scope limit) s =
      (s.listMessages threadId scope limit, s) := rfl

/-- The step lemma for messages: those that were there, and one that was appended. -/
theorem mem_exec_messages {q : CrosstalkStmt} {m : Message} :
    m ∈ (q.exec s).2.messages ↔
      m ∈ s.messages ∨ (q = .appendMessage m ∧ s.appendMessage m ≠ none) := by
  cases q with
  | getThread threadId scope => simp [exec]
  | listMessages threadId scope limit => simp [exec]
  | createThread t =>
      unfold exec
      dsimp only
      split
      · simp
      · rename_i s' hs
        simp [(CrosstalkStore.createThread_eq_some hs).2]
  | closeThread threadId closedBy closedAt reason scope =>
      show m ∈ s.messages ↔ _
      simp
  | appendMessage x =>
      unfold exec
      dsimp only
      split
      · rename_i hnone
        refine ⟨.inl, ?_⟩
        rintro (hm | ⟨hq, hsome⟩)
        · exact hm
        · cases hq
          exact absurd hnone hsome
      · rename_i s' hs
        rw [Table.mem_insert (CrosstalkStore.appendMessage_eq_some hs).1]
        refine or_congr_right ⟨?_, ?_⟩
        · rintro rfl
          exact ⟨rfl, hs ▸ Option.some_ne_none _⟩
        · rintro ⟨hq, -⟩
          exact (CrosstalkStmt.appendMessage.inj hq).symm

/-- Every statement lets the tables grow. -/
theorem grows_exec (q : CrosstalkStmt) (s : CrosstalkStore) : s.Grows (q.exec s).2 where
  messages := fun m hm => mem_exec_messages.mpr (.inl hm)
  threads := by
    intro k t ht
    cases q with
    | getThread threadId scope => exact ⟨t, ht, rfl, rfl, rfl, fun _ => rfl⟩
    | listMessages threadId scope limit => exact ⟨t, ht, rfl, rfl, rfl, fun _ => rfl⟩
    | createThread head =>
        unfold exec
        dsimp only
        split
        · exact ⟨t, ht, rfl, rfl, rfl, fun _ => rfl⟩
        · rename_i s' hs
          have hins := (CrosstalkStore.createThread_eq_some hs).1
          exact ⟨t, Table.find_insert_of_some hins ht, rfl, rfl, rfl, fun _ => rfl⟩
    | appendMessage m =>
        unfold exec
        dsimp only
        split
        · exact ⟨t, ht, rfl, rfl, rfl, fun _ => rfl⟩
        · rename_i s' hs
          rw [(CrosstalkStore.appendMessage_eq_some hs).2]
          exact ⟨t, ht, rfl, rfl, rfl, fun _ => rfl⟩
    | closeThread threadId closedBy closedAt reason scope =>
        unfold exec
        rw [CrosstalkStore.closeThread_find, ht, Option.map_some]
        by_cases hclosable : t.closable threadId scope = true
        · have hopen : t.status = .opened := by
            simp only [Thread.closable, Bool.and_eq_true, decide_eq_true_eq] at hclosable
            exact hclosable.2
          rw [if_pos hclosable]
          refine ⟨_, rfl, rfl, rfl, rfl, fun hclosed => ?_⟩
          rw [hopen] at hclosed
          cases hclosed
        · rw [if_neg hclosable]
          exact ⟨t, rfl, rfl, rfl, rfl, fun _ => rfl⟩

/-- A thread that has been created is there. -/
theorem find_of_created {t : Thread}
    (h : (Database.exec (A := Answer) (.createThread t) s).1 = true) :
    (Database.exec (A := Answer) (.createThread t) s).2.threads.find t.id = some t := by
  change ((createThread t).exec s).1 = true at h
  change ((createThread t).exec s).2.threads.find t.id = some t
  unfold exec at h ⊢
  dsimp only at h ⊢
  split at h
  · cases h
  · rename_i s' hs
    exact Table.find_insert_self (CrosstalkStore.createThread_eq_some hs).1

/-- A message that has been appended is there. -/
theorem mem_of_appended {m : Message}
    (h : (Database.exec (A := Answer) (.appendMessage m) s).1 = true) :
    m ∈ (Database.exec (A := Answer) (.appendMessage m) s).2.messages := by
  refine mem_exec_messages.mpr (.inr ⟨rfl, fun hnone => ?_⟩)
  change ((appendMessage m).exec s).1 = true at h
  unfold exec at h
  dsimp only at h
  rw [hnone] at h
  cases h

/-- A thread whose closing has succeeded is closed. -/
theorem closed_of_closeThread {threadId closedBy closedAt : String} {reason : Option String}
    {scope : Scope}
    (h : (Database.exec (A := Answer) (.closeThread threadId closedBy closedAt reason scope) s).1 =
      true) :
    ∃ t, (Database.exec (A := Answer)
        (.closeThread threadId closedBy closedAt reason scope) s).2.threads.find threadId = some t ∧
      t.status = .closed := by
  obtain ⟨t, ht, hclosable⟩ := List.any_eq_true.mp h
  have hid : t.id = threadId := by
    simp only [Thread.closable, Bool.and_eq_true, decide_eq_true_eq] at hclosable
    exact hclosable.1.1
  have hfind : s.threads.find threadId = some t := Table.find_eq_some_iff.mpr ⟨ht, hid⟩
  refine ⟨t.close closedBy closedAt reason, ?_, rfl⟩
  refine (CrosstalkStore.closeThread_find s threadId closedBy closedAt reason scope threadId).trans ?_
  rw [hfind, Option.map_some, if_pos hclosable]

end CrosstalkStmt

end EighthLayer.Crosstalk
