import EighthLayer.Consults.XEnterprise
import EighthLayer.Lib.Interleave

/-!
# EighthLayer.Consults.Store

The tables `consults` and `consult_messages`, and the statements that the consult routes
issue. Threads are opened and closed, never removed; messages are only appended.
-/

namespace EighthLayer.Consults

open Lib Aigrp

/-! ## The tables -/

/-- The states of a thread. -/
inductive ThreadStatus where
  | opened
  | closed
deriving DecidableEq

/-- What a thread is opened with. -/
@[ext] structure ThreadHead where
  threadId : String
  fromL2Id : String
  fromPersona : String
  toL2Id : String
  toPersona : String
  subject : Option String
  createdAt : String
  /-- No route takes a longer one. -/
  subject_le : ∀ s, subject = some s → s.length ≤ 512

instance : DecidableEq ThreadHead := fun _ _ => decidable_of_iff' _ ThreadHead.ext_iff

/-- Whether a persona of an L2 is one of the two participants. -/
def ThreadHead.Participant (h : ThreadHead) (l2Id persona : String) : Prop :=
  (h.fromL2Id = l2Id ∧ h.fromPersona = persona) ∨ (h.toL2Id = l2Id ∧ h.toPersona = persona)

instance (h : ThreadHead) (l2Id persona : String) : Decidable (h.Participant l2Id persona) :=
  inferInstanceAs (Decidable (_ ∨ _))

/-- A row of `consults`. -/
structure Thread extends ThreadHead where
  status : ThreadStatus
  claimedBy : Option String
  closedAt : Option String
  resolutionSummary : Option String
deriving DecidableEq

/-- The primary key. -/
def Thread.id (t : Thread) : String := t.threadId

/-- The row of a thread that has just been opened. -/
def ThreadHead.row (h : ThreadHead) : Thread where
  toThreadHead := h
  status := .opened
  claimedBy := none
  closedAt := none
  resolutionSummary := none

@[simp] theorem ThreadHead.row_head (h : ThreadHead) : h.row.toThreadHead = h := rfl

@[simp] theorem ThreadHead.row_status (h : ThreadHead) : h.row.status = .opened := rfl

@[simp] theorem ThreadHead.row_id (h : ThreadHead) : h.row.id = h.threadId := rfl

/-- `WHERE thread_id = :tid AND status != 'closed'`. -/
def Thread.isOpen (threadId : String) (t : Thread) : Bool :=
  t.id = threadId && t.status ≠ .closed

/-- A row after the `UPDATE` of `_close_consult_sync` has reached it. -/
def Thread.close (t : Thread) (closedAt : String) (resolutionSummary : Option String) : Thread :=
  { t with status := .closed, closedAt := some closedAt, resolutionSummary }

theorem Thread.isOpen_iff {threadId : String} {t : Thread} :
    t.isOpen threadId = true ↔ t.id = threadId ∧ t.status = .opened := by
  cases h : t.status with
  | opened => simp [isOpen, h]
  | closed => simp [isOpen, h]

@[simp] theorem Thread.close_head (t : Thread) (closedAt : String)
    (resolutionSummary : Option String) :
    (t.close closedAt resolutionSummary).toThreadHead = t.toThreadHead := rfl

@[simp] theorem Thread.close_id (t : Thread) (closedAt : String)
    (resolutionSummary : Option String) : (t.close closedAt resolutionSummary).id = t.id := rfl

@[simp] theorem Thread.close_status (t : Thread) (closedAt : String)
    (resolutionSummary : Option String) :
    (t.close closedAt resolutionSummary).status = .closed := rfl

/-- A row of `consult_messages`. -/
structure Message where
  messageId : String
  threadId : String
  fromL2Id : String
  fromPersona : String
  content : String
  createdAt : String
deriving DecidableEq

/-- The two tables. Foreign keys are enforced: every message belongs to a thread. -/
structure ConsultStore where
  threads : Table Thread.id
  messages : Table Message.messageId
  foreignKey : ∀ m ∈ messages, ∃ t ∈ threads, t.id = m.threadId

namespace ConsultStore

@[ext] theorem ext {s s' : ConsultStore} (ht : s.threads = s'.threads)
    (hm : s.messages = s'.messages) : s = s' := by
  cases s
  cases s'
  cases ht
  cases hm
  rfl

instance : DecidableEq ConsultStore := fun s s' =>
  decidable_of_iff (s.threads = s'.threads ∧ s.messages = s'.messages)
    ⟨fun h => ConsultStore.ext h.1 h.2, fun h => h ▸ ⟨rfl, rfl⟩⟩

/-- No consults. -/
def empty : ConsultStore where
  threads := .empty
  messages := .empty
  foreignKey := by simp

@[simp] theorem empty_threads : empty.threads = .empty := rfl

@[simp] theorem empty_messages : empty.messages = .empty := rfl

/-! ## The transactions -/

/-- `_create_consult_sync`; `none` when the thread id is taken (`IntegrityError`). -/
def createConsult (s : ConsultStore) (h : ThreadHead) : Option ConsultStore :=
  match hins : s.threads.insert h.row with
  | none => none
  | some threads => some
      { s with
        threads
        foreignKey := by
          intro m hm
          obtain ⟨t, ht, hid⟩ := s.foreignKey m hm
          exact ⟨t, (Table.mem_insert hins).mpr (.inl ht), hid⟩ }

theorem createConsult_eq_some {s s' : ConsultStore} {h : ThreadHead}
    (hs : s.createConsult h = some s') :
    s.threads.insert h.row = some s'.threads ∧ s'.messages = s.messages := by
  unfold createConsult at hs
  split at hs
  · cases hs
  · rename_i threads hins
    cases hs
    exact ⟨hins, rfl⟩

theorem createConsult_eq_none_iff {s : ConsultStore} {h : ThreadHead} :
    s.createConsult h = none ↔ s.threads.find h.threadId ≠ none := by
  have hnone : s.createConsult h = none ↔ s.threads.insert h.row = none := by
    unfold createConsult
    split
    · rename_i hins
      simp [hins]
    · rename_i threads hins
      simp [hins]
  rw [hnone, Table.insert_eq_none_iff, ne_eq, Table.find_eq_none_iff]
  simp

/-- How an append ends. The primary key is checked when the row is inserted, the foreign
key at the end of the statement. -/
inductive Appended where
  | inserted
  | uniqueFailed
  | foreignKeyFailed
deriving DecidableEq

/-- `_append_consult_message_sync`. -/
def appendConsultMessage (s : ConsultStore) (m : Message) : Appended × ConsultStore :=
  match hins : s.messages.insert m with
  | none => (.uniqueFailed, s)
  | some messages =>
      if hthread : s.threads.find m.threadId = none then (.foreignKeyFailed, s)
      else
        (.inserted,
          { s with
            messages
            foreignKey := by
              intro x hx
              rcases (Table.mem_insert hins).mp hx with hx | rfl
              · exact s.foreignKey x hx
              · obtain ⟨t, ht⟩ := Option.ne_none_iff_exists'.mp hthread
                exact ⟨t, Table.find_eq_some_iff.mp ht⟩ })

/-- What an append does: the message is new and its thread is there, or nothing changes. -/
theorem appendConsultMessage_cases (s : ConsultStore) (m : Message) :
    ((s.appendConsultMessage m).1 = .inserted ∧ s.messages.find m.messageId = none ∧
        s.threads.find m.threadId ≠ none ∧
        (s.appendConsultMessage m).2.threads = s.threads ∧
        s.messages.insert m = some (s.appendConsultMessage m).2.messages) ∨
    (s.appendConsultMessage m = (.uniqueFailed, s) ∧ s.messages.find m.messageId ≠ none) ∨
    (s.appendConsultMessage m = (.foreignKeyFailed, s) ∧ s.messages.find m.messageId = none ∧
        s.threads.find m.threadId = none) := by
  unfold appendConsultMessage
  split
  · rename_i hins
    obtain ⟨m', hm', hid⟩ := Table.insert_eq_none_iff.mp hins
    refine .inr (.inl ⟨rfl, ?_⟩)
    intro hnone
    exact Table.find_eq_none_iff.mp hnone m' hm' hid
  · rename_i messages hins
    have hfree := Table.find_none_of_insert hins
    split
    · rename_i hthread
      exact .inr (.inr ⟨rfl, hfree, hthread⟩)
    · rename_i hthread
      exact .inl ⟨rfl, hfree, hthread, rfl, hins⟩

/-- `_close_consult_sync`: whether a row was updated, and the tables after it. -/
def closeConsult (s : ConsultStore) (threadId closedAt : String)
    (resolutionSummary : Option String) : Bool × ConsultStore :=
  (s.threads.rows.any (Thread.isOpen threadId),
    { s with
      threads := s.threads.update (Thread.isOpen threadId)
        (fun t => t.close closedAt resolutionSummary)
        fun t => t.close_id closedAt resolutionSummary
      foreignKey := by
        intro m hm
        obtain ⟨t, ht, hid⟩ := s.foreignKey m hm
        refine ⟨_, Table.mem_update.mpr ⟨t, ht, rfl⟩, ?_⟩
        split
        · exact hid
        · exact hid })

theorem closeConsult_find (s : ConsultStore) (threadId closedAt : String)
    (resolutionSummary : Option String) (k : String) :
    (s.closeConsult threadId closedAt resolutionSummary).2.threads.find k =
      (s.threads.find k).map fun t =>
        if t.isOpen threadId then t.close closedAt resolutionSummary else t :=
  @Table.find_update _ _ _ s.threads _ _ (fun t => t.close_id closedAt resolutionSummary) _ k

@[simp] theorem closeConsult_messages (s : ConsultStore) (threadId closedAt : String)
    (resolutionSummary : Option String) :
    (s.closeConsult threadId closedAt resolutionSummary).2.messages = s.messages := rfl

end ConsultStore

/-! ## Forwards -/

/-- `ForwardMessageBody`, as validated. -/
@[ext] structure ForwardMessageBody where
  threadId : String
  messageId : String
  fromL2Id : String
  fromPersona : String
  content : String
  createdAt : String
  threadSubject : Option String
  threadToL2Id : Option String
  threadToPersona : Option String
  threadFromL2Id : Option String
  threadFromPersona : Option String
  threadCreatedAt : Option String
  content_ne : content ≠ ""
  content_le : content.length ≤ 4096
  threadSubject_le : ∀ s, threadSubject = some s → s.length ≤ 512

instance : DecidableEq ForwardMessageBody := fun _ _ => decidable_of_iff' _ ForwardMessageBody.ext_iff

/-- What is posted to another L2, by the path it is posted to. -/
inductive Payload where
  /-- `/consults/forward-request`. -/
  | request (body : ForwardRequestBody)
  /-- `/consults/forward-message`. -/
  | message (body : ForwardMessageBody)
  /-- `/consults/x-enterprise-forward-request`. -/
  | xEnterpriseRequest (body : ForwardRequestBody)
deriving DecidableEq

/-- A post to another L2. -/
structure Forward where
  target : String
  request : Request
  payload : Payload
deriving DecidableEq

/-! ## The statements -/

/-- The statements of the routes, each a transaction of its own, and the posts to other
L2s between them. -/
inductive ConsultStmt where
  | getConsult (threadId : String)
  | createConsult (head : ThreadHead)
  | appendConsultMessage (m : Message)
  | closeConsult (threadId closedAt : String) (resolutionSummary : Option String)
  | post (f : Forward)

/-- What a statement answers. -/
@[reducible] def ConsultStmt.Answer : ConsultStmt → Type
  | getConsult _ => Option Thread
  | createConsult _ | closeConsult _ _ _ => Bool
  | appendConsultMessage _ => ConsultStore.Appended
  | post _ => Unit

def ConsultStmt.exec : (q : ConsultStmt) → ConsultStore → q.Answer × ConsultStore
  | getConsult threadId, s => (s.threads.find threadId, s)
  | createConsult head, s =>
      match s.createConsult head with
      | none => (false, s)
      | some s' => (true, s')
  | appendConsultMessage m, s => s.appendConsultMessage m
  | closeConsult threadId closedAt resolutionSummary, s =>
      s.closeConsult threadId closedAt resolutionSummary
  | post _, s => ((), s)

instance : Database ConsultStore ConsultStmt.Answer := ⟨ConsultStmt.exec⟩

/-- What any statement may do to the tables: no thread is removed or given other
participants, a closed one stays as it is, and no message is removed. -/
structure ConsultStore.Grows (s s' : ConsultStore) : Prop where
  threads : ∀ k t, s.threads.find k = some t → ∃ t', s'.threads.find k = some t' ∧
    t'.toThreadHead = t.toThreadHead ∧ (t.status = .closed → t' = t)
  messages : ∀ m ∈ s.messages, m ∈ s'.messages

namespace ConsultStore.Grows

theorem refl (s : ConsultStore) : s.Grows s where
  threads := fun _ t ht => ⟨t, ht, rfl, fun _ => rfl⟩
  messages := fun _ hm => hm

theorem trans {s₁ s₂ s₃ : ConsultStore} (h : s₁.Grows s₂) (h' : s₂.Grows s₃) : s₁.Grows s₃ where
  threads := by
    intro k t ht
    obtain ⟨t', ht', hhead, hclosed⟩ := h.threads k t ht
    obtain ⟨t'', ht'', hhead', hclosed'⟩ := h'.threads k t' ht'
    refine ⟨t'', ht'', hhead'.trans hhead, fun hc => ?_⟩
    have heq := hclosed hc
    subst heq
    exact hclosed' hc
  messages := fun m hm => h'.messages m (h.messages m hm)

end ConsultStore.Grows

namespace ConsultStmt

/-- The step lemma for messages: those that were there, and one that was appended. -/
theorem mem_exec_messages {q : ConsultStmt} {s : ConsultStore} {m : Message} :
    m ∈ (q.exec s).2.messages ↔
      m ∈ s.messages ∨
        (q = .appendConsultMessage m ∧ (s.appendConsultMessage m).1 = .inserted) := by
  cases q with
  | getConsult threadId => simp [exec]
  | post f => simp [exec]
  | createConsult head =>
      unfold exec
      dsimp only
      split
      · simp
      · rename_i s' hs
        simp [(ConsultStore.createConsult_eq_some hs).2]
  | closeConsult threadId closedAt resolutionSummary => simp [exec]
  | appendConsultMessage x =>
      show m ∈ (s.appendConsultMessage x).2.messages ↔ _
      rcases s.appendConsultMessage_cases x with ⟨hok, -, -, -, hins⟩ | ⟨heq, -⟩ | ⟨heq, -⟩
      · rw [Table.mem_insert hins]
        refine or_congr_right ⟨?_, ?_⟩
        · rintro rfl
          exact ⟨rfl, hok⟩
        · rintro ⟨hq, -⟩
          exact (ConsultStmt.appendConsultMessage.inj hq).symm
      · rw [heq]
        refine ⟨.inl, ?_⟩
        rintro (hm | ⟨hq, hok⟩)
        · exact hm
        · cases hq
          rw [heq] at hok
          cases hok
      · rw [heq]
        refine ⟨.inl, ?_⟩
        rintro (hm | ⟨hq, hok⟩)
        · exact hm
        · cases hq
          rw [heq] at hok
          cases hok

/-- The step lemma for threads: one that was there, perhaps closed since, and one that was
opened. -/
theorem find_exec_threads {q : ConsultStmt} {s : ConsultStore} {k : String} {t' : Thread}
    (h : (q.exec s).2.threads.find k = some t') :
    (∃ t, s.threads.find k = some t ∧ (t' = t ∨ ∃ closedAt resolutionSummary,
        q = .closeConsult k closedAt resolutionSummary ∧ t.status = .opened ∧
          t' = t.close closedAt resolutionSummary)) ∨
      (s.threads.find k = none ∧ ∃ head, q = .createConsult head ∧ head.threadId = k ∧
        t' = head.row) := by
  cases q with
  | getConsult threadId => exact .inl ⟨t', h, .inl rfl⟩
  | post f => exact .inl ⟨t', h, .inl rfl⟩
  | createConsult head =>
      unfold exec at h
      dsimp only at h
      split at h
      · exact .inl ⟨t', h, .inl rfl⟩
      · rename_i s' hs
        have hins := (ConsultStore.createConsult_eq_some hs).1
        obtain ⟨hmem, hid⟩ := Table.find_eq_some_iff.mp h
        rcases (Table.mem_insert hins).mp hmem with hmem | rfl
        · exact .inl ⟨t', Table.find_eq_some_iff.mpr ⟨hmem, hid⟩, .inl rfl⟩
        · exact .inr ⟨hid ▸ Table.find_none_of_insert hins, head, rfl, hid, rfl⟩
  | closeConsult threadId closedAt resolutionSummary =>
      unfold exec at h
      rw [ConsultStore.closeConsult_find] at h
      obtain ⟨t, ht, heq⟩ := Option.map_eq_some_iff.mp h
      refine .inl ⟨t, ht, ?_⟩
      split at heq
      · rename_i hopen
        obtain ⟨hid, hstatus⟩ := Thread.isOpen_iff.mp hopen
        have hk := (Table.find_eq_some_iff.mp ht).2
        exact .inr ⟨closedAt, resolutionSummary, by rw [← hk, hid], hstatus, heq.symm⟩
      · exact .inl heq.symm
  | appendConsultMessage m =>
      refine .inl ⟨t', ?_, .inl rfl⟩
      change (s.appendConsultMessage m).2.threads.find k = some t' at h
      rcases s.appendConsultMessage_cases m with ⟨-, -, -, hthreads, -⟩ | ⟨heq, -⟩ | ⟨heq, -⟩
      · rwa [hthreads] at h
      · rwa [heq] at h
      · rwa [heq] at h

/-- A thread that has been created is there. -/
theorem find_of_created {head : ThreadHead} {s : ConsultStore}
    (h : ((createConsult head).exec s).1 = true) :
    ((createConsult head).exec s).2.threads.find head.threadId = some head.row := by
  unfold exec at h ⊢
  dsimp only at h ⊢
  split at h
  · cases h
  · rename_i s' hs
    exact Table.find_insert_self (ConsultStore.createConsult_eq_some hs).1

/-- Every statement lets the tables grow. -/
theorem grows_exec (q : ConsultStmt) (s : ConsultStore) : s.Grows (q.exec s).2 where
  messages := fun m hm => mem_exec_messages.mpr (.inl hm)
  threads := by
    intro k t ht
    cases q with
    | getConsult threadId => exact ⟨t, ht, rfl, fun _ => rfl⟩
    | post f => exact ⟨t, ht, rfl, fun _ => rfl⟩
    | createConsult head =>
        unfold exec
        dsimp only
        split
        · exact ⟨t, ht, rfl, fun _ => rfl⟩
        · rename_i s' hs
          have hins := (ConsultStore.createConsult_eq_some hs).1
          exact ⟨t, Table.find_insert_of_some hins ht, rfl, fun _ => rfl⟩
    | closeConsult threadId closedAt resolutionSummary =>
        unfold exec
        rw [ConsultStore.closeConsult_find, ht]
        refine ⟨_, rfl, ?_, fun hclosed => ?_⟩
        · dsimp only
          split
          · rfl
          · rfl
        · have hnot : t.isOpen threadId = false := by simp [Thread.isOpen, hclosed]
          simp [hnot]
    | appendConsultMessage m =>
        change ∃ t', (s.appendConsultMessage m).2.threads.find k = some t' ∧ _
        rcases s.appendConsultMessage_cases m with ⟨-, -, -, hthreads, -⟩ | ⟨heq, -⟩ | ⟨heq, -⟩
        · rw [hthreads]
          exact ⟨t, ht, rfl, fun _ => rfl⟩
        · rw [heq]
          exact ⟨t, ht, rfl, fun _ => rfl⟩
        · rw [heq]
          exact ⟨t, ht, rfl, fun _ => rfl⟩

end ConsultStmt

end EighthLayer.Consults
