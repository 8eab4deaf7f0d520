import EighthLayer.CrosstalkMcp.Server

/-!
# EighthLayer.CrosstalkMcp.Adoption

What `adopt_thread` does to a thread of two, for the messages that are there and for later replies.

The scope of a message is its `to_tag`. A reply gets its `to_tag` from the last message to the one
who replies, whose `from_tag` it mirrors. An adoption changes one column: of the messages from the
session if it has opened the thread, and of the messages to it otherwise. So the messages that are
there are moved exactly if the adopter is not the initiator (or they are in the scope already), and a
later reply lands there exactly if the last message to the other side has been sent under the tag
(`adoption_moves_iff`).
-/

namespace EighthLayer.CrosstalkMcp

open Lib

/-! ## Calls one after another -/

/-- A call to a server: whose it is, how far it has ingested its inbox file, what it finds on the
machine, and what it is asked to do. -/
structure Call where
  me : String
  offset : Nat
  host : Host
  action : Action

/-- The answer to a call, and what it makes of the store. -/
def Call.perform (c : Call) (s : McpStore) : McpAnswer × McpStore :=
  let r := (c.action.prog c.me c.host c.offset).alone s
  (r.1.1, r.2)

/-- The store after some calls. -/
def afterCalls (s : McpStore) (calls : List Call) : McpStore :=
  calls.foldl (fun s c => (c.perform s).2) s

theorem alone_bind {α β : Type} (p : McpProg α) (f : α → McpProg β) (s : McpStore) :
    (p.bind f).alone s = (f (p.alone s).1).alone (p.alone s).2 := by
  induction p generalizing s with
  | done a => rfl
  | call q k ih => exact ih _ _

/-- What every statement keeps, a program keeps. -/
theorem alone_preserves {α : Type} {P : McpStore → Prop} (hstep : ∀ (q : McpStmt) s, P s → P (q.exec s).2)
    (p : McpProg α) {s : McpStore} (h : P s) : P (p.alone s).2 := by
  induction p generalizing s with
  | done a => exact h
  | call q k ih => exact ih _ (hstep q s h)

theorem afterCalls_preserves {P : McpStore → Prop}
    (hstep : ∀ (q : McpStmt) s, P s → P (q.exec s).2)
    {s : McpStore} (h : P s) (calls : List Call) : P (afterCalls s calls) := by
  induction calls generalizing s with
  | nil => exact h
  | cons c calls ih =>
      have hcall : P (c.perform s).2 :=
        alone_preserves hstep (c.action.prog c.me c.host c.offset) h
      exact ih hcall

/-! ## Participants -/

/-- A thread is there, and these are its participants. -/
def Among (threadId : String) (participants : List String) (s : McpStore) : Prop :=
  ∃ t, s.threads.find threadId = some t ∧ t.participants = participants

/-- What an update of the threads does to one of them. -/
theorem Among.update {threadId : String} {participants : List String} {s : McpStore}
    (h : Among threadId participants s) {p : Thread → Bool} {f : Thread → Thread}
    {hid : ∀ t, (f t).id = t.id} (hf : ∀ t, (f t).participants = t.participants) :
    Among threadId participants { s with threads := s.threads.update p f hid } := by
  obtain ⟨t, ht, hparticipants⟩ := h
  refine ⟨if p t then f t else t, ?_, ?_⟩
  · rw [Table.find_update, ht]
    rfl
  · split
    · rw [hf, hparticipants]
    · exact hparticipants

/-- **Step lemma.** A thread stays, with its participants. -/
theorem Among.exec {threadId : String} {participants : List String} (q : McpStmt) (s : McpStore)
    (h : Among threadId participants s) : Among threadId participants (q.exec s).2 := by
  cases q with
  | upsertThread t' =>
      show Among threadId participants (s.upsertThread t')
      unfold McpStore.upsertThread
      cases hfind : s.threads.find t'.id with
      | none =>
          obtain ⟨t, ht, hparticipants⟩ := h
          refine ⟨t, ?_, hparticipants⟩
          rw [Table.find_insertOrIgnore, ht]
          rfl
      | some old => exact h.update fun _ => rfl
  | adoptThread id initiator newTag now =>
      refine h.update fun t => ?_
      split
      · rfl
      · rfl
  | reap stale reason now => exact h.update fun _ => rfl
  | _ => exact h

/-! ## What a reply inserts -/

/-- The deliveries leave messages and threads as they are. -/
theorem insertDeliveries_alone {α : Type} (id : String) (sessions : List String) (next : McpProg α)
    (s : McpStore) : ∃ s', s'.messages = s.messages ∧ s'.threads = s.threads ∧
      (insertDeliveries id sessions next).alone s = next.alone s' := by
  induction sessions generalizing s with
  | nil => exact ⟨s, rfl, rfl, rfl⟩
  | cons session rest ih =>
      obtain ⟨s', hmessages, hthreads, halone⟩ := ih
        { s with deliveries := s.deliveries.insertOrIgnore ⟨id, session, none⟩ }
      exact ⟨s', hmessages, hthreads, halone⟩

/-- So do the lines in inbox files. -/
theorem appendToInboxFiles_alone {α : Type} (m : Message) (sessions : List String)
    (next : McpProg α) (s : McpStore) : ∃ s', s'.messages = s.messages ∧ s'.threads = s.threads ∧
      (appendToInboxFiles m sessions next).alone s = next.alone s' := by
  induction sessions generalizing s with
  | nil => exact ⟨s, rfl, rfl, rfl⟩
  | cons session rest ih =>
      obtain ⟨s', hmessages, hthreads, halone⟩ := ih
        (McpStmt.exec (.appendInbox session { m with toSession := session }) s).2
      exact ⟨s', hmessages, hthreads, halone⟩

/-- What is inserted in `messages`. -/
theorem insertMessage_alone {α : Type} (m : Message) (sessions : List String) (next : McpProg α)
    (s : McpStore) : ∃ s', s'.messages = s.messages.insertOrIgnore m ∧ s'.threads = s.threads ∧
      (insertMessage m sessions next).alone s = next.alone s' := by
  obtain ⟨s', hmessages, hthreads, halone⟩ := insertDeliveries_alone m.id
    (m.toSession :: sessions).eraseDups next
    { s with messages := s.messages.insertOrIgnore m }
  exact ⟨s', hmessages, hthreads, halone⟩

/-- **A reply in a thread of two.** It is from the one to the other, and mirrors the tag of the last
message to the one who replies. -/
theorem reply_alone {s : McpStore} {me other threadId content : String} {host : Host}
    {tag : Option String} {participants : List String} (hamong : Among threadId participants s)
    (hlength : participants.length ≤ 2) (hother : participants.find? (· ≠ me) = some other)
    (hreplied : ((reply me host threadId content tag).alone s).1 = .replied threadId) :
    ((reply me host threadId content tag).alone s).2.messages = s.messages.insertOrIgnore
      (mkMessage me host threadId (host.fresh 0) .reply content tag
        (s.lastIncomingTag threadId me) other) := by
  obtain ⟨t, ht, hparticipants⟩ := hamong
  have hread : Database.exec (A := McpStmt.Answer) (.getThread threadId) s = (some t, s) := by
    show (s.threads.find threadId, s) = _
    rw [ht]
  have hshort : ¬ t.participants.length > 2 := by
    rw [hparticipants]
    omega
  unfold reply at hreplied ⊢
  rw [Prog.alone_call, hread] at hreplied ⊢
  dsimp only at hreplied ⊢
  by_cases hclosed : t.status = .closed
  · rw [if_pos hclosed] at hreplied
    cases hreplied
  · rw [if_neg hclosed, Prog.alone_call, Prog.alone_call, if_neg hshort, hparticipants, hother]
      at hreplied ⊢
    dsimp only at hreplied ⊢
    by_cases hgone : host.gone other
    · rw [if_pos hgone] at hreplied
      cases hreplied
    · rw [if_neg hgone] at hreplied ⊢
      -- what is there when the message has been inserted, and when the line has been appended
      let m := mkMessage me host threadId (host.fresh 0) .reply content tag
        (s.lastIncomingTag threadId me) other
      obtain ⟨s₁, hinserted, -, halone⟩ := insertMessage_alone m []
        (appendToInboxFiles m [other] (.done (McpAnswer.replied threadId)))
        (s.upsertThread { t with updated := host.now })
      obtain ⟨s₂, happended, -, halone'⟩ := appendToInboxFiles_alone m [other]
        (.done (McpAnswer.replied threadId)) s₁
      have hend := halone.trans halone'
      calc _ = s₂.messages := congrArg (fun r => r.2.messages) hend
        _ = s₁.messages := happended
        _ = s.messages.insertOrIgnore m := hinserted

/-! ## Adoption -/

/-- `adopt_thread` by a participant. -/
theorem adoptThread_alone {s : McpStore} {t : Thread} {threadId : String}
    (ht : s.threads.find threadId = some t) {me : String} (hme : me ∈ t.participants) (host : Host)
    (newTag : Option String) :
    ((adoptThread me host threadId newTag).alone s).1 = .adopted threadId ∧
    ((adoptThread me host threadId newTag).alone s).2.messages =
      ((McpStmt.adoptMessages threadId me (t.initiator = me) newTag).exec s).2.messages := by
  have hread : Database.exec (A := McpStmt.Answer) (.getThread threadId) s = (some t, s) := by
    show (s.threads.find threadId, s) = _
    rw [ht]
  unfold adoptThread
  rw [Prog.alone_call, hread]
  dsimp only
  rw [if_neg (not_not_intro hme)]
  exact ⟨rfl, rfl⟩

/-- A message is in the scope of a tag of the session's. -/
def InScope (m : Message) (session tag : String) : Prop :=
  m.toSession = session ∧ m.toTag = some tag

/-- The messages of a thread to a session are all in a scope. -/
def ScopedTo (s : McpStore) (threadId session tag : String) : Prop :=
  ∀ m ∈ s.messages, m.threadId = threadId → m.toSession = session → InScope m session tag

/-- **The messages that are there.** -/
theorem adopted_scopedTo_iff {s : McpStore} {t : Thread} {threadId : String}
    (ht : s.threads.find threadId = some t) {me : String} (hme : me ∈ t.participants) (host : Host)
    (tag : String) :
    ScopedTo ((adoptThread me host threadId (some tag)).alone s).2 threadId me tag ↔
      (t.initiator = me → ScopedTo s threadId me tag) := by
  unfold ScopedTo
  rw [(adoptThread_alone ht hme host (some tag)).2]
  by_cases hinitiator : t.initiator = me
  · -- the messages from the initiator get another `from_tag`, and no message another `to_tag`
    have hmessages : ((McpStmt.adoptMessages threadId me (t.initiator = me) (some tag)).exec
        s).2.messages = s.messages.update
          (fun m => m.threadId = threadId && m.fromSession = me)
          (fun m => { m with fromTag := some tag }) fun _ => rfl := by
      simp [McpStmt.exec, hinitiator]
    rw [hmessages]
    refine Iff.trans ⟨fun h m hm => ?_, fun h m' hm' => ?_⟩ (forall_prop_of_true hinitiator).symm
    · have hscope := h _ (Table.mem_update.mpr ⟨m, hm, rfl⟩)
      by_cases hfrom : (decide (m.threadId = threadId) && decide (m.fromSession = me)) = true
      · rw [if_pos hfrom] at hscope
        exact hscope
      · rw [if_neg hfrom] at hscope
        exact hscope
    · obtain ⟨m, hm, rfl⟩ := Table.mem_update.mp hm'
      by_cases hfrom : (decide (m.threadId = threadId) && decide (m.fromSession = me)) = true
      · rw [if_pos hfrom]
        exact h m hm
      · rw [if_neg hfrom]
        exact h m hm
  · have hmessages : ((McpStmt.adoptMessages threadId me (t.initiator = me) (some tag)).exec
        s).2.messages = s.messages.update
          (fun m => m.threadId = threadId && m.toSession = me)
          (fun m => { m with toTag := some tag }) fun _ => rfl := by
      simp [McpStmt.exec, hinitiator]
    rw [hmessages]
    refine iff_of_true (fun m' hm' hthread hto => ?_) fun h => absurd h hinitiator
    obtain ⟨m, hm, rfl⟩ := Table.mem_update.mp hm'
    by_cases hmoved : (decide (m.threadId = threadId) && decide (m.toSession = me)) = true
    · rw [if_pos hmoved]
      exact ⟨of_decide_eq_true (Bool.and_eq_true_iff.mp hmoved).2, rfl⟩
    · -- what is not moved is not one of them
      rw [if_neg hmoved] at hthread hto
      exact absurd (by simp [hthread, hto]) hmoved

/-! ## Later replies -/

/-- A call in which a session replies in a thread. Its message has a new id. -/
structure Replies (threadId session : String) (s : McpStore) (c : Call) : Prop where
  me : c.me = session
  action : ∃ content tag, c.action = .reply threadId content tag
  replied : (c.perform s).1 = .replied threadId
  fresh : ∀ m ∈ s.messages, m.id ≠ c.host.fresh 0

/-- The last message of a thread to a session has been sent under a tag. -/
def LastSentUnder (s : McpStore) (threadId session tag : String) : Prop :=
  ∃ m, ((s.getMessages threadId).filter fun m => m.toSession = session).getLast? = some m ∧
    m.fromTag = some tag

theorem lastIncomingTag_eq_some_iff {s : McpStore} {threadId session tag : String} :
    s.lastIncomingTag threadId session = some tag ↔ LastSentUnder s threadId session tag :=
  Option.bind_eq_some_iff

theorem orNull_eq_some_iff {x : Option String} {tag : String} :
    orNull x = some tag ↔ x = some tag ∧ tag ≠ "" := by
  unfold orNull
  rw [Option.filter_eq_some_iff, decide_eq_true_eq]

/-- The message of a reply in a thread of two. -/
theorem Replies.message {s : McpStore} {c : Call} {threadId me other : String}
    (h : Replies threadId other s c) {participants : List String}
    (hamong : Among threadId participants s) (hlength : participants.length ≤ 2)
    (hother : participants.find? (· ≠ other) = some me) :
    ∃ m, (c.perform s).2.messages.find (c.host.fresh 0) = some m ∧ m.toSession = me ∧
      m.toTag = orNull (s.lastIncomingTag threadId other) := by
  obtain ⟨content, tag, haction⟩ := h.action
  have hme := h.me
  have hreplied := h.replied
  unfold Call.perform at hreplied ⊢
  rw [haction, hme] at hreplied ⊢
  unfold Action.prog at hreplied ⊢
  rw [alone_bind] at hreplied ⊢
  have hmessages := reply_alone hamong hlength hother hreplied
  have hnew : s.messages.find (c.host.fresh 0) = none := Table.find_eq_none_iff.mpr h.fresh
  refine ⟨mkMessage other c.host threadId (c.host.fresh 0) .reply content tag
    (s.lastIncomingTag threadId other) me, ?_, rfl, rfl⟩
  dsimp only [Prog.alone_done]
  rw [hmessages, Table.find_insertOrIgnore, hnew]
  exact if_pos rfl

/-! ## What an adoption moves -/

/-- The store after a session has adopted a thread under a tag. -/
def adopted (s : McpStore) (threadId me : String) (host : Host) (tag : String) : McpStore :=
  ((adoptThread me host threadId (some tag)).alone s).2

/-- The whole thread is moved: the messages to the adopter that are there, and those of later
replies. -/
structure MovesThread (s : McpStore) (threadId me other : String) (host : Host) (tag : String)
    (later : List Call) : Prop where
  existing : ScopedTo (adopted s threadId me host tag) threadId me tag
  replies : ∀ before c after, later = before ++ c :: after →
    Replies threadId other (afterCalls (adopted s threadId me host tag) before) c →
    ∃ m, (c.perform (afterCalls (adopted s threadId me host tag) before)).2.messages.find
      (c.host.fresh 0) = some m ∧ InScope m me tag

/-- **What an adoption moves.** Whatever a thread of two has in it, and whatever calls follow: the
whole thread is moved exactly if the adopter has not opened it, or the messages to it are in the
scope anyway; and before each later reply the last message to the other side is one sent under the
tag. -/
theorem adoption_moves_iff {s : McpStore} {t : Thread} {threadId me other : String}
    (ht : s.threads.find threadId = some t)
    (hpair : t.participants = [me, other] ∨ t.participants = [other, me]) (hne : me ≠ other)
    (host : Host) (tag : String) (later : List Call) :
    ((adoptThread me host threadId (some tag)).alone s).1 = .adopted threadId ∧
    (MovesThread s threadId me other host tag later ↔
      (t.initiator = me → ScopedTo s threadId me tag) ∧
      ∀ before c after, later = before ++ c :: after →
        Replies threadId other (afterCalls (adopted s threadId me host tag) before) c →
        LastSentUnder (afterCalls (adopted s threadId me host tag) before) threadId other tag ∧
          tag ≠ "") := by
  have hme : me ∈ t.participants := by
    rcases hpair with h | h
    · simp [h]
    · simp [h]
  have hlength : t.participants.length ≤ 2 := by
    rcases hpair with h | h
    · simp [h]
    · simp [h]
  have hother : t.participants.find? (· ≠ other) = some me := by
    rcases hpair with h | h
    · simp [h, hne]
    · simp [h, hne]
  -- the thread has these participants from here on
  have hamong : Among threadId t.participants (adopted s threadId me host tag) :=
    alone_preserves Among.exec (adoptThread me host threadId (some tag)) ⟨t, ht, rfl⟩
  have hreply : ∀ before c,
      Replies threadId other (afterCalls (adopted s threadId me host tag) before) c →
      ((∃ m, (c.perform (afterCalls (adopted s threadId me host tag) before)).2.messages.find
          (c.host.fresh 0) = some m ∧ InScope m me tag) ↔
        LastSentUnder (afterCalls (adopted s threadId me host tag) before) threadId other tag ∧
          tag ≠ "") := by
    intro before c hc
    obtain ⟨m, hm, hto, htag⟩ :=
      hc.message (afterCalls_preserves Among.exec hamong before) hlength hother
    rw [← lastIncomingTag_eq_some_iff, ← orNull_eq_some_iff, ← htag]
    constructor
    · intro hmoved
      obtain ⟨m', hm', hscope⟩ := hmoved
      cases hm.symm.trans hm'
      exact hscope.2
    · intro hscope
      exact ⟨m, hm, hto, hscope⟩
  refine ⟨(adoptThread_alone ht hme host (some tag)).1, ?_⟩
  constructor
  · intro h
    refine ⟨(adopted_scopedTo_iff ht hme host tag).mp h.existing, ?_⟩
    intro before c after hlater hc
    exact (hreply before c hc).mp (h.replies before c after hlater hc)
  · intro h
    refine ⟨(adopted_scopedTo_iff ht hme host tag).mpr h.1, ?_⟩
    intro before c after hlater hc
    exact (hreply before c hc).mpr (h.2 before c after hlater hc)

/-! ### Anna and Bert -/

/-- Anna has opened a thread with Bert. -/
def opened : McpStore :=
  afterCalls .empty [⟨"anna", 0, .numbered "a" "10:00", .sendMessage "bert" "hello" none none true⟩]

/-- Bert has replied. -/
def answered : McpStore :=
  afterCalls opened [⟨"bert", 0, .numbered "b" "10:01", .reply "a0" "hi" none⟩]

/-- Bert has adopted the thread, and replies under the tag, then Anna does. -/
def tagged : List Call :=
  [⟨"bert", 0, .numbered "c" "10:03", .reply "a0" "mine" (some "x")⟩,
   ⟨"anna", 0, .numbered "d" "10:04", .reply "a0" "good" none⟩]

/-- Anna's reply is in Bert's scope. -/
theorem adoption_moves_sample :
    MovesThread answered "a0" "bert" "anna" (.numbered "e" "10:02") "x" tagged := by
  have hfind : answered.threads.find "a0" = some
      { mkThread "anna" (.numbered "a" "10:00") "a0" ["anna", "bert"] .pair none none with
        updated := "10:01" } := by
    decide +kernel
  have htag : (afterCalls (adopted answered "a0" "bert" (.numbered "e" "10:02") "x")
      (tagged.take 1)).lastIncomingTag "a0" "anna" = some "x" := by
    decide +kernel
  refine (adoption_moves_iff hfind (.inr rfl) (by decide) (.numbered "e" "10:02") "x" tagged).2.mpr
    ⟨fun h => absurd h (by decide), fun before c after hlater hc => ⟨?_, by decide⟩⟩
  rcases before with _ | ⟨c₁, _ | ⟨c₂, before⟩⟩
  · cases hlater
    exact absurd hc.me (by decide)
  · cases hlater
    exact lastIncomingTag_eq_some_iff.mp htag
  · have hlength := congrArg List.length hlater
    simp [tagged] at hlength

/-- Bert adopts the thread and Anna replies: it lands in his untagged inbox. Anna adopts it: the
reply that is there stays in hers. -/
theorem adoption_leaves :
    ¬ MovesThread opened "a0" "bert" "anna" (.numbered "e" "10:02") "x"
        [⟨"anna", 0, .numbered "d" "10:04", .reply "a0" "good" none⟩] ∧
      ¬ MovesThread answered "a0" "anna" "bert" (.numbered "e" "10:02") "x" [] := by
  constructor
  · intro h
    have hnone : ((Call.perform ⟨"anna", 0, .numbered "d" "10:04", .reply "a0" "good" none⟩
        (adopted opened "a0" "bert" (.numbered "e" "10:02") "x")).2.messages.find "d0").map
          Message.toTag = some none := by
      decide +kernel
    obtain ⟨m, hm, -, htag⟩ := h.replies [] _ [] rfl
      ⟨rfl, ⟨_, _, rfl⟩, by decide +kernel, by decide +kernel⟩
    rw [show (Host.numbered "d" "10:04").fresh 0 = "d0" by decide] at hm
    have hsome := (congrArg (Option.map Message.toTag) hm).symm.trans hnone
    rw [Option.map_some, htag] at hsome
    cases hsome
  · intro h
    have hreply : ∃ m ∈ (adopted answered "a0" "anna" (.numbered "e" "10:02") "x").messages.rows,
        m.threadId = "a0" ∧ m.toSession = "anna" ∧ m.toTag = none := by
      decide +kernel
    obtain ⟨m, hm, hthread, hto, htag⟩ := hreply
    have hscope := (h.existing m hm hthread hto).2
    rw [htag] at hscope
    cases hscope

end EighthLayer.CrosstalkMcp
