import EighthLayer.Crosstalk.Participants

/-!
# EighthLayer.Crosstalk.Retry

A request that is sent again under the message id it has succeeded with.

The routes look the id up among the first messages of the thread. So a retry gets the first
answer again exactly where it is about the same thread, the thread is still open if it is a
reply, and not too many messages are before the one it has added (`retry_answers_again`).
-/

namespace EighthLayer.Crosstalk

open Lib

/-! ## Requests with a message id -/

/-- A send or a reply, by a user. -/
inductive Posting where
  | send (req : SendMessageRequest)
  | reply (threadId : String) (req : ReplyRequest)

/-- The message id that the client has supplied. -/
def Posting.clientId : Posting → Option String
  | send req => req.messageId
  | reply _ req => req.messageId

/-- The request as a call. -/
def Posting.call (username : String) : Posting → CrosstalkCall
  | send req => .send username req
  | reply threadId req => .reply username threadId req

/-- The thread that a request is about. -/
def Posting.threadId (site : Site) : Posting → String
  | send req => req.thread site
  | reply threadId _ => threadId

/-- The message id that a request goes by; an empty one of the client counts as none. -/
def Posting.messageId (posting : Posting) (site : Site) : String :=
  pyOr posting.clientId site.newMessageId

/-- Whether the request passes the checks that come before the lookup, on a thread. -/
def Posting.Admitted (site : Site) (username : String) (caller : Caller) (t : Thread) :
    Posting → Prop
  | send req => recipientFound site caller req.to_ = true
  | reply _ _ => username ∈ t.participants ∨ isAdminRole caller.role = true

theorem Posting.Admitted.mono {posting : Posting} {site : Site} {username : String}
    {caller : Caller} {t t' : Thread} (h : posting.Admitted site username caller t)
    (hparts : t'.participants = t.participants) : posting.Admitted site username caller t' := by
  cases posting with
  | send req => exact h
  | reply threadId req =>
      unfold Posting.Admitted at h ⊢
      rw [hparts]
      exact h

/-- The site at another time, with other random ids. -/
def Site.again (site : Site) (now newThreadId newMessageId : String) : Site :=
  { site with now, newThreadId, newMessageId }

/-! ## What a success leaves -/

/-- What is left when a request of this user has been answered: its message is in a thread that
the user sees, and the request passes its checks there. -/
def Recorded (site : Site) (username : String) (posting : Posting) (s : CrosstalkStore) :
    CrosstalkResponse → Prop
  | .sent threadId messageId sentAt => ∃ caller, resolveCaller site username = .ok caller ∧
      threadId = posting.threadId site ∧
      (∃ m ∈ s.messages, m.id = messageId ∧ m.threadId = threadId ∧ m.sentAt = sentAt ∧
        m.inScope (readScope site caller) = true) ∧
      ∃ t, s.getThread threadId (readScope site caller) = some t ∧
        posting.Admitted site username caller t
  | .closed _ | .refused _ => True

theorem Recorded.grows {site : Site} {username : String} {posting : Posting}
    {s s' : CrosstalkStore} {answer : CrosstalkResponse} (h : Recorded site username posting s answer)
    (hgrows : s.Grows s') : Recorded site username posting s' answer := by
  cases answer with
  | closed threadId => trivial
  | refused r => trivial
  | sent threadId messageId sentAt =>
      obtain ⟨caller, hcaller, hthread, ⟨m, hm, hrow⟩, t, ht, hadmitted⟩ := h
      obtain ⟨t', ht', hparts, -⟩ := hgrows.getThread ht
      exact ⟨caller, hcaller, hthread, ⟨m, hgrows.messages m hm, hrow⟩, t', ht',
        hadmitted.mono hparts⟩

/-- What the requests promise each other: that the tables grow. -/
def growing : Contract CrosstalkStore CrosstalkStmt.Answer where
  inv _ := True
  rel w w' := w.db.Grows w'.db
  ok _ _ _ := True
  refl w := .refl w.db
  trans h h' := h.trans h'

/-- The program ends with what it answers recorded. -/
def Records (site : Site) (username : String) (posting : Posting) (i : Nat) (p : RouteProg)
    (w : CrosstalkWorld) : Prop :=
  p.Keeps growing (fun answer w => Recorded site username posting w.db answer) i w

section Records

variable {site : Site} {username : String} {posting : Posting} {i : Nat} {w : CrosstalkWorld}

theorem records_call {q : CrosstalkStmt} {k : q.Answer → RouteProg}
    (h : ∀ w' : CrosstalkWorld, w.db.Grows w'.db →
      Records site username posting i
        (k (Database.exec (A := CrosstalkStmt.Answer) q w'.db).1) (w'.exec i q)) :
    Records site username posting i (.call q k) w := fun w' _ hrel _ =>
  ⟨⟨trivial, CrosstalkStmt.grows_exec q w'.db⟩, h w' hrel⟩

theorem records_refused {r : CrosstalkRefusal} :
    Records site username posting i (.done (.refused r)) w := trivial

/-- What the caller writes, the caller sees. -/
theorem inScope_own (site : Site) (caller : Caller) :
    (readScope site caller).covers caller.enterpriseId caller.groupId = true := by
  unfold readScope Scope.covers
  split
  · simp
  · simp

/-- The append of a message of the caller's, in a thread that the caller sees. -/
theorem records_append {caller : Caller} (hcaller : resolveCaller site username = .ok caller)
    {m : Message} (hthread : m.threadId = posting.threadId site)
    (hscope : m.inScope (readScope site caller) = true) {t : Thread}
    (ht : w.db.getThread m.threadId (readScope site caller) = some t)
    (hadmitted : posting.Admitted site username caller t) :
    Records site username posting i (append m) w := by
  refine records_call fun w' hgrows => ?_
  split
  · rename_i hinserted
    have hmem := CrosstalkStmt.mem_of_appended hinserted
    have hafter := hgrows.trans (CrosstalkStmt.grows_exec (.appendMessage m) w'.db)
    obtain ⟨t', ht', hparts, -⟩ := hafter.getThread ht
    exact ⟨caller, hcaller, hthread, ⟨m, hmem, rfl, rfl, rfl, hscope⟩, t', ht',
      hadmitted.mono hparts⟩
  · exact records_refused

/-- The lookup: what it finds is recorded already. -/
theorem records_unlessDuplicate (posting : Posting) {caller : Caller}
    (hcaller : resolveCaller site username = .ok caller) {messageId : String} {next : RouteProg}
    {t : Thread}
    (ht : w.db.getThread (posting.threadId site) (readScope site caller) = some t)
    (hadmitted : posting.Admitted site username caller t)
    (hnext : ∀ w' : CrosstalkWorld, w.db.Grows w'.db → Records site username posting i next w') :
    Records site username posting i
      (unlessDuplicate (posting.threadId site) messageId (readScope site caller) next) w := by
  refine records_call fun w' hgrows => ?_
  split
  · rename_i m hfind
    obtain ⟨hm, hthread, hscope⟩ :=
      CrosstalkStore.mem_of_listMessages (List.mem_of_find?_eq_some hfind)
    have hid : m.id = messageId := by simpa using List.find?_some hfind
    obtain ⟨t', ht', hparts, -⟩ := hgrows.getThread ht
    exact ⟨caller, hcaller, rfl, ⟨m, hm, hid, hthread, rfl, hscope⟩, t', ht',
      hadmitted.mono hparts⟩
  · exact hnext _ hgrows

theorem records_sendOn {req : SendMessageRequest} {caller : Caller}
    (hcaller : resolveCaller site username = .ok caller)
    (hfound : recipientFound site caller req.to_ = true) {existing : Option Thread}
    (h : ∀ t, existing = some t →
      w.db.getThread (req.thread site) (readScope site caller) = some t) :
    Records site username (.send req) i (sendOn site caller username req existing) w := by
  have hscope : (req.message site caller username).inScope (readScope site caller) = true :=
    inScope_own site caller
  unfold sendOn
  cases existing with
  | none =>
      refine records_call fun w' _ => ?_
      split
      · rename_i hcreated
        have ht := CrosstalkStore.getThread_eq_some_iff.mpr
          ⟨CrosstalkStmt.find_of_created hcreated, inScope_own site caller⟩
        exact records_append hcaller rfl hscope ht hfound
      · exact records_refused
  | some t =>
      dsimp only
      split
      · exact records_refused
      · split
        · exact records_refused
        · exact records_append hcaller rfl hscope (h t rfl) hfound

theorem records_sendFresh {req : SendMessageRequest} {caller : Caller}
    (hcaller : resolveCaller site username = .ok caller)
    (hfound : recipientFound site caller req.to_ = true) (w : CrosstalkWorld) :
    Records site username (.send req) i (sendFresh site caller username req) w := by
  unfold sendFresh
  split
  · exact records_call fun w' _ => records_sendOn hcaller hfound fun t ht => ht
  · exact records_sendOn hcaller hfound fun t ht => (nomatch ht)

theorem records_sendMessage {req : SendMessageRequest} (w : CrosstalkWorld) :
    Records site username (.send req) i (sendMessage site username req) w := by
  unfold sendMessage
  split
  · exact records_refused
  · rename_i caller hcaller
    split
    · exact records_refused
    · rename_i hfound
      have hfound : recipientFound site caller req.to_ = true := by simpa using hfound
      split
      · refine records_call fun w' _ => ?_
        split
        · exact records_sendFresh hcaller hfound _
        · rename_i t ht
          exact records_unlessDuplicate (.send req) hcaller ht hfound fun w'' _ =>
            records_sendFresh hcaller hfound w''
      · exact records_sendFresh hcaller hfound w

theorem records_replyOnThread {threadId : String} {req : ReplyRequest} (w : CrosstalkWorld) :
    Records site username (.reply threadId req) i (replyOnThread site username threadId req) w := by
  unfold replyOnThread
  split
  · exact records_refused
  · rename_i caller hcaller
    refine records_call fun w' _ => ?_
    split
    · exact records_refused
    · rename_i t ht
      split
      · exact records_refused
      · split
        · exact records_refused
        · rename_i hsender
          have hadmitted : username ∈ t.participants ∨ isAdminRole caller.role = true := by
            by_cases hin : username ∈ t.participants
            · exact .inl hin
            · exact .inr (Bool.eq_true_of_not_eq_false fun h => hsender ⟨hin, h⟩)
          have hid : t.id = threadId :=
            (Table.find_eq_some_iff.mp (CrosstalkStore.getThread_eq_some_iff.mp ht).1).2
          have happend : ∀ w'' : CrosstalkWorld, w'.db.Grows w''.db →
              Records site username (.reply threadId req) i
                (append (req.message site caller username t)) w'' := by
            intro w'' hgrows
            obtain ⟨t', ht', hparts, -⟩ := hgrows.getThread ht
            refine records_append (t := t') hcaller hid (inScope_own site caller) ?_ ?_
            · show w''.db.getThread t.id (readScope site caller) = some t'
              rw [hid]
              exact ht'
            · have hreply : (Posting.reply threadId req).Admitted site username caller t := hadmitted
              exact hreply.mono hparts
          split
          · rw [hid]
            exact records_unlessDuplicate (.reply threadId req) hcaller ht hadmitted
              fun w'' hgrows => happend w'' hgrows
          · exact happend _ (.refl _)

theorem records_call_prog (posting : Posting) (w : CrosstalkWorld) :
    Records site username posting i ((posting.call username).prog site) w := by
  cases posting with
  | send req => exact records_sendMessage w
  | reply threadId req => exact records_replyOnThread w

end Records

/-- Whatever a program does, the tables grow. -/
theorem grows_along {i : Nat} (p : RouteProg) (w : CrosstalkWorld) :
    p.Keeps growing (fun _ _ => True) i w := by
  induction p generalizing w with
  | done answer => trivial
  | call q k ih =>
      intro w' _ _ _
      exact ⟨⟨trivial, CrosstalkStmt.grows_exec q w'.db⟩, ih _ _⟩

/-- What a request has been answered in a run is recorded ever after. -/
theorem recorded_of_answered {calls : List (Site × CrosstalkCall)} {schedule : List Nat} {i : Nat}
    {site : Site} {username : String} {posting : Posting}
    (hcall : calls[i]? = some (site, posting.call username)) {answer : CrosstalkResponse}
    (h : ((crosstalkStart calls).run schedule).Answered i answer) :
    Recorded site username posting ((crosstalkStart calls).run schedule).world.db answer := by
  have hstart : growing.Holds (fun j => if j = i then
      fun answer w => Recorded site username posting w.db answer else fun _ _ => True)
      (crosstalkStart calls) := by
    refine Contract.Holds.start trivial fun j prog hprog => ?_
    by_cases hj : j = i
    · subst hj
      rw [if_pos rfl]
      rw [crosstalkProgs, List.getElem?_map, hcall] at hprog
      cases hprog
      exact records_call_prog posting _
    · rw [if_neg hj]
      exact grows_along prog _
  have hmeets : (crosstalkStart calls).Meets growing.Allows schedule :=
    Config.Meets.imp (fun _ _ _ _ _ _ => trivial) ((crosstalkStart calls).meets_true schedule)
  obtain ⟨w, hgrows, hpost⟩ := (Contract.run hstart hmeets).1.answered h
  rw [if_pos rfl] at hpost
  exact Recorded.grows hpost hgrows

/-! ## The retry -/

/-- A program that is refused, whatever state it leaves. -/
def Refused (p : RouteProg) (s : CrosstalkStore) : Prop := ∃ r, (p.alone s).1 = .refused r

/-- Once its id is taken, no message is added. -/
theorem refused_append {s : CrosstalkStore} {m m' : Message} (hm' : m' ∈ s.messages)
    (hid : m'.id = m.id) : Refused (append m) s := by
  have hnot : Database.exec (A := CrosstalkStmt.Answer) (.appendMessage m) s = (false, s) := by
    show CrosstalkStmt.exec _ s = _
    unfold CrosstalkStmt.exec
    simp only [CrosstalkStore.appendMessage_of_taken hm' hid]
  refine ⟨.internalError, ?_⟩
  unfold append
  rw [Prog.alone_call, hnot]
  rfl

/-- Creating a thread keeps the messages. -/
theorem messages_createThread (s : CrosstalkStore) (t : Thread) :
    (Database.exec (A := CrosstalkStmt.Answer) (.createThread t) s).2.messages = s.messages := by
  show ((CrosstalkStmt.createThread t).exec s).2.messages = s.messages
  unfold CrosstalkStmt.exec
  dsimp only
  split
  · rfl
  · rename_i s' hs
    exact (CrosstalkStore.createThread_eq_some hs).2

theorem refused_sendOn {s : CrosstalkStore} {site : Site} {caller : Caller} {username : String}
    {req : SendMessageRequest} {m : Message} (hm : m ∈ s.messages)
    (hid : m.id = (req.message site caller username).id) (existing : Option Thread) :
    Refused (sendOn site caller username req existing) s := by
  unfold sendOn
  cases existing with
  | none =>
      unfold Refused
      rw [Prog.alone_call]
      split
      · have hmem := (messages_createThread s (req.newThread site caller username)).symm ▸ hm
        exact refused_append hmem hid
      · exact ⟨.internalError, rfl⟩
  | some t =>
      dsimp only
      split
      · exact ⟨.threadClosed, rfl⟩
      · split
        · exact ⟨.notParticipant, rfl⟩
        · exact refused_append hm hid

theorem refused_sendFresh {s : CrosstalkStore} {site : Site} {caller : Caller} {username : String}
    {req : SendMessageRequest} {m : Message} (hm : m ∈ s.messages)
    (hid : m.id = (req.message site caller username).id) :
    Refused (sendFresh site caller username req) s := by
  unfold sendFresh
  split
  · exact refused_sendOn hm hid _
  · exact refused_sendOn hm hid none

/-- The place of a message in its thread: fewer messages than the lookup takes are before it. -/
def Early (s : CrosstalkStore) (scope : Scope) (m : Message) : Prop :=
  (s.visible m.threadId scope).countP (fun m' => m'.order < m.order) < duplicateLimit

/-- A retry is answered as it was under a condition, and refused otherwise. -/
def Settles (p : RouteProg) (s : CrosstalkStore) (answer : CrosstalkResponse) (cond : Prop) :
    Prop := (cond → p.alone s = (answer, s)) ∧ (¬ cond → Refused p s)

/-- The lookup of a message that is there, before what is refused. -/
theorem settles_unlessDuplicate {s : CrosstalkStore} {scope : Scope} (next : RouteProg)
    {m : Message} (hm : m ∈ s.listed m.threadId scope) (hnext : Refused next s) :
    Settles (unlessDuplicate m.threadId m.id scope next) s (.sent m.threadId m.id m.sentAt)
      (Early s scope m) := by
  have hmem := (CrosstalkStore.mem_listed.mp hm).1
  have hsame : ∀ m' ∈ s.listMessages m.threadId scope duplicateLimit, m'.id = m.id → m' = m :=
    fun m' hm' hid =>
      Table.eq_of_key_eq (CrosstalkStore.mem_of_listMessages hm').1 hmem hid
  have hplace : m ∈ s.listMessages m.threadId scope duplicateLimit ↔ Early s scope m :=
    CrosstalkStore.mem_listMessages_iff hm
  unfold Settles Refused unlessDuplicate
  rw [Prog.alone_call, CrosstalkStmt.exec_listMessages, ← hplace]
  cases hfind : (s.listMessages m.threadId scope duplicateLimit).find? fun x => x.id = m.id with
  | none =>
      have hnot := fun hin => List.find?_eq_none.mp hfind m hin
      exact ⟨fun hin => absurd (hnot hin) (by simp), fun _ => hnext⟩
  | some m' =>
      have hid : m'.id = m.id := by simpa using List.find?_some hfind
      have hin := List.mem_of_find?_eq_some hfind
      obtain rfl := hsame m' hin hid
      exact ⟨fun _ => rfl, fun hnot => absurd hin hnot⟩

/-- A success names this thread and this message. -/
def Names (threadId messageId : String) (p : RouteProg) (s : CrosstalkStore) : Prop :=
  ∀ a b c, (p.alone s).1 = .sent a b c → a = threadId ∧ b = messageId

section Names

variable {threadId messageId : String} {s : CrosstalkStore}

theorem names_refused {r : CrosstalkRefusal} : Names threadId messageId (.done (.refused r)) s :=
  fun _ _ _ h => (nomatch h)

theorem names_call {q : CrosstalkStmt} {k : q.Answer → RouteProg}
    (h : Names threadId messageId (k (Database.exec (A := CrosstalkStmt.Answer) q s).1)
      (Database.exec (A := CrosstalkStmt.Answer) q s).2) :
    Names threadId messageId (.call q k) s := h

theorem names_append {m : Message} (hthread : m.threadId = threadId) (hid : m.id = messageId) :
    Names threadId messageId (append m) s := by
  refine names_call ?_
  split
  · intro a b c h
    cases h
    exact ⟨hthread, hid⟩
  · exact names_refused

theorem names_unlessDuplicate {scope : Scope} {next : RouteProg}
    (h : Names threadId messageId next s) :
    Names threadId messageId (unlessDuplicate threadId messageId scope next) s := by
  refine names_call ?_
  split
  · intro a b c h
    cases h
    exact ⟨rfl, rfl⟩
  · exact h

theorem names_sendOn (site : Site) (caller : Caller) (username : String)
    (req : SendMessageRequest) (existing : Option Thread) :
    Names (req.thread site) (pyOr req.messageId site.newMessageId)
      (sendOn site caller username req existing) s := by
  unfold sendOn
  cases existing with
  | none =>
      refine names_call ?_
      split
      · exact names_append rfl rfl
      · exact names_refused
  | some t =>
      dsimp only
      split
      · exact names_refused
      · split
        · exact names_refused
        · exact names_append rfl rfl

theorem names_sendFresh (site : Site) (caller : Caller) (username : String)
    (req : SendMessageRequest) :
    Names (req.thread site) (pyOr req.messageId site.newMessageId)
      (sendFresh site caller username req) s := by
  unfold sendFresh
  split
  · exact names_call (names_sendOn site caller username req _)
  · exact names_sendOn site caller username req none

theorem names_prog (site : Site) (username : String) (posting : Posting) :
    Names (posting.threadId site) (posting.messageId site) ((posting.call username).prog site)
      s := by
  cases posting with
  | send req =>
      show Names _ _ (sendMessage site username req) s
      unfold sendMessage
      split
      · exact names_refused
      · rename_i caller _
        split
        · exact names_refused
        · split
          · refine names_call ?_
            split
            · exact names_sendFresh site caller username req
            · exact names_unlessDuplicate (names_sendFresh site caller username req)
          · exact names_sendFresh site caller username req
  | reply threadId req =>
      show Names _ _ (replyOnThread site username threadId req) s
      unfold replyOnThread
      split
      · exact names_refused
      · refine names_call ?_
        split
        · exact names_refused
        · rename_i caller _ _ t ht
          obtain rfl : t.id = threadId :=
            (Table.find_eq_some_iff.mp (CrosstalkStore.getThread_eq_some_iff.mp ht).1).2
          split
          · exact names_refused
          · split
            · exact names_refused
            · split
              · exact names_unlessDuplicate (names_append rfl rfl)
              · exact names_append rfl rfl

end Names

/-- A reply looks at the status of its thread before it looks for a duplicate, a send after. -/
def Posting.StatusFits (t : Thread) : Posting → Prop
  | send _ => True
  | reply _ _ => t.status = .opened

section Alone

variable {s : CrosstalkStore} {site : Site} {username : String} {caller : Caller} {m : Message}
  {t : Thread}

theorem settles_send {req : SendMessageRequest}
    (hcaller : resolveCaller site username = .ok caller) (hid : req.messageId ≠ none)
    (hm : m ∈ s.listed m.threadId (readScope site caller)) (hthread : m.threadId = req.thread site)
    (hmid : m.id = (req.message site caller username).id)
    (ht : s.getThread (req.thread site) (readScope site caller) = some t)
    (hfound : recipientFound site caller req.to_ = true) :
    Settles (sendMessage site username req) s (.sent m.threadId m.id m.sentAt)
      (Early s (readScope site caller) m) := by
  have hlookup := settles_unlessDuplicate _ hm
    (refused_sendFresh (CrosstalkStore.mem_listed.mp hm).1 hmid)
  rw [hthread, hmid] at hlookup ⊢
  have halone : (sendMessage site username req).alone s =
      (unlessDuplicate (req.thread site) (req.message site caller username).id
        (readScope site caller) (sendFresh site caller username req)).alone s := by
    unfold sendMessage
    simp only [hcaller, hfound, Bool.not_true, Bool.false_eq_true, if_false, ne_eq, hid,
      not_false_eq_true, if_true, Prog.alone_call, CrosstalkStmt.exec_getThread, ht]
  unfold Settles Refused at hlookup ⊢
  rw [halone]
  exact hlookup

theorem settles_reply {threadId : String} {req : ReplyRequest}
    (hcaller : resolveCaller site username = .ok caller) (hid : req.messageId ≠ none)
    (hm : m ∈ s.listed m.threadId (readScope site caller)) (hthread : m.threadId = threadId)
    (hmid : m.id = (req.message site caller username t).id)
    (ht : s.getThread threadId (readScope site caller) = some t)
    (hsender : username ∈ t.participants ∨ isAdminRole caller.role = true) :
    Settles (replyOnThread site username threadId req) s (.sent m.threadId m.id m.sentAt)
      (t.status = .opened ∧ Early s (readScope site caller) m) := by
  obtain rfl : t.id = threadId :=
    (Table.find_eq_some_iff.mp (CrosstalkStore.getThread_eq_some_iff.mp ht).1).2
  have hsender : ¬ (username ∉ t.participants ∧ isAdminRole caller.role = false) := by
    rintro ⟨hnot, hrole⟩
    rcases hsender with hin | hadmin
    · exact hnot hin
    · rw [hrole] at hadmin
      cases hadmin
  have hlookup := settles_unlessDuplicate (append (req.message site caller username t)) hm
    (refused_append (CrosstalkStore.mem_listed.mp hm).1 hmid)
  by_cases hopen : t.status = .opened
  · rw [hthread, hmid] at hlookup ⊢
    have halone : (replyOnThread site username t.id req).alone s =
        (unlessDuplicate t.id (req.message site caller username t).id (readScope site caller)
          (append (req.message site caller username t))).alone s := by
      unfold replyOnThread
      simp only [hcaller, Prog.alone_call, CrosstalkStmt.exec_getThread, ht, hopen, ne_eq,
        not_true_eq_false, if_false, if_neg hsender, hid, not_false_eq_true, if_true]
    unfold Settles Refused at hlookup ⊢
    rw [halone]
    simpa only [hopen, true_and] using hlookup
  · refine ⟨fun h => absurd h.1 hopen, fun _ => ⟨.threadClosed, ?_⟩⟩
    unfold replyOnThread
    simp only [hcaller, Prog.alone_call, CrosstalkStmt.exec_getThread, ht, ne_eq, hopen,
      not_false_eq_true, if_true, Prog.alone_done]

end Alone

theorem settles_prog {s : CrosstalkStore} (site : Site) {username : String} {posting : Posting}
    {caller : Caller} {m : Message} {t : Thread}
    (hcaller : resolveCaller site username = .ok caller) (hid : posting.clientId ≠ none)
    (hm : m ∈ s.listed m.threadId (readScope site caller))
    (hthread : m.threadId = posting.threadId site) (hmid : m.id = posting.messageId site)
    (ht : s.getThread (posting.threadId site) (readScope site caller) = some t)
    (hadmitted : posting.Admitted site username caller t) :
    Settles ((posting.call username).prog site) s (.sent m.threadId m.id m.sentAt)
      (posting.StatusFits t ∧ Early s (readScope site caller) m) := by
  cases posting with
  | send req =>
      have hsend := settles_send hcaller hid hm hthread hmid ht hadmitted
      exact ⟨fun h => hsend.1 h.2, fun h => hsend.2 fun hearly => h ⟨trivial, hearly⟩⟩
  | reply threadId req => exact settles_reply hcaller hid hm hthread hmid ht hadmitted

/-- **Retries.** A send or a reply that has succeeded with a message id of the client is sent
again, in any later state of any run, at another time and with other random ids. It gets the
first answer and changes nothing exactly where it comes to the same thread and message id, its
thread is still open if it is a reply, and fewer than 200 messages of the thread are before the
one it has added. -/
theorem retry_answers_again (calls : List (Site × CrosstalkCall)) (schedule : List Nat) (i : Nat)
    (site : Site) (username : String) (posting : Posting)
    (hcall : calls[i]? = some (site, posting.call username)) (hid : posting.clientId ≠ none)
    (threadId messageId sentAt : String)
    (hanswer : ((crosstalkStart calls).run schedule).Answered i (.sent threadId messageId sentAt))
    (now newThreadId newMessageId : String) :
    ((posting.call username).prog (site.again now newThreadId newMessageId)).alone
        ((crosstalkStart calls).run schedule).world.db =
          (.sent threadId messageId sentAt, ((crosstalkStart calls).run schedule).world.db) ↔
      posting.threadId (site.again now newThreadId newMessageId) = threadId ∧
        posting.messageId (site.again now newThreadId newMessageId) = messageId ∧
        (∀ t, ((crosstalkStart calls).run schedule).world.db.threads.find threadId = some t →
          posting.StatusFits t) ∧
        ∀ caller m, resolveCaller site username = .ok caller →
          m ∈ ((crosstalkStart calls).run schedule).world.db.messages → m.id = messageId →
            Early ((crosstalkStart calls).run schedule).world.db (readScope site caller) m := by
  obtain ⟨caller, hcaller, -, ⟨m, hm, rfl, hthread, rfl, hscope⟩, t, ht, hadmitted⟩ :=
    recorded_of_answered hcall hanswer
  generalize ((crosstalkStart calls).run schedule).world.db = s at hm ht ⊢
  have hfind := (CrosstalkStore.getThread_eq_some_iff.mp ht).1
  have hcond : (∀ t', s.threads.find threadId = some t' → posting.StatusFits t') ∧
      (∀ caller' m', resolveCaller site username = .ok caller' → m' ∈ s.messages → m'.id = m.id →
        Early s (readScope site caller') m') ↔
      posting.StatusFits t ∧ Early s (readScope site caller) m := by
    constructor
    · rintro ⟨hstatus, hearly⟩
      exact ⟨hstatus t hfind, hearly caller m hcaller hm rfl⟩
    · rintro ⟨hstatus, hearly⟩
      refine ⟨fun t' ht' => ?_, fun caller' m' hcaller' hm' hid' => ?_⟩
      · obtain rfl := Option.some.inj (hfind.symm.trans ht')
        exact hstatus
      · obtain rfl := Except.ok.inj (hcaller.symm.trans hcaller')
        obtain rfl := Table.eq_of_key_eq hm' hm hid'
        exact hearly
  rw [hcond]
  have hsettles : posting.threadId (site.again now newThreadId newMessageId) = threadId →
      posting.messageId (site.again now newThreadId newMessageId) = m.id →
        Settles ((posting.call username).prog (site.again now newThreadId newMessageId)) s
          (.sent threadId m.id m.sentAt)
          (posting.StatusFits t ∧ Early s (readScope site caller) m) := by
    intro hsame hmid
    subst hthread
    refine settles_prog (site.again now newThreadId newMessageId) hcaller hid
      (CrosstalkStore.mem_listed.mpr ⟨hm, rfl, hscope⟩) hsame.symm hmid.symm (hsame.symm ▸ ht) ?_
    cases posting with
    | send req => exact hadmitted
    | reply _ req => exact hadmitted
  constructor
  · intro hagain
    obtain ⟨hsame, hmid⟩ := names_prog (site.again now newThreadId newMessageId) username posting
      _ _ _ (congrArg Prod.fst hagain)
    refine ⟨hsame.symm, hmid.symm, Classical.byContradiction fun hnot => ?_⟩
    obtain ⟨r, hrefused⟩ := (hsettles hsame.symm hmid.symm).2 hnot
    rw [hagain] at hrefused
    cases hrefused
  · rintro ⟨hsame, hmid, hfits⟩
    exact (hsettles hsame hmid).1 hfits

/-! ### Retries of alice's message and of bob's reply -/

/-- alice writes to bob, bob replies, and alice closes the thread. -/
def closedCalls : List (Site × CrosstalkCall) :=
  [(acmeSite "0", .send "alice" (sampleSend "bob" (some "m1"))),
    (acmeSite "1", .reply "bob" "th1" (sampleReply (some "m2"))),
    (acmeSite "2", .close "alice" "th1" none)]

def closedRun : Config CrosstalkStore CrosstalkStmt.Answer CrosstalkResponse :=
  (crosstalkStart closedCalls).run [0, 0, 0, 0, 1, 1, 1, 2, 2]

/-- alice sends her message again, and it is answered as before. -/
theorem retry_answers_again_sample :
    (((Posting.send (sampleSend "bob" (some "m1"))).call "alice").prog
        ((acmeSite "0").again "2026-06-01T13:00:00Z" "thread_9" "msg_9")).alone closedRun.world.db =
      (.sent "th1" "m1" "2026-06-01T12:00:00Z", closedRun.world.db) := by
  have hanswer : closedRun.Answered 0 (.sent "th1" "m1" "2026-06-01T12:00:00Z") :=
    Config.answered_iff_result.mpr (by decide +kernel)
  refine (retry_answers_again closedCalls [0, 0, 0, 0, 1, 1, 1, 2, 2] 0 (acmeSite "0") "alice"
    (.send (sampleSend "bob" (some "m1"))) rfl (Option.some_ne_none _) "th1" "m1"
    "2026-06-01T12:00:00Z" hanswer "2026-06-01T13:00:00Z" "thread_9" "msg_9").mpr
    ⟨rfl, rfl, fun _ _ => trivial, ?_⟩
  intro caller m _ _ _
  have hlength : closedRun.world.db.messages.rows.length = 2 := by decide +kernel
  have hle : (closedRun.world.db.visible m.threadId (readScope (acmeSite "0") caller)).countP
      (fun m' => m'.order < m.order) ≤ 2 :=
    (List.countP_le_length).trans ((List.length_filter_le _ _).trans hlength.le)
  exact Nat.lt_of_le_of_lt hle (by decide)

/-- alice's message, on no thread in particular. -/
def unnamedSend : SendMessageRequest := { sampleSend "bob" (some "m1") with threadId := none }

/-- It is sent, and sent again. -/
def sentOnce : CrosstalkResponse × CrosstalkStore :=
  (sendMessage (acmeSite "0") "alice" unnamedSend).alone CrosstalkStore.empty

def sentTwice : CrosstalkResponse × CrosstalkStore :=
  (sendMessage ((acmeSite "0").again "2026-06-01T13:00:00Z" "thread_9" "msg_9") "alice"
    unnamedSend).alone sentOnce.2

/-- bob sends his reply again, and is told that the thread is closed. A message that alice has
sent on no thread in particular is not found again: the retry opens another thread, and fails. -/
theorem retry_refused :
    closedRun.Answered 1 (.sent "th1" "m2" "2026-06-01T12:00:00Z") ∧
    (((Posting.reply "th1" (sampleReply (some "m2"))).call "bob").prog
        ((acmeSite "1").again "2026-06-01T13:00:00Z" "thread_9" "msg_9")).alone
          closedRun.world.db = (.refused .threadClosed, closedRun.world.db) ∧
    sentOnce.1 = .sent "thread_0" "m1" "2026-06-01T12:00:00Z" ∧
    sentTwice.1 = .refused .internalError ∧
    sentOnce.2.threads.rows.length = 1 ∧ sentTwice.2.threads.rows.length = 2 := by
  refine ⟨Config.answered_iff_result.mpr (by decide +kernel), ?_, by decide +kernel,
    by decide +kernel, by decide +kernel, by decide +kernel⟩
  have hthread : (closedRun.world.db.getThread "th1" ⟨"acme", none⟩).map Thread.status =
      some .closed := by decide +kernel
  obtain ⟨t, ht, hclosed⟩ := Option.map_eq_some_iff.mp hthread
  have hcaller : resolveCaller ((acmeSite "1").again "2026-06-01T13:00:00Z" "thread_9" "msg_9")
      "bob" = .ok ⟨"acme", "eng", "user"⟩ := rfl
  have hscope : readScope ((acmeSite "1").again "2026-06-01T13:00:00Z" "thread_9" "msg_9")
      ⟨"acme", "eng", "user"⟩ = ⟨"acme", none⟩ := by decide +kernel
  show (replyOnThread ((acmeSite "1").again "2026-06-01T13:00:00Z" "thread_9" "msg_9") "bob" "th1"
    (sampleReply (some "m2"))).alone closedRun.world.db = (.refused .threadClosed, closedRun.world.db)
  unfold replyOnThread
  simp only [hcaller, hscope, Prog.alone_call, CrosstalkStmt.exec_getThread, ht, hclosed, ne_eq,
    reduceCtorEq, not_false_eq_true, if_true, Prog.alone_done]

end EighthLayer.Crosstalk
