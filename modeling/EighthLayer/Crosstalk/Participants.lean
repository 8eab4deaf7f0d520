import EighthLayer.Crosstalk.Routes

/-!
# EighthLayer.Crosstalk.Participants

Who the messages of a thread come from and go to, and when the last one is added.

A send checks its sender against the thread it finds, and takes its recipient as the client
has named it. A reply picks the recipient, and may come from an admin who takes no part. All
routes look at the status of the thread before they add the message, in a statement of its own;
so a message may still come from a request that has looked before the thread was closed
(`messages_accounted`).
-/

namespace EighthLayer.Crosstalk

open Lib

/-! ## Events -/

/-- A statement that has been executed, with its answer. -/
abbrev did (i : Nat) (q : CrosstalkStmt) (a : q.Answer) : Event CrosstalkStmt.Answer := ⟨i, q, a⟩

/-- A close of the thread has succeeded. -/
def Closes (threadId : String) (e : Event CrosstalkStmt.Answer) : Prop :=
  ∃ i closedBy closedAt reason scope,
    e = did i (.closeThread threadId closedBy closedAt reason scope) true

/-- A request has looked at the thread, or has created it. -/
def Looks (i : Nat) (threadId : String) (e : Event CrosstalkStmt.Answer) : Prop :=
  (∃ scope found, e = did i (.getThread threadId scope) found) ∨
    ∃ t : Thread, t.id = threadId ∧ e = did i (.createThread t) true

/-- The request has looked at the thread before every close of it. -/
def LookedBefore (i : Nat) (threadId : String) (log : List (Event CrosstalkStmt.Answer)) : Prop :=
  ∀ later c earlier, log = later ++ c :: earlier → Closes threadId c →
    ∃ e ∈ earlier, Looks i threadId e

/-- The request has looked at the thread, and no close has succeeded by then. -/
def SeenOpen (i : Nat) (threadId : String) (log : List (Event CrosstalkStmt.Answer)) : Prop :=
  (∃ e ∈ log, Looks i threadId e) ∧ ∀ c ∈ log, ¬ Closes threadId c

/-- What has been seen open was looked at before every close that comes later. -/
theorem lookedBefore_of_seenOpen {i : Nat} {threadId : String}
    {log log' : List (Event CrosstalkStmt.Answer)} (h : SeenOpen i threadId log)
    (hsuffix : log <:+ log') : LookedBefore i threadId log' := by
  obtain ⟨⟨e, he, hlooks⟩, hopen⟩ := h
  obtain ⟨new, rfl⟩ := hsuffix
  intro later c earlier heq hcloses
  rcases List.append_eq_append_iff.mp heq with ⟨rest, -, hlog⟩ | ⟨rest, -, hlog⟩
  · exact absurd hcloses (hopen c (hlog ▸ List.mem_append_right _ List.mem_cons_self))
  · cases rest with
    | nil => exact absurd hcloses (hopen c ((List.nil_append _ ▸ hlog) ▸ List.mem_cons_self))
    | cons c' rest =>
        injection hlog with _ hearlier
        exact ⟨e, hearlier ▸ List.mem_append_right _ he, hlooks⟩

/-! ## Accounting for a message -/

/-- What a request is entitled to add to a thread. A sender takes part, and so does the recipient
of a send that has not found the thread there. Whoever replies takes part or is an admin, and
the recipient is another participant, or nobody where there is none. -/
def Entitled (p : Site × CrosstalkCall) (i : Nat) (log : List (Event CrosstalkStmt.Answer))
    (t : Thread) (m : Message) : Prop :=
  match p.2 with
  | .send username req =>
    m.fromUsername = username ∧ username ∈ t.participants ∧ m.toUsername = some req.to_ ∧
      (req.to_ ∈ t.participants ∨
        ∃ scope found, did i (.getThread m.threadId scope) (some found) ∈ log)
  | .reply username _ _ =>
    m.fromUsername = username ∧
      (username ∈ t.participants ∨
        ∃ caller, resolveCaller p.1 username = .ok caller ∧ isAdminRole caller.role = true) ∧
      m.toUsername = (t.participants.filter fun p => p ≠ username).head?
  | .close .. => False

theorem Entitled.mono {p : Site × CrosstalkCall} {i : Nat}
    {log log' : List (Event CrosstalkStmt.Answer)} {t t' : Thread} {m : Message}
    (h : Entitled p i log t m) (hlog : log <:+ log') (hparts : t'.participants = t.participants) :
    Entitled p i log' t' m := by
  obtain ⟨site, call⟩ := p
  cases call with
  | close username threadId reason => exact h
  | reply username threadId req =>
      obtain ⟨hfrom, hsender, hto⟩ := h
      refine ⟨hfrom, ?_, ?_⟩
      · rw [hparts]
        exact hsender
      · rw [hparts]
        exact hto
  | send username req =>
      obtain ⟨hfrom, hsender, hto, hrecipient⟩ := h
      refine ⟨hfrom, hparts ▸ hsender, hto, ?_⟩
      rcases hrecipient with hin | ⟨scope, found, hfound⟩
      · exact .inl (hparts ▸ hin)
      · exact .inr ⟨scope, found, hlog.subset hfound⟩

variable (calls : List (Site × CrosstalkCall))

/-- The message is in a thread, and a request has added it that was entitled to. -/
def Accounted (w : CrosstalkWorld) (m : Message) : Prop :=
  ∃ t, w.db.threads.find m.threadId = some t ∧
    ∃ i p, did i (.appendMessage m) true ∈ w.log ∧ calls[i]? = some p ∧ Entitled p i w.log t m

/-- All messages are accounted for; a thread whose close has succeeded is closed; and whoever
has added a message had looked at the thread before it was closed. -/
structure Sound (w : CrosstalkWorld) : Prop where
  accounted : ∀ m ∈ w.db.messages, Accounted calls w m
  closed : ∀ k, ∀ e ∈ w.log, Closes k e →
    ∃ t, w.db.threads.find k = some t ∧ t.status = .closed
  looked : ∀ later i m earlier, w.log = later ++ did i (.appendMessage m) true :: earlier →
    LookedBefore i m.threadId earlier

/-- A message that a request may add. -/
def MayAppend (i : Nat) (w : CrosstalkWorld) (m : Message) : Prop :=
  LookedBefore i m.threadId w.log ∧ ∃ t, w.db.threads.find m.threadId = some t ∧
    ∃ p, calls[i]? = some p ∧ Entitled p i w.log t m

/-- What the routes promise each other. -/
def accounting : Contract CrosstalkStore CrosstalkStmt.Answer where
  inv := Sound calls
  rel w w' := w.db.Grows w'.db ∧ w.log <:+ w'.log
  ok _ _ _ := True
  refl w := ⟨.refl w.db, List.suffix_refl _⟩
  trans h h' := ⟨h.1.trans h'.1, h.2.trans h'.2⟩

variable {calls} {i : Nat}

theorem rel_exec (w : CrosstalkWorld) (i : Nat) (q : CrosstalkStmt) :
    (accounting calls).rel w (w.exec i q) :=
  ⟨CrosstalkStmt.grows_exec q w.db, List.suffix_cons _ _⟩

/-- The step lemma. -/
theorem sound_exec {w : CrosstalkWorld} {q : CrosstalkStmt} (h : Sound calls w)
    (hq : ∀ m, q = .appendMessage m → MayAppend calls i w m) : Sound calls (w.exec i q) where
  accounted := by
    intro m hm
    have hgrows := CrosstalkStmt.grows_exec q w.db
    have hsuffix : w.log <:+ (w.exec i q).log := List.suffix_cons _ _
    rcases CrosstalkStmt.mem_exec_messages.mp hm with hm | ⟨rfl, hsome⟩
    · obtain ⟨t, ht, j, p, hadded, hp, hentitled⟩ := h.accounted m hm
      obtain ⟨t', ht', hparts, -⟩ := hgrows.threads _ _ ht
      exact ⟨t', ht', j, p, hsuffix.subset hadded, hp, hentitled.mono hsuffix hparts⟩
    · obtain ⟨-, t, ht, p, hp, hentitled⟩ := hq m rfl
      obtain ⟨t', ht', hparts, -⟩ := hgrows.threads _ _ ht
      refine ⟨t', ht', i, p, ?_, hp, hentitled.mono hsuffix hparts⟩
      refine World.mem_exec_log.mpr (.inr ⟨rfl, rfl, ?_⟩)
      obtain ⟨s', hs'⟩ := Option.ne_none_iff_exists'.mp hsome
      show true = ((CrosstalkStmt.appendMessage m).exec w.db).1
      unfold CrosstalkStmt.exec
      simp only [hs']
  closed := by
    intro k e he hcloses
    rcases List.mem_cons.mp he with rfl | he
    · obtain ⟨j, closedBy, closedAt, reason, scope, heq⟩ := hcloses
      injection heq with _ hstmt hanswer
      subst hstmt
      exact CrosstalkStmt.closed_of_closeThread (eq_of_heq hanswer)
    · obtain ⟨t, ht, hclosed⟩ := h.closed k e he hcloses
      obtain ⟨t', ht', -, -, -, hsame⟩ := (CrosstalkStmt.grows_exec q w.db).threads _ _ ht
      exact ⟨t', ht', hsame hclosed ▸ hclosed⟩
  looked := by
    intro later j m earlier heq
    cases later with
    | nil =>
        injection heq with hevent hlog
        injection hevent with htask hstmt _
        subst htask
        exact hlog ▸ (hq m hstmt).1
    | cons e later =>
        injection heq with _ hlog
        exact h.looked later j m earlier hlog

/-! ## The routes -/

/-- A program keeps the promise, from a world on. -/
def Keeps (calls : List (Site × CrosstalkCall)) (i : Nat) (p : RouteProg) (w : CrosstalkWorld) :
    Prop := p.Keeps (accounting calls) (fun _ _ => True) i w

theorem keeps_done {answer : CrosstalkResponse} (w : CrosstalkWorld) :
    Keeps calls i (.done answer) w := trivial

theorem Keeps.later {p : RouteProg} {w w' : CrosstalkWorld} (h : Keeps calls i p w)
    (hrel : (accounting calls).rel w w') : Keeps calls i p w' := by
  cases p with
  | done answer => trivial
  | call q k =>
      intro w'' hinv hrel' hok
      exact h w'' hinv ((accounting calls).trans hrel hrel') hok

/-- A statement that may be executed, and the rest of its program. -/
theorem keeps_call {q : CrosstalkStmt} {k : q.Answer → RouteProg} {w : CrosstalkWorld}
    (h : ∀ w', Sound calls w' → (accounting calls).rel w w' →
      (∀ m, q = .appendMessage m → MayAppend calls i w' m) ∧
        Keeps calls i (k (Database.exec (A := CrosstalkStmt.Answer) q w'.db).1) (w'.exec i q)) :
    Keeps calls i (.call q k) w := by
  intro w' hinv hrel _
  obtain ⟨hmay, hrest⟩ := h w' hinv hrel
  exact ⟨⟨sound_exec hinv hmay, rel_exec w' i q⟩, hrest⟩

/-- A statement that only reads. -/
theorem keeps_read {q : CrosstalkStmt} {k : q.Answer → RouteProg} {w : CrosstalkWorld}
    (hq : ∀ m, q ≠ .appendMessage m)
    (h : ∀ w', Sound calls w' → (accounting calls).rel w (w'.exec i q) →
      Keeps calls i (k (Database.exec (A := CrosstalkStmt.Answer) q w'.db).1) (w'.exec i q)) :
    Keeps calls i (.call q k) w :=
  keeps_call fun w' hinv hrel => ⟨fun m hm => absurd hm (hq m),
    h w' hinv ((accounting calls).trans hrel (rel_exec w' i q))⟩

/-- An append by a request that has seen the thread open and is entitled to its message. -/
theorem keeps_append {p : Site × CrosstalkCall} (hp : calls[i]? = some p) {m : Message}
    {t : Thread} {w : CrosstalkWorld} (ht : w.db.threads.find m.threadId = some t)
    (hseen : SeenOpen i m.threadId w.log) (hentitled : Entitled p i w.log t m) :
    Keeps calls i (append m) w := by
  refine keeps_call fun w' _ hrel => ⟨?_, ?_⟩
  · rintro _ ⟨⟩
    obtain ⟨t', ht', hparts, -⟩ := hrel.1.threads _ _ ht
    exact ⟨lookedBefore_of_seenOpen hseen hrel.2, t', ht', p, hp, hentitled.mono hrel.2 hparts⟩
  · split
    · exact keeps_done _
    · exact keeps_done _

theorem keeps_unlessDuplicate {threadId messageId : String} {scope : Scope} {next : RouteProg}
    {w : CrosstalkWorld} (h : ∀ w', (accounting calls).rel w w' → Keeps calls i next w') :
    Keeps calls i (unlessDuplicate threadId messageId scope next) w := by
  refine keeps_read (fun m hm => (nomatch hm)) fun w' _ hrel => ?_
  split
  · exact keeps_done _
  · exact h _ hrel

/-- An open thread that a request has read has been seen open. -/
theorem seenOpen_of_read {w : CrosstalkWorld} (h : Sound calls w) {threadId : String}
    {scope : Scope} {t : Thread} (ht : w.db.getThread threadId scope = some t)
    (hopen : t.status = .opened) :
    SeenOpen i threadId (w.exec i (.getThread threadId scope)).log := by
  refine ⟨⟨_, List.mem_cons_self, .inl ⟨scope, _, rfl⟩⟩, fun c hc hcloses => ?_⟩
  rcases List.mem_cons.mp hc with rfl | hc
  · obtain ⟨_, _, _, _, _, heq⟩ := hcloses
    injection heq with _ hstmt _
    cases hstmt
  · obtain ⟨t', ht', hclosed⟩ := h.closed threadId c hc hcloses
    obtain rfl := Option.some.inj ((CrosstalkStore.getThread_eq_some_iff.mp ht).1.symm.trans ht')
    rw [hopen] at hclosed
    cases hclosed

/-- So has one that it has created. -/
theorem seenOpen_of_created {w : CrosstalkWorld} (h : Sound calls w) {t : Thread}
    (hcreated : (Database.exec (A := CrosstalkStmt.Answer) (.createThread t) w.db).1 = true) :
    SeenOpen i t.id (w.exec i (.createThread t)).log := by
  have hfree : w.db.threads.find t.id = none := by
    change ((CrosstalkStmt.createThread t).exec w.db).1 = true at hcreated
    unfold CrosstalkStmt.exec at hcreated
    dsimp only at hcreated
    split at hcreated
    · cases hcreated
    · rename_i s' hs
      exact Table.find_none_of_insert (CrosstalkStore.createThread_eq_some hs).1
  refine ⟨⟨_, List.mem_cons_self, .inr ⟨t, rfl, by rw [← hcreated]⟩⟩, fun c hc hcloses => ?_⟩
  rcases List.mem_cons.mp hc with rfl | hc
  · obtain ⟨_, _, _, _, _, heq⟩ := hcloses
    injection heq with _ hstmt _
    cases hstmt
  · obtain ⟨t', ht', -⟩ := h.closed t.id c hc hcloses
    rw [hfree] at ht'
    cases ht'

theorem keeps_sendOn {site : Site} {username : String} {req : SendMessageRequest}
    (hp : calls[i]? = some (site, .send username req)) {caller : Caller}
    {existing : Option Thread} {w : CrosstalkWorld}
    (h : ∀ t, existing = some t → t.status = .opened →
      w.db.threads.find (req.thread site) = some t ∧ SeenOpen i (req.thread site) w.log ∧
        ∃ scope, did i (.getThread (req.thread site) scope) (some t) ∈ w.log) :
    Keeps calls i (sendOn site caller username req existing) w := by
  unfold sendOn
  cases existing with
  | none =>
      refine keeps_call fun w' hsound _ => ⟨fun m hm => (nomatch hm), ?_⟩
      split
      · -- the thread is there from now on, with sender and recipient for its participants
        rename_i hcreated
        exact keeps_append hp (CrosstalkStmt.find_of_created hcreated)
          (seenOpen_of_created hsound hcreated)
          ⟨rfl, List.mem_cons_self, rfl, .inl (.tail _ (.head _))⟩
      · exact keeps_done _
  | some t =>
      dsimp only
      split
      · exact keeps_done _
      · rename_i hopen
        split
        · exact keeps_done _
        · rename_i hsender
          obtain ⟨ht, hseen, scope, hread⟩ := h t rfl (not_not.mp hopen)
          exact keeps_append hp ht hseen
            ⟨rfl, not_not.mp hsender, rfl, .inr ⟨scope, t, hread⟩⟩

theorem keeps_sendFresh {site : Site} {username : String} {req : SendMessageRequest}
    (hp : calls[i]? = some (site, .send username req)) {caller : Caller} (w : CrosstalkWorld) :
    Keeps calls i (sendFresh site caller username req) w := by
  unfold sendFresh
  split
  · refine keeps_read (fun m hm => (nomatch hm)) fun w' hsound _ => ?_
    refine keeps_sendOn hp fun t ht hopen => ?_
    exact ⟨(CrosstalkStore.getThread_eq_some_iff.mp ht).1, seenOpen_of_read hsound ht hopen,
      readScope site caller, World.mem_exec_log.mpr (.inr ⟨rfl, rfl, ht.symm⟩)⟩
  · exact keeps_sendOn hp fun t ht => (nomatch ht)

theorem keeps_sendMessage {site : Site} {username : String} {req : SendMessageRequest}
    (hp : calls[i]? = some (site, .send username req)) (w : CrosstalkWorld) :
    Keeps calls i (sendMessage site username req) w := by
  unfold sendMessage
  split
  · exact keeps_done _
  · rename_i caller _
    split
    · exact keeps_done _
    · split
      · refine keeps_read (fun m hm => (nomatch hm)) fun w' _ _ => ?_
        split
        · exact keeps_sendFresh hp _
        · exact keeps_unlessDuplicate fun w'' _ => keeps_sendFresh hp w''
      · exact keeps_sendFresh hp w

theorem keeps_replyOnThread {site : Site} {username threadId : String} {req : ReplyRequest}
    (hp : calls[i]? = some (site, .reply username threadId req)) (w : CrosstalkWorld) :
    Keeps calls i (replyOnThread site username threadId req) w := by
  unfold replyOnThread
  split
  · exact keeps_done _
  · rename_i caller hcaller
    refine keeps_read (fun m hm => (nomatch hm)) fun w' hsound _ => ?_
    split
    · exact keeps_done _
    · rename_i t ht
      split
      · exact keeps_done _
      · rename_i hopen
        split
        · exact keeps_done _
        · rename_i hsender
          have hfind := (CrosstalkStore.getThread_eq_some_iff.mp ht).1
          obtain rfl : t.id = threadId := (Table.find_eq_some_iff.mp hfind).2
          have hentitled : Entitled (site, .reply username t.id req) i
              (w'.exec i (.getThread t.id (readScope site caller))).log t
              (req.message site caller username t) := by
            refine ⟨rfl, ?_, rfl⟩
            by_cases hin : username ∈ t.participants
            · exact .inl hin
            · exact .inr ⟨caller, hcaller, Bool.eq_true_of_not_eq_false fun h => hsender ⟨hin, h⟩⟩
          have happend := keeps_append hp (m := req.message site caller username t)
            (w := w'.exec i (.getThread t.id (readScope site caller))) hfind
            (seenOpen_of_read hsound ht (not_not.mp hopen)) hentitled
          split
          · exact keeps_unlessDuplicate fun w'' hrel => happend.later hrel
          · exact happend

theorem keeps_closeThread {site : Site} {username threadId : String} {reason : Option String}
    (w : CrosstalkWorld) : Keeps calls i (closeThread site username threadId reason) w := by
  unfold closeThread
  split
  · exact keeps_done _
  · refine keeps_read (fun m hm => (nomatch hm)) fun w' _ _ => ?_
    split
    · exact keeps_done _
    · split
      · exact keeps_done _
      · refine keeps_call fun w'' _ _ => ⟨fun m hm => (nomatch hm), ?_⟩
        split
        · exact keeps_done _
        · exact keeps_done _

/-- Every request keeps the promise. -/
theorem keeps_prog {p : Site × CrosstalkCall} (hp : calls[i]? = some p) (w : CrosstalkWorld) :
    Keeps calls i (p.2.prog p.1) w := by
  obtain ⟨site, call⟩ := p
  cases call with
  | send username req => exact keeps_sendMessage hp w
  | reply username threadId req => exact keeps_replyOnThread hp w
  | close username threadId reason => exact keeps_closeThread w

/-! ## Every run -/

/-- A pool of requests, on empty tables. -/
def crosstalkStart (calls : List (Site × CrosstalkCall)) :
    Config CrosstalkStore CrosstalkStmt.Answer CrosstalkResponse :=
  .start .empty (crosstalkProgs calls)

/-- **Messages are accounted for.** In every run, each message stored is in a thread, and was
added by a request entitled to it; and whoever has added a message to a thread had looked at it
before every close of it that had succeeded by then. -/
theorem messages_accounted (calls : List (Site × CrosstalkCall)) (schedule : List Nat) :
    (∀ m ∈ ((crosstalkStart calls).run schedule).world.db.messages,
      Accounted calls ((crosstalkStart calls).run schedule).world m) ∧
    ∀ later i m earlier, ((crosstalkStart calls).run schedule).world.log =
        later ++ did i (.appendMessage m) true :: earlier →
      LookedBefore i m.threadId earlier := by
  have hstart : (accounting calls).Holds (fun _ _ _ => True) (crosstalkStart calls) := by
    refine Contract.Holds.start ⟨?_, ?_, ?_⟩ ?_
    · intro m hm
      exact absurd hm (Table.not_mem_empty m)
    · intro k e he
      cases he
    · intro later i m earlier heq
      cases later <;> cases heq
    · intro i prog hprog
      rw [crosstalkProgs, List.getElem?_map] at hprog
      obtain ⟨p, hp, rfl⟩ := Option.map_eq_some_iff.mp hprog
      exact keeps_prog hp _
  have hmeets := (crosstalkStart calls).meets_true schedule
  have hsound := (Contract.run hstart
    (Config.Meets.imp (fun _ _ _ _ _ _ => trivial) hmeets)).1.inv
  exact ⟨hsound.accounted, hsound.looked⟩

/-! ### A thread of alice and bob -/

/-- Three users of acme's engineering, and an admin. -/
def acmeUsers (username : String) : Option UserRow :=
  if username ∈ ["alice", "bob", "carol"] then some ⟨some "acme", some "eng", none⟩
  else if username = "root" then some ⟨some "acme", some "eng", some "admin"⟩
  else none

/-- What a request finds there; its random ids are made of a text. -/
def acmeSite (ids : String) : Site where
  env := ⟨fun _ => none⟩
  users := acmeUsers
  now := "2026-06-01T12:00:00Z"
  newThreadId := "thread_" ++ ids
  newMessageId := "msg_" ++ ids

/-- A send on a thread of the client's choice. -/
def sampleSend (to_ : String) (messageId : Option String) : SendMessageRequest where
  to_
  content := "Which key rotates first?"
  persona := none
  subject := "keys"
  threadId := some "th1"
  messageId
  content_ne := by decide

/-- A reply. -/
def sampleReply (messageId : Option String) : ReplyRequest where
  content := "The signing key."
  persona := none
  messageId
  content_ne := by decide

/-- alice writes to bob; then to carol, on the same thread; the admin replies, and so does bob,
while alice closes the thread. -/
def strangeCalls : List (Site × CrosstalkCall) :=
  [(acmeSite "0", .send "alice" (sampleSend "bob" none)),
    (acmeSite "1", .send "alice" (sampleSend "carol" none)),
    (acmeSite "2", .reply "root" "th1" (sampleReply none)),
    (acmeSite "3", .reply "bob" "th1" (sampleReply none)),
    (acmeSite "4", .close "alice" "th1" none)]

/-- bob's reply has looked at the thread before the close, and adds its message after it. -/
def strangeRun : Config CrosstalkStore CrosstalkStmt.Answer CrosstalkResponse :=
  (crosstalkStart strangeCalls).run [0, 0, 0, 1, 1, 2, 2, 3, 4, 4, 3]

/-- Whether the latest statement adds a message to a thread that was closed before. -/
def addsLate : List (Event CrosstalkStmt.Answer) → Bool
  | ⟨_, .appendMessage m, added⟩ :: earlier => added && earlier.any fun c =>
    match c with
    | ⟨_, .closeThread threadId _ _ _ _, won⟩ => threadId = m.threadId && won
    | _ => false
  | _ => false

theorem late_of_addsLate {log : List (Event CrosstalkStmt.Answer)} (h : addsLate log = true) :
    ∃ i m earlier, log = did i (.appendMessage m) true :: earlier ∧
      ∃ c ∈ earlier, Closes m.threadId c := by
  unfold addsLate at h
  split at h
  · rename_i i m added earlier
    obtain ⟨rfl, hany⟩ := Bool.and_eq_true_iff.mp h
    obtain ⟨c, hc, hcloses⟩ := List.any_eq_true.mp hany
    refine ⟨i, m, earlier, rfl, c, hc, ?_⟩
    split at hcloses
    · rename_i j threadId closedBy closedAt reason scope won
      obtain ⟨hid, rfl⟩ := Bool.and_eq_true_iff.mp hcloses
      exact ⟨j, closedBy, closedAt, reason, scope, of_decide_eq_true hid ▸ rfl⟩
    · cases hcloses
  · cases h

/-- carol gets a message of a thread that she takes no part in; the admin, who takes none
either, has sent one; and bob's is added after the close. -/
theorem strange_messages :
    (∃ m ∈ strangeRun.world.db.messages, ∃ t, strangeRun.world.db.threads.find m.threadId = some t ∧
      m.toUsername = some "carol" ∧ "carol" ∉ t.participants) ∧
    (∃ m ∈ strangeRun.world.db.messages, ∃ t, strangeRun.world.db.threads.find m.threadId = some t ∧
      m.fromUsername = "root" ∧ "root" ∉ t.participants) ∧
    ∃ i m earlier, strangeRun.world.log = did i (.appendMessage m) true :: earlier ∧
      ∃ c ∈ earlier, Closes m.threadId c := by
  have hmessages : strangeRun.world.db.messages.rows.map (fun m =>
      (m.id, m.threadId, m.fromUsername, m.toUsername)) =
        [("msg_0", "th1", "alice", some "bob"), ("msg_1", "th1", "alice", some "carol"),
          ("msg_2", "th1", "root", some "alice"), ("msg_3", "th1", "bob", some "alice")] := by
    decide +kernel
  have hthread : (strangeRun.world.db.threads.find "th1").map Thread.participants =
      some ["alice", "bob"] := by decide +kernel
  obtain ⟨t, ht, hparts⟩ := Option.map_eq_some_iff.mp hthread
  have hmem : ∀ row ∈ [("msg_1", "th1", "alice", some "carol"),
      ("msg_2", "th1", "root", some "alice")], ∃ m ∈ strangeRun.world.db.messages,
        (m.id, m.threadId, m.fromUsername, m.toUsername) = row := by
    intro row hrow
    refine List.mem_map.mp (hmessages ▸ ?_)
    simp only [List.mem_cons, List.not_mem_nil, or_false] at hrow ⊢
    rcases hrow with rfl | rfl
    · exact .inr (.inl rfl)
    · exact .inr (.inr (.inl rfl))
  refine ⟨?_, ?_, late_of_addsLate (by decide +kernel)⟩
  · obtain ⟨m, hm, hrow⟩ := hmem _ (.head _)
    cases m
    cases hrow
    exact ⟨_, hm, t, ht, rfl, by rw [hparts]; decide⟩
  · obtain ⟨m, hm, hrow⟩ := hmem _ (.tail _ (.head _))
    cases m
    cases hrow
    exact ⟨_, hm, t, ht, rfl, by rw [hparts]; decide⟩

end EighthLayer.Crosstalk
