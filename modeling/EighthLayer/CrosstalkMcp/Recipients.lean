import EighthLayer.CrosstalkMcp.Server
import EighthLayer.Lib.Rely

/-!
# EighthLayer.CrosstalkMcp.Recipients

Who is to be notified of a message, and what the servers keep of that at every statement.

The deliveries of a message are rows of their own, which its sender inserts one after the other, a
restarting server seeds, and the server of each recipient marks. `Sound` is what holds of them, the
messages and the inbox files at all times; `Fit` is what a server may do, and `service` what each
server counts on meanwhile: nobody else notifies its session, marks its deliveries or uses an id
that it is going to draw.
-/

namespace EighthLayer.CrosstalkMcp

open Lib

/-! ## Recipients -/

/-- Whom a message is for. What is said to a whole thread is for all its participants but the
sender: the first message of a thread that is not a pair's, and a reply where there are more than
two. Everything else is for its addressee. -/
def Message.recipients (m : Message) (t : Thread) : List String :=
  if (m.type = .reply ∧ 2 < t.participants.length) ∨
      ((m.type = .message ∨ m.type = .help) ∧ t.kind ≠ .pair) then
    t.participants.filter (· ≠ m.fromSession)
  else [m.toSession]

/-- The message of the store is for the session. -/
def IsFor (s : McpStore) (m : Message) (session : String) : Prop :=
  ∃ t, s.threads.find m.threadId = some t ∧ session ∈ m.recipients t

/-- There is a delivery of the message to the session. -/
def HasDelivery (s : McpStore) (id session : String) : Prop :=
  ∃ d ∈ s.deliveries, d.messageId = id ∧ d.session = session

/-- A message of the store that has a delivery to each of its recipients. -/
def Full (s : McpStore) (id : String) : Prop :=
  ∃ m ∈ s.messages, m.id = id ∧ ∃ t, s.threads.find m.threadId = some t ∧
    ∀ session ∈ m.recipients t, HasDelivery s id session

/-! ## What is never undone -/

/-- The same message, but for what may be updated. -/
structure Message.Like (m m' : Message) : Prop where
  id : m'.id = m.id
  threadId : m'.threadId = m.threadId
  fromSession : m'.fromSession = m.fromSession
  toSession : m'.toSession = m.toSession
  type : m'.type = m.type

theorem Message.Like.refl (m : Message) : m.Like m := ⟨rfl, rfl, rfl, rfl, rfl⟩

theorem Message.Like.trans {m m' m'' : Message} (h : m.Like m') (h' : m'.Like m'') : m.Like m'' :=
  ⟨h'.id.trans h.id, h'.threadId.trans h.threadId, h'.fromSession.trans h.fromSession,
    h'.toSession.trans h.toSession, h'.type.trans h.type⟩

theorem Message.Like.recipients {m m' : Message} (h : m.Like m') {t t' : Thread}
    (hparticipants : t'.participants = t.participants) (hkind : t'.kind = t.kind) :
    m'.recipients t' = m.recipients t := by
  unfold Message.recipients
  rw [h.type, h.fromSession, h.toSession, hparticipants, hkind]

/-- A store that another one has become: nothing is lost, and the recipients are who they were. -/
structure Grows (s s' : McpStore) : Prop where
  messages : ∀ m ∈ s.messages, ∃ m' ∈ s'.messages, m.Like m'
  threads : ∀ k t, s.threads.find k = some t → ∃ t', s'.threads.find k = some t' ∧
    t'.participants = t.participants ∧ t'.kind = t.kind
  deliveries : ∀ id session, HasDelivery s id session → HasDelivery s' id session
  shown : ∀ p ∈ s.shown, p ∈ s'.shown

theorem Grows.refl (s : McpStore) : Grows s s :=
  ⟨fun m hm => ⟨m, hm, .refl m⟩, fun _ t ht => ⟨t, ht, rfl, rfl⟩, fun _ _ h => h, fun _ h => h⟩

theorem Grows.trans {s s' s'' : McpStore} (h : Grows s s') (h' : Grows s' s'') : Grows s s'' where
  messages := by
    intro m hm
    obtain ⟨m', hm', hlike⟩ := h.messages m hm
    obtain ⟨m'', hm'', hlike'⟩ := h'.messages m' hm'
    exact ⟨m'', hm'', hlike.trans hlike'⟩
  threads := by
    intro k t ht
    obtain ⟨t', ht', hparticipants, hkind⟩ := h.threads k t ht
    obtain ⟨t'', ht'', hparticipants', hkind'⟩ := h'.threads k t' ht'
    exact ⟨t'', ht'', hparticipants'.trans hparticipants, hkind'.trans hkind⟩
  deliveries := fun id session hd => h'.deliveries id session (h.deliveries id session hd)
  shown := fun p hp => h'.shown p (h.shown p hp)

theorem IsFor.grows {s s' : McpStore} {m m' : Message} {session : String} (h : IsFor s m session)
    (hgrows : Grows s s') (hlike : m.Like m') : IsFor s' m' session := by
  obtain ⟨t, ht, hmem⟩ := h
  obtain ⟨t', ht', hparticipants, hkind⟩ := hgrows.threads _ t ht
  refine ⟨t', by rw [hlike.threadId]; exact ht', ?_⟩
  rw [hlike.recipients hparticipants hkind]
  exact hmem

theorem Full.grows {s s' : McpStore} {id : String} (h : Full s id) (hgrows : Grows s s') :
    Full s' id := by
  obtain ⟨m, hm, hid, t, ht, hall⟩ := h
  obtain ⟨m', hm', hlike⟩ := hgrows.messages m hm
  obtain ⟨t', ht', hparticipants, hkind⟩ := hgrows.threads _ t ht
  refine ⟨m', hm', hlike.id.trans hid, t', by rw [hlike.threadId]; exact ht', ?_⟩
  intro session hmem
  rw [hlike.recipients hparticipants hkind] at hmem
  exact hgrows.deliveries _ _ (hall session hmem)

theorem HasDelivery.insert (s : McpStore) (d : Delivery) :
    HasDelivery { s with deliveries := s.deliveries.insertOrIgnore d } d.messageId d.session := by
  obtain ⟨d', hd', hkey⟩ := Table.exists_mem_insertOrIgnore s.deliveries d
  obtain ⟨hid, hsession⟩ := Prod.mk.inj hkey
  exact ⟨d', hd', hid, hsession⟩

theorem HasDelivery.deliver {s : McpStore} {id session : String} (h : HasDelivery s id session)
    (which : Delivery → Bool) (now : String) : HasDelivery (s.deliver which now) id session := by
  obtain ⟨d, hd, hid, hsession⟩ := h
  refine ⟨if which d then { d with deliveredAt := some now } else d,
    McpStore.mem_deliver.mpr ⟨d, hd, rfl⟩, ?_, ?_⟩
  · split <;> exact hid
  · split <;> exact hsession

/-- A change of threads that keeps who takes part. -/
theorem grows_of_threads {s s' : McpStore} (hmessages : s'.messages = s.messages)
    (hdeliveries : s'.deliveries = s.deliveries) (hshown : s'.shown = s.shown)
    (hthreads : ∀ k t, s.threads.find k = some t → ∃ t', s'.threads.find k = some t' ∧
      t'.participants = t.participants ∧ t'.kind = t.kind) : Grows s s' where
  messages := fun m hm => ⟨m, by rw [hmessages]; exact hm, .refl m⟩
  threads := hthreads
  deliveries := by
    rintro id session ⟨d, hd, hkey⟩
    exact ⟨d, by rw [hdeliveries]; exact hd, hkey⟩
  shown := fun p hp => by rw [hshown]; exact hp

/-- A change of messages that keeps whom they are for. -/
theorem grows_of_messages {s s' : McpStore} (hthreads : s'.threads = s.threads)
    (hdeliveries : s'.deliveries = s.deliveries) (hshown : s'.shown = s.shown)
    (hmessages : ∀ m ∈ s.messages, ∃ m' ∈ s'.messages, m.Like m') : Grows s s' where
  messages := hmessages
  threads := fun k t ht => ⟨t, by rw [hthreads]; exact ht, rfl, rfl⟩
  deliveries := by
    rintro id session ⟨d, hd, hkey⟩
    exact ⟨d, by rw [hdeliveries]; exact hd, hkey⟩
  shown := fun p hp => by rw [hshown]; exact hp

theorem like_update {t : Table Message.id} {p : Message → Bool} {f : Message → Message}
    (hlike : ∀ m : Message, m.Like (f m)) :
    ∀ m ∈ t, ∃ m' ∈ t.update p f (fun m => (hlike m).id), m.Like m' := by
  intro m hm
  refine ⟨_, Table.mem_update.mpr ⟨m, hm, rfl⟩, ?_⟩
  split
  · exact hlike m
  · exact .refl m

theorem find_update_participants {t : Table Thread.id} {p : Thread → Bool} {f : Thread → Thread}
    (hf : ∀ t, (f t).id = t.id)
    (hsame : ∀ t, (f t).participants = t.participants ∧ (f t).kind = t.kind) :
    ∀ k r, t.find k = some r → ∃ r', (t.update p f hf).find k = some r' ∧
      r'.participants = r.participants ∧ r'.kind = r.kind := by
  intro k r hr
  rw [Table.find_update, hr]
  refine ⟨if p r then f r else r, rfl, ?_⟩
  split
  · exact hsame r
  · exact ⟨rfl, rfl⟩

/-- No statement undoes anything. -/
theorem grows_exec (q : McpStmt) (s : McpStore) : Grows s (q.exec s).2 := by
  cases q with
  | upsertThread t =>
      refine grows_of_threads rfl rfl rfl fun k r hr => ?_
      change ∃ t', (s.upsertThread t).threads.find k = some t' ∧ _
      unfold McpStore.upsertThread
      dsimp only
      split
      · exact ⟨r, by rw [Table.find_insertOrIgnore, hr]; rfl, rfl, rfl⟩
      · exact find_update_participants (fun old => old.merge_id t) (fun _ => ⟨rfl, rfl⟩) k r hr
  | insertMessage m =>
      exact grows_of_messages rfl rfl rfl fun m' hm' =>
        ⟨m', Table.mem_insertOrIgnore.mpr (.inl hm'), .refl m'⟩
  | insertDelivery id session =>
      refine ⟨(Grows.refl s).messages, (Grows.refl s).threads, ?_, fun _ h => h⟩
      rintro id' session' ⟨d, hd, hkey⟩
      exact ⟨d, Table.mem_insertOrIgnore.mpr (.inl hd), hkey⟩
  | markDelivery id session now =>
      exact ⟨(Grows.refl s).messages, (Grows.refl s).threads, fun _ _ h => h.deliver _ _,
        fun _ h => h⟩
  | decline threadId session now =>
      exact ⟨(Grows.refl s).messages, (Grows.refl s).threads, fun _ _ h => h.deliver _ _,
        fun _ h => h⟩
  | rejectRoutings threadId session now =>
      exact ⟨(Grows.refl s).messages, (Grows.refl s).threads, fun _ _ h => h.deliver _ _,
        fun _ h => h⟩
  | markMessage id now =>
      exact grows_of_messages rfl rfl rfl
        (like_update (f := fun m => { m with deliveredAt := some now }) fun _ => ⟨rfl, rfl, rfl, rfl, rfl⟩)
  | adoptThread threadId initiator newTag now =>
      refine grows_of_threads rfl rfl rfl (find_update_participants (fun t => by split <;> rfl)
        fun t => ?_)
      split <;> exact ⟨rfl, rfl⟩
  | adoptMessages threadId session initiator newTag =>
      cases initiator with
      | true =>
          exact grows_of_messages rfl rfl rfl
            (like_update (f := fun m => { m with fromTag := newTag }) fun _ => ⟨rfl, rfl, rfl, rfl, rfl⟩)
      | false =>
          exact grows_of_messages rfl rfl rfl
            (like_update (f := fun m => { m with toTag := newTag }) fun _ => ⟨rfl, rfl, rfl, rfl, rfl⟩)
  | reap stale reason now =>
      exact grows_of_threads rfl rfl rfl (find_update_participants
        (f := fun t => t.reap reason now) (fun _ => rfl) fun _ => ⟨rfl, rfl⟩)
  | seed =>
      refine ⟨(Grows.refl s).messages, (Grows.refl s).threads, ?_, fun _ h => h⟩
      rintro id session ⟨d, hd, hkey⟩
      exact ⟨d, Table.mem_foldl_insertOrIgnore hd, hkey⟩
  | notify session id =>
      exact ⟨(Grows.refl s).messages, (Grows.refl s).threads, fun _ _ h => h,
        fun p hp => List.mem_append_left _ hp⟩
  | appendInbox session m =>
      exact ⟨(Grows.refl s).messages, (Grows.refl s).threads, fun _ _ h => h, fun _ h => h⟩
  | _ => exact .refl s

/-! ## What holds at all times -/

/-- The notification that an event is. -/
def shownOf : Event McpStmt.Answer → Option (String × String)
  | ⟨_, .notify session id, _⟩ => some (session, id)
  | _ => none

/-- Server `i` has inserted the message, and has answered its client since. -/
def SentBy (i : Nat) (id : String) : List (Event McpStmt.Answer) → Prop
  | [] => False
  | e :: earlier =>
      (e.task = i ∧ (∃ session, e.stmt = .respond session) ∧
        ∃ e' ∈ earlier, e'.task = i ∧ ∃ m, e'.stmt = .insertMessage m ∧ m.id = id) ∨
      SentBy i id earlier

/-- All that server `i` has inserted has its deliveries. -/
def AllFull (i : Nat) (w : McpWorld) : Prop :=
  ∀ e ∈ w.log, e.task = i → ∀ m, e.stmt = .insertMessage m → Full w.db m.id

/-- What holds of messages, deliveries, inbox files and notifications. -/
structure Sound (w : McpWorld) : Prop where
  /-- The addressee is one of those a message is for. -/
  addressee : ∀ m ∈ w.db.messages, IsFor w.db m m.toSession
  /-- A delivery is to one of those the message is for, and there is one to the addressee. -/
  recipient : ∀ d ∈ w.db.deliveries, ∃ m ∈ w.db.messages, m.id = d.messageId ∧
    IsFor w.db m d.session ∧ HasDelivery w.db m.id m.toSession
  /-- What is marked has been notified. -/
  marked : ∀ d ∈ w.db.deliveries, d.deliveredAt ≠ none → (d.session, d.messageId) ∈ w.db.shown
  /-- The legacy mark is set only once there is a delivery that it could seed. -/
  legacy : ∀ m ∈ w.db.messages, m.deliveredAt ≠ none → HasDelivery w.db m.id m.toSession
  /-- What is in an inbox file has all its deliveries in the database. -/
  line : ∀ session, ∀ l ∈ w.db.inbox session,
    Full w.db l.id ∧ l.toSession = session ∧ HasDelivery w.db l.id session
  seen : ∀ p ∈ w.db.shown, HasDelivery w.db p.2 p.1
  once : w.db.shown.Nodup
  told : w.db.shown = (w.log.filterMap shownOf).reverse
  answered : ∀ i id, SentBy i id w.log → Full w.db id

/-- **Step lemma, as a frame.** What a statement has to say for itself: where its messages,
deliveries, lines and notifications come from. -/
theorem Sound.of_exec {w : McpWorld} (h : Sound w) (i : Nat) (q : McpStmt)
    (hmessages : ∀ m' ∈ (w.exec i q).db.messages,
      (∃ m ∈ w.db.messages, m.Like m' ∧ (m'.deliveredAt ≠ none → m.deliveredAt = none →
        HasDelivery (w.exec i q).db m'.id m'.toSession)) ∨
      (m'.deliveredAt = none ∧ IsFor (w.exec i q).db m' m'.toSession))
    (hdeliveries : ∀ d' ∈ (w.exec i q).db.deliveries,
      (∃ d ∈ w.db.deliveries, d.messageId = d'.messageId ∧ d.session = d'.session ∧
        (d'.deliveredAt ≠ none → d.deliveredAt = none →
          (d'.session, d'.messageId) ∈ (w.exec i q).db.shown)) ∨
      (d'.deliveredAt = none ∧ ∃ m ∈ w.db.messages, m.id = d'.messageId ∧
        IsFor w.db m d'.session ∧ HasDelivery (w.exec i q).db m.id m.toSession))
    (hlines : ∀ session, ∀ l ∈ (w.exec i q).db.inbox session, l ∈ w.db.inbox session ∨
      (Full (w.exec i q).db l.id ∧ l.toSession = session ∧
        HasDelivery (w.exec i q).db l.id session))
    (hshown : (w.exec i q).db.shown = w.db.shown ++
      (shownOf ⟨i, q, (Database.exec (A := McpStmt.Answer) q w.db).1⟩).toList)
    (hnew : ∀ p, shownOf ⟨i, q, (Database.exec (A := McpStmt.Answer) q w.db).1⟩ = some p →
      p ∉ w.db.shown ∧ HasDelivery (w.exec i q).db p.2 p.1)
    (hanswers : ∀ session, q = .respond session → AllFull i w) : Sound (w.exec i q) := by
  have hgrows : Grows w.db (w.exec i q).db := grows_exec q w.db
  refine ⟨?_, ?_, ?_, ?_, ?_, ?_, ?_, ?_, ?_⟩
  · intro m' hm'
    rcases hmessages m' hm' with ⟨m, hm, hlike, -⟩ | ⟨-, hfor⟩
    · rw [hlike.toSession]
      exact (h.addressee m hm).grows hgrows hlike
    · exact hfor
  · intro d' hd'
    rcases hdeliveries d' hd' with ⟨d, hd, hid, hsession, -⟩ | ⟨-, m, hm, hid, hfor, hfirst⟩
    · obtain ⟨m, hm, hmid, hfor, hfirst⟩ := h.recipient d hd
      obtain ⟨m', hm', hlike⟩ := hgrows.messages m hm
      refine ⟨m', hm', hlike.id.trans (hmid.trans hid), ?_, ?_⟩
      · rw [← hsession]
        exact hfor.grows hgrows hlike
      · rw [hlike.id, hlike.toSession]
        exact hgrows.deliveries _ _ hfirst
    · obtain ⟨m', hm', hlike⟩ := hgrows.messages m hm
      refine ⟨m', hm', hlike.id.trans hid, hfor.grows hgrows hlike, ?_⟩
      rw [hlike.id, hlike.toSession]
      exact hfirst
  · intro d' hd' hmarked
    rcases hdeliveries d' hd' with ⟨d, hd, hid, hsession, hmark⟩ | ⟨hnone, -⟩
    · by_cases hnone : d.deliveredAt = none
      · exact hmark hmarked hnone
      · rw [← hid, ← hsession]
        exact hgrows.shown _ (h.marked d hd hnone)
    · exact absurd hnone hmarked
  · intro m' hm' hmarked
    rcases hmessages m' hm' with ⟨m, hm, hlike, hmark⟩ | ⟨hnone, -⟩
    · by_cases hnone : m.deliveredAt = none
      · exact hmark hmarked hnone
      · rw [hlike.id, hlike.toSession]
        exact hgrows.deliveries _ _ (h.legacy m hm hnone)
    · exact absurd hnone hmarked
  · intro session l hl
    rcases hlines session l hl with hl | hnew
    · obtain ⟨hfull, hto, hhas⟩ := h.line session l hl
      exact ⟨hfull.grows hgrows, hto, hgrows.deliveries _ _ hhas⟩
    · exact hnew
  · intro p hp
    rw [hshown] at hp
    rcases List.mem_append.mp hp with hp | hp
    · exact hgrows.deliveries _ _ (h.seen p hp)
    · exact (hnew p (Option.mem_toList.mp hp)).2
  · rw [hshown]
    refine h.once.append ?_ fun p hp hp' => ?_
    · cases shownOf ⟨i, q, (Database.exec (A := McpStmt.Answer) q w.db).1⟩ with
      | none => exact List.nodup_nil
      | some p => exact List.nodup_singleton p
    · exact (hnew p (Option.mem_toList.mp hp')).1 hp
  · rw [hshown, h.told, World.exec_log, List.filterMap_cons]
    cases shownOf ⟨i, q, (Database.exec (A := McpStmt.Answer) q w.db).1⟩ with
    | none => simp
    | some p => simp
  · rintro j id (⟨htask, ⟨session, hstmt⟩, e, he, hj, m, hm, hid⟩ | hsent)
    · have hall := hanswers session hstmt
      rw [← hid]
      exact (hall e he (hj.trans htask.symm) m hm).grows hgrows
    · exact (h.answered j id hsent).grows hgrows

/-! ## What a server may do -/

/-- The id is one that the server draws in the course of its actions. -/
def Server.Draws (s : Server) (id : String) : Prop :=
  ∃ (a : Nat) (act : Host × Action) (n : Nat), s.actions[a]? = some act ∧ act.1.fresh n = id

/-- What server `i` of a machine may do. -/
def Fit (s : Server) (i : Nat) (w : McpWorld) : McpStmt → Prop
  | .insertMessage m => (∃ m' ∈ w.db.messages, m'.id = m.id) ∨
      (s.Draws m.id ∧ m.deliveredAt = none ∧ IsFor w.db m m.toSession)
  | .insertDelivery id session => ∃ m ∈ w.db.messages, m.id = id ∧ IsFor w.db m session ∧
      (session = m.toSession ∨ HasDelivery w.db id m.toSession)
  | .appendInbox session m => Full w.db m.id ∧ m.toSession = session ∧ HasDelivery w.db m.id session
  | .upsertThread t => w.db.threads.find t.id ≠ none ∨ s.Draws t.id
  | .notify session id => session = s.me ∧ HasDelivery w.db id session ∧
      (session, id) ∉ w.db.shown
  | .markDelivery id session _ => session = s.me ∧ (session, id) ∈ w.db.shown
  | .markMessage id _ => ∃ session, HasDelivery w.db id session
  | .respond _ => AllFull i w
  | .decline _ _ _ | .rejectRoutings _ _ _ => False
  | _ => True

section Exec

variable {w : McpWorld} {i : Nat} {q : McpStmt}

theorem same_messages (h : (w.exec i q).db.messages = w.db.messages) :
    ∀ m' ∈ (w.exec i q).db.messages,
      (∃ m ∈ w.db.messages, m.Like m' ∧ (m'.deliveredAt ≠ none → m.deliveredAt = none →
        HasDelivery (w.exec i q).db m'.id m'.toSession)) ∨
      (m'.deliveredAt = none ∧ IsFor (w.exec i q).db m' m'.toSession) := by
  intro m' hm'
  rw [h] at hm'
  exact .inl ⟨m', hm', .refl m', fun hmarked hnone => absurd hnone hmarked⟩

theorem same_deliveries (h : (w.exec i q).db.deliveries = w.db.deliveries) :
    ∀ d' ∈ (w.exec i q).db.deliveries,
      (∃ d ∈ w.db.deliveries, d.messageId = d'.messageId ∧ d.session = d'.session ∧
        (d'.deliveredAt ≠ none → d.deliveredAt = none →
          (d'.session, d'.messageId) ∈ (w.exec i q).db.shown)) ∨
      (d'.deliveredAt = none ∧ ∃ m ∈ w.db.messages, m.id = d'.messageId ∧
        IsFor w.db m d'.session ∧ HasDelivery (w.exec i q).db m.id m.toSession) := by
  intro d' hd'
  rw [h] at hd'
  exact .inl ⟨d', hd', rfl, rfl, fun hmarked hnone => absurd hnone hmarked⟩

/-- A statement that changes neither of them, nor the inbox files, and tells nobody. -/
theorem Sound.frame (h : Sound w) (hmessages : (w.exec i q).db.messages = w.db.messages)
    (hdeliveries : (w.exec i q).db.deliveries = w.db.deliveries)
    (hinbox : (w.exec i q).db.inbox = w.db.inbox) (hshown : (w.exec i q).db.shown = w.db.shown)
    (htells : shownOf ⟨i, q, (Database.exec (A := McpStmt.Answer) q w.db).1⟩ = none)
    (hanswers : ∀ session, q = .respond session → AllFull i w) : Sound (w.exec i q) := by
  refine h.of_exec i q (same_messages hmessages) (same_deliveries hdeliveries)
    (fun session l hl => .inl (by rwa [hinbox] at hl)) ?_ (fun p hp => ?_) hanswers
  · rw [htells, hshown]
    exact (List.append_nil _).symm
  · rw [htells] at hp
    cases hp

/-- An update of messages. -/
theorem update_messages {p : Message → Bool} {f : Message → Message}
    (hlike : ∀ m : Message, m.Like (f m))
    (h : (w.exec i q).db.messages = w.db.messages.update p f fun m => (hlike m).id)
    (hmarks : ∀ m ∈ w.db.messages, p m = true → (f m).deliveredAt ≠ none → m.deliveredAt = none →
      HasDelivery (w.exec i q).db m.id m.toSession) :
    ∀ m' ∈ (w.exec i q).db.messages,
      (∃ m ∈ w.db.messages, m.Like m' ∧ (m'.deliveredAt ≠ none → m.deliveredAt = none →
        HasDelivery (w.exec i q).db m'.id m'.toSession)) ∨
      (m'.deliveredAt = none ∧ IsFor (w.exec i q).db m' m'.toSession) := by
  intro m' hm'
  rw [h] at hm'
  obtain ⟨m, hm, hrow⟩ := Table.mem_update.mp hm'
  refine .inl ⟨m, hm, ?_⟩
  by_cases hp : p m = true
  · rw [if_pos hp] at hrow
    subst hrow
    refine ⟨hlike m, fun hmarked hnone => ?_⟩
    rw [(hlike m).id, (hlike m).toSession]
    exact hmarks m hm hp hmarked hnone
  · rw [if_neg hp] at hrow
    subst hrow
    exact ⟨.refl m, fun hmarked hnone => absurd hnone hmarked⟩

/-- A poll takes what is not yet notified, as far as its limit allows. -/
theorem Sound.takes (h : Sound w) {id session : String} (hhas : HasDelivery w.db id session)
    (limit : Nat) : (session, id) ∈ w.db.shown ∨
      (∃ m ∈ w.db.pendingForSession session limit none, m.id = id) ∨
        limit ≤ (w.db.pendingForSession session limit none).length := by
  obtain ⟨d, hd, hid, hsession⟩ := hhas
  by_cases hmarked : d.deliveredAt = none
  · obtain ⟨m, hm, hmid, -⟩ := h.recipient d hd
    have hmem : m ∈ (w.db.undelivered session).filter fun m =>
        (none : Option (Option String)).all (m.toTag = ·) := by
      refine List.mem_filter.mpr ⟨McpStore.mem_undelivered.mpr ⟨d, hd, hsession, hmarked, ?_⟩, rfl⟩
      rw [← hmid]
      exact Table.find_key hm
    by_cases htake : m ∈ w.db.pendingForSession session limit none
    · exact .inr (.inl ⟨m, htake, hmid.trans hid⟩)
    · refine .inr (.inr ?_)
      unfold McpStore.pendingForSession at htake ⊢
      rw [List.length_take, le_min_iff]
      refine ⟨le_rfl, ?_⟩
      by_contra hshort
      rw [List.take_of_length_le (by omega)] at htake
      exact htake hmem
  · refine .inl ?_
    rw [← hid, ← hsession]
    exact h.marked d hd hmarked

/-- **Step lemma.** What a server may do keeps what holds at all times. -/
theorem Sound.exec (h : Sound w) {s : Server} (hfit : Fit s i w q) : Sound (w.exec i q) := by
  cases q with
  | insertMessage m₀ =>
      refine h.of_exec i _ (fun m' hm' => ?_) (same_deliveries rfl) (fun _ _ hl => .inl hl)
        (List.append_nil _).symm nofun nofun
      rcases Table.mem_insertOrIgnore.mp hm' with hm' | ⟨rfl, habsent⟩
      · exact .inl ⟨m', hm', .refl m', fun hmarked hnone => absurd hnone hmarked⟩
      · rcases hfit with ⟨m, hm, hid⟩ | ⟨-, hnone, hfor⟩
        · exact absurd hid (Table.find_eq_none_iff.mp habsent m hm)
        · exact .inr ⟨hnone, hfor.grows (grows_exec _ _) (.refl m')⟩
  | insertDelivery id session =>
      have hinserted : HasDelivery (w.exec i (.insertDelivery id session)).db id session :=
        HasDelivery.insert w.db ⟨id, session, none⟩
      refine h.of_exec i _ (same_messages rfl) (fun d' hd' => ?_) (fun _ _ hl => .inl hl)
        (List.append_nil _).symm nofun nofun
      rcases Table.mem_insertOrIgnore.mp hd' with hd' | ⟨rfl, -⟩
      · exact .inl ⟨d', hd', rfl, rfl, fun hmarked hnone => absurd hnone hmarked⟩
      · obtain ⟨m, hm, hid, hfor, hfirst⟩ := hfit
        refine .inr ⟨rfl, m, hm, hid, hfor, ?_⟩
        rw [hid]
        rcases hfirst with heq | hfirst
        · rw [← heq]
          exact hinserted
        · exact (grows_exec (.insertDelivery id session) w.db).deliveries _ _ hfirst
  | appendInbox session m =>
      refine h.of_exec i _ (same_messages rfl) (same_deliveries rfl) (fun session' l hl => ?_)
        (List.append_nil _).symm nofun nofun
      have hinbox : l ∈ if session' = session then w.db.inbox session' ++ [m]
        else w.db.inbox session' := hl
      split at hinbox
      · rename_i heq
        rcases List.mem_append.mp hinbox with hl | hl
        · exact .inl hl
        · cases List.mem_singleton.mp hl
          rw [heq]
          exact .inr hfit
      · exact .inl hinbox
  | notify session id =>
      refine h.of_exec i _ (same_messages rfl) (same_deliveries rfl) (fun _ _ hl => .inl hl) rfl
        (fun p hp => ?_) nofun
      cases hp
      exact ⟨hfit.2.2, hfit.2.1⟩
  | markDelivery id session now =>
      refine h.of_exec i _ (same_messages rfl) (fun d' hd' => ?_) (fun _ _ hl => .inl hl)
        (List.append_nil _).symm nofun nofun
      obtain ⟨d, hd, rfl⟩ := McpStore.mem_deliver.mp hd'
      refine .inl ⟨d, hd, ?_⟩
      split
      · rename_i hwhich
        simp only [Bool.and_eq_true, decide_eq_true_eq] at hwhich
        refine ⟨rfl, rfl, fun _ _ => ?_⟩
        rw [hwhich.1, hwhich.2]
        exact hfit.2
      · exact ⟨rfl, rfl, fun hmarked hnone => absurd hnone hmarked⟩
  | markMessage id now =>
      refine h.of_exec i _ (update_messages (f := fun m => { m with deliveredAt := some now })
        (fun _ => ⟨rfl, rfl, rfl, rfl, rfl⟩) rfl fun m hm hp _ _ => ?_) (same_deliveries rfl)
        (fun _ _ hl => .inl hl) (List.append_nil _).symm nofun nofun
      obtain ⟨session, d, hd, hid, -⟩ := hfit
      obtain ⟨m', hm', hid', -, hfirst⟩ := h.recipient d hd
      have hm_id : m.id = id := of_decide_eq_true hp
      cases Table.eq_of_key_eq hm' hm (hid'.trans (hid.trans hm_id.symm))
      exact hfirst
  | adoptMessages threadId session initiator newTag =>
      cases initiator with
      | true =>
          exact h.of_exec i _ (update_messages (f := fun m => { m with fromTag := newTag })
            (fun _ => ⟨rfl, rfl, rfl, rfl, rfl⟩) rfl fun m _ _ hmarked hnone =>
              absurd hnone hmarked) (same_deliveries rfl)
            (fun _ _ hl => .inl hl) (List.append_nil _).symm nofun nofun
      | false =>
          exact h.of_exec i _ (update_messages (f := fun m => { m with toTag := newTag })
            (fun _ => ⟨rfl, rfl, rfl, rfl, rfl⟩) rfl fun m _ _ hmarked hnone =>
              absurd hnone hmarked) (same_deliveries rfl)
            (fun _ _ hl => .inl hl) (List.append_nil _).symm nofun nofun
  | seed =>
      refine h.of_exec i _ (same_messages rfl) (fun d' hd' => ?_) (fun _ _ hl => .inl hl)
        (List.append_nil _).symm nofun nofun
      rcases Table.of_mem_foldl_insertOrIgnore hd' with hold | ⟨hseeded, habsent⟩
      · exact .inl ⟨d', hold, rfl, rfl, fun hmarked hnone => absurd hnone hmarked⟩
      · -- a delivery that is missing is of a message that nobody has been given
        obtain ⟨m, hm, rfl⟩ := List.mem_map.mp hseeded
        have hnone : m.deliveredAt = none := by
          by_contra hmarked
          obtain ⟨d, hd, hid, hsession⟩ := h.legacy m hm hmarked
          exact Table.find_eq_none_iff.mp habsent d hd (Prod.ext hid hsession)
        exact .inr ⟨hnone, m, hm, rfl, h.addressee m hm, ⟨m.seeded, hd', rfl, rfl⟩⟩
  | decline threadId session now => exact hfit.elim
  | rejectRoutings threadId session now => exact hfit.elim
  | respond session => exact h.frame rfl rfl rfl rfl rfl fun _ _ => hfit
  | _ => exact h.frame rfl rfl rfl rfl rfl nofun

end Exec

/-! ## What a server counts on -/

/-- What server `i` has to itself: the marks of its session's deliveries, the notifications of its
session, its own record of what it has inserted, and the ids that it draws. -/
structure Unmoved (s : Server) (i : Nat) (w w' : McpWorld) : Prop where
  deliveries : ∀ d ∈ w.db.deliveries, d.session = s.me → d ∈ w'.db.deliveries
  shown : ∀ id, (s.me, id) ∈ w'.db.shown → (s.me, id) ∈ w.db.shown
  inserted : ∀ e ∈ w'.log, e.task = i → ∀ m, e.stmt = .insertMessage m → e ∈ w.log
  messages : ∀ id, s.Draws id → (∀ m ∈ w.db.messages, m.id ≠ id) → ∀ m ∈ w'.db.messages, m.id ≠ id
  threads : ∀ id, s.Draws id → w.db.threads.find id = none → w'.db.threads.find id = none

theorem Unmoved.refl (s : Server) (i : Nat) (w : McpWorld) : Unmoved s i w w :=
  ⟨fun _ hd _ => hd, fun _ h => h, fun _ he _ _ _ => he, fun _ _ h => h, fun _ _ h => h⟩

theorem Unmoved.trans {s : Server} {i : Nat} {w w' w'' : McpWorld} (h : Unmoved s i w w')
    (h' : Unmoved s i w' w'') : Unmoved s i w w'' where
  deliveries := fun d hd hme => h'.deliveries d (h.deliveries d hd hme) hme
  shown := fun id hid => h.shown id (h'.shown id hid)
  inserted := fun e he htask m hm => h.inserted e (h'.inserted e he htask m hm) htask m hm
  messages := fun id hid hfresh => h'.messages id hid (h.messages id hid hfresh)
  threads := fun id hid hfresh => h'.threads id hid (h.threads id hid hfresh)

/-- A statement that leaves server `s` what it has to itself; `own` if it is one of its own. -/
def Spares (s : Server) (own : Prop) (w : McpWorld) : McpStmt → Prop
  | .insertMessage m => ¬ own ∧ ((∃ m' ∈ w.db.messages, m'.id = m.id) ∨ ¬ s.Draws m.id)
  | .upsertThread t => w.db.threads.find t.id ≠ none ∨ ¬ s.Draws t.id
  | .notify session _ => session ≠ s.me
  | .markDelivery _ session _ => session ≠ s.me
  | .decline _ _ _ | .rejectRoutings _ _ _ => False
  | _ => True

theorem unmoved_exec {s : Server} {i j : Nat} {w : McpWorld} {q : McpStmt}
    (h : Spares s (j = i) w q) : Unmoved s i w (w.exec j q) where
  deliveries := by
    intro d hd hme
    cases q with
    | insertDelivery id session => exact Table.mem_insertOrIgnore.mpr (.inl hd)
    | markDelivery id session now =>
        refine McpStore.mem_deliver.mpr ⟨d, hd, if_neg fun hwhich => ?_⟩
        simp only [Bool.and_eq_true, decide_eq_true_eq] at hwhich
        exact h (hwhich.2.symm.trans hme)
    | decline threadId session now => exact h.elim
    | rejectRoutings threadId session now => exact h.elim
    | seed => exact Table.mem_foldl_insertOrIgnore hd
    | _ => exact hd
  shown := by
    intro id hid
    cases q with
    | notify session id' =>
        rcases List.mem_append.mp hid with hid | hid
        · exact hid
        · cases List.mem_singleton.mp hid
          exact absurd rfl h
    | _ => exact hid
  inserted := by
    intro e he htask m hm
    rcases List.mem_cons.mp he with rfl | he
    · have hq : q = .insertMessage m := hm
      subst hq
      exact absurd htask h.1
    · exact he
  messages := by
    intro id hid hfresh m' hm'
    have hupdate : ∀ {p : Message → Bool} {f : Message → Message} (hf : ∀ m, (f m).id = m.id),
        m' ∈ w.db.messages.update p f hf → m'.id ≠ id := by
      intro p f hf hmem
      obtain ⟨m, hm, rfl⟩ := Table.mem_update.mp hmem
      split
      · rw [hf m]
        exact hfresh m hm
      · exact hfresh m hm
    cases q with
    | insertMessage m =>
        rcases Table.mem_insertOrIgnore.mp hm' with hm' | ⟨rfl, -⟩
        · exact hfresh m' hm'
        · rintro rfl
          rcases h.2 with ⟨m, hm, hid'⟩ | hforeign
          · exact hfresh m hm hid'
          · exact hforeign hid
    | markMessage id' now =>
        exact hupdate (f := fun m => { m with deliveredAt := some now }) (fun _ => rfl) hm'
    | adoptMessages threadId session initiator newTag =>
        cases initiator with
        | true => exact hupdate (f := fun m => { m with fromTag := newTag }) (fun _ => rfl) hm'
        | false => exact hupdate (f := fun m => { m with toTag := newTag }) (fun _ => rfl) hm'
    | _ => exact hfresh m' hm'
  threads := by
    intro id hid hfresh
    have hupdate : ∀ {p : Thread → Bool} {f : Thread → Thread} (hf : ∀ t, (f t).id = t.id),
        (w.db.threads.update p f hf).find id = none := by
      intro p f hf
      rw [Table.find_update, hfresh]
      rfl
    cases q with
    | upsertThread t =>
        change (w.db.upsertThread t).threads.find id = none
        unfold McpStore.upsertThread
        dsimp only
        split
        · rename_i habsent
          rw [Table.find_insertOrIgnore, hfresh, Option.none_or, if_neg]
          rintro rfl
          rcases h with hthere | hforeign
          · exact hthere habsent
          · exact hforeign hid
        · exact hupdate fun old => old.merge_id t
    | adoptThread threadId initiator newTag now => exact hupdate fun t => by split <;> rfl
    | reap stale reason now => exact hupdate (f := fun t => t.reap reason now) fun _ => rfl
    | _ => exact hfresh

/-- What one server may do leaves another one, with another name and other ids, what it has. -/
theorem Fit.spares {s s' : Server} {i : Nat} {w : McpWorld} {q : McpStmt} (h : Fit s' i w q)
    (hname : s'.me ≠ s.me) (hids : ∀ id, s'.Draws id → ¬ s.Draws id) : Spares s False w q := by
  cases q with
  | insertMessage m => exact ⟨not_false, h.imp_right fun hnew => hids _ hnew.1⟩
  | upsertThread t => exact h.imp_right fun hnew => hids _ hnew
  | notify session id => exact h.1 ▸ hname
  | markDelivery id session now => exact h.1 ▸ hname
  | decline threadId session now => exact h
  | rejectRoutings threadId session now => exact h
  | _ => trivial

/-- What the servers of a machine owe each other. -/
def service (ss : List Server) : Reliance McpStore McpStmt.Answer where
  inv := Sound
  rel := fun i w w' => Grows w.db w'.db ∧ ∀ s, ss[i]? = some s → Unmoved s i w w'
  refl := fun i w => ⟨.refl _, fun s _ => .refl s i w⟩
  trans := fun h h' => ⟨h.1.trans h'.1, fun s hs => (h.2 s hs).trans (h'.2 s hs)⟩

/-- The sessions have distinct names, and no two draws of an id give the same. -/
structure Distinct (ss : List Server) : Prop where
  names : (ss.map Server.me).Nodup
  ids : ∀ (i j a b n k : Nat) (s s' : Server) (act act' : Host × Action), ss[i]? = some s →
    ss[j]? = some s' → s.actions[a]? = some act → s'.actions[b]? = some act' →
      act.1.fresh n = act'.1.fresh k → i = j ∧ a = b ∧ n = k

theorem Distinct.name_ne {ss : List Server} (h : Distinct ss) {i j : Nat} {s s' : Server}
    (hs : ss[i]? = some s) (hs' : ss[j]? = some s') (hij : i ≠ j) : s.me ≠ s'.me := by
  intro heq
  refine hij ((List.getElem?_inj ?_ h.names).mp ?_)
  · rw [List.length_map]
    exact (List.getElem?_eq_some_iff.mp hs).1
  · rw [List.getElem?_map, List.getElem?_map, hs, hs', Option.map_some, Option.map_some, heq]

theorem Distinct.not_draws {ss : List Server} (h : Distinct ss) {i j : Nat} {s s' : Server}
    (hs : ss[i]? = some s) (hs' : ss[j]? = some s') (hij : i ≠ j) (id : String)
    (hid : s.Draws id) : ¬ s'.Draws id := by
  obtain ⟨a, act, n, hact, rfl⟩ := hid
  rintro ⟨b, act', k, hact', heq⟩
  exact hij (h.ids i j a b n k s s' act act' hs hs' hact hact' heq.symm).1

/-- **Step lemma.** What a server may do keeps what holds at all times, and what the others count
on. -/
theorem service_exec {ss : List Server} (hdistinct : Distinct ss) {i : Nat} {s : Server}
    (hs : ss[i]? = some s) {w : McpWorld} {q : McpStmt} (h : Sound w) (hfit : Fit s i w q) :
    (service ss).inv (w.exec i q) ∧ ∀ j, j ≠ i → (service ss).rel j w (w.exec i q) := by
  refine ⟨h.exec hfit, fun j hj => ⟨grows_exec q w.db, fun s' hs' => unmoved_exec ?_⟩⟩
  have hspares := hfit.spares (hdistinct.name_ne hs hs' (Ne.symm hj))
    (hdistinct.not_draws hs hs' (Ne.symm hj))
  cases q with
  | insertMessage m => exact ⟨fun hij => hj hij.symm, hspares.2⟩
  | _ => exact hspares

end EighthLayer.CrosstalkMcp
