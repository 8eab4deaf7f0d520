import EighthLayer.Crosstalk.Routes

/-!
# EighthLayer.Crosstalk.Inbox

The inbox of a user: the unread messages, the oldest first, which a fetch may mark as read.

A fetch selects the unread messages, and marks those that it has selected by a statement of its own. So
two fetches hand out one message exactly where the second one selects it before the first one has marked
it (`inbox_hands_out_once`).
-/

namespace EighthLayer.Crosstalk

open Lib

/-! ## The store -/

/-- `ORDER BY sent_at ASC`, which leaves open the order of messages sent at one time. -/
class SentOrder where
  arrange : List Message → List Message
  perm : ∀ ms, (arrange ms).Perm ms
  sorted : ∀ ms, (arrange ms).Pairwise fun m m' => m.sentAt ≤ m'.sentAt

/-- The tables, with the column `read_at` by the id of the message. -/
structure InboxStore where
  crosstalk : CrosstalkStore
  readAt : String → Option String
  read_mem : ∀ id, readAt id ≠ none → ∃ m ∈ crosstalk.messages, m.id = id

namespace InboxStore

/-- What the query for the inbox of a user goes through. -/
def unread (s : InboxStore) (username : String) (scope : Scope) : List Message :=
  s.crosstalk.messages.rows.filter fun m =>
    m.toUsername = some username && m.inScope scope && (s.readAt m.id).isNone

variable [SentOrder]

/-- The `SELECT` of `_crosstalk_inbox_for_user_sync`. -/
def selectUnread (s : InboxStore) (username : String) (scope : Scope) (limit : Nat) : List Message :=
  (SentOrder.arrange (s.unread username scope)).take limit

omit [SentOrder] in
theorem mem_unread {s : InboxStore} {username : String} {scope : Scope} {m : Message} :
    m ∈ s.unread username scope ↔ m ∈ s.crosstalk.messages ∧ m.toUsername = some username ∧
      m.inScope scope = true ∧ s.readAt m.id = none := by
  simp [unread, Table.mem_def, and_assoc]

/-- What is selected is unread. -/
theorem mem_of_selectUnread {s : InboxStore} {username : String} {scope : Scope} {limit : Nat}
    {m : Message} (h : m ∈ s.selectUnread username scope limit) :
    m ∈ s.crosstalk.messages ∧ m.toUsername = some username ∧ m.inScope scope = true ∧
      s.readAt m.id = none :=
  mem_unread.mp ((SentOrder.perm _).mem_iff.mp (List.mem_of_mem_take h))

/-- Something is selected if something is unread. -/
theorem selectUnread_ne_nil {s : InboxStore} {username : String} {scope : Scope} {limit : Nat}
    (hlimit : 0 < limit) {m : Message} (hm : m ∈ s.unread username scope) :
    s.selectUnread username scope limit ≠ [] := by
  intro hnil
  have hlength := congrArg List.length hnil
  have hpos : 0 < (s.unread username scope).length := List.length_pos_of_mem hm
  rw [selectUnread, List.length_take, (SentOrder.perm _).length_eq, List.length_nil] at hlength
  omega

/-- Its `UPDATE`. -/
def markRead (s : InboxStore) (ids : List String) (readAt : String) : InboxStore where
  crosstalk := s.crosstalk
  readAt id :=
    if id ∈ ids ∧ id ∈ s.crosstalk.messages.rows.map Message.id then some readAt else s.readAt id
  read_mem := by
    intro id h
    by_cases hid : id ∈ ids ∧ id ∈ s.crosstalk.messages.rows.map Message.id
    · exact List.mem_map.mp hid.2
    · rw [if_neg hid] at h
      exact s.read_mem id h

end InboxStore

/-! ## Statements -/

/-- The statements of a fetch, and those of the routes that send and close. -/
inductive InboxStmt where
  | crosstalk (q : CrosstalkStmt)
  | selectUnread (username : String) (scope : Scope) (limit : Nat)
  | markRead (ids : List String) (readAt : String)

/-- What a statement answers. -/
@[reducible] def InboxStmt.Answer : InboxStmt → Type
  | crosstalk q => q.Answer
  | selectUnread _ _ _ => List Message
  | markRead _ _ => Unit

section
variable [SentOrder]

def InboxStmt.exec : (q : InboxStmt) → InboxStore → q.Answer × InboxStore
  | crosstalk q, s => ((q.exec s.crosstalk).1,
      { crosstalk := (q.exec s.crosstalk).2
        readAt := s.readAt
        read_mem := fun id h =>
          let ⟨m, hm, hid⟩ := s.read_mem id h
          ⟨m, (CrosstalkStmt.grows_exec q s.crosstalk).messages m hm, hid⟩ })
  | selectUnread username scope limit, s => (s.selectUnread username scope limit, s)
  | markRead ids readAt, s => ((), s.markRead ids readAt)

instance : Database InboxStore InboxStmt.Answer := ⟨InboxStmt.exec⟩

end

abbrev InboxWorld : Type := World InboxStore InboxStmt.Answer

/-! ## Calls -/

/-- How a call ends. -/
inductive InboxAnswer where
  | items (rows : List Message)
  | refused (r : CrosstalkRefusal)
  | crosstalk (r : CrosstalkResponse)

abbrev InboxProg : Type := Prog InboxStmt.Answer InboxAnswer

/-- `_LIMIT_MAX`. -/
def limitMax : Nat := 200

/-- The parameters of a fetch, as validated, with the user it has been authenticated as. -/
structure InboxFetch where
  username : String
  limit : Nat
  markRead : Bool
  limit_pos : 0 < limit
  limit_le : limit ≤ limitMax

/-- `inbox`, from the rows on. -/
def afterSelect (site : Site) (f : InboxFetch) (rows : List Message) : InboxProg :=
  if f.markRead && !rows.isEmpty then
    .call (.markRead (rows.map Message.id) site.now) fun _ => .done (.items rows)
  else .done (.items rows)

/-- `inbox`. -/
def inbox (site : Site) (f : InboxFetch) : InboxProg :=
  match resolveCaller site f.username with
  | .error e => .done (.refused e)
  | .ok caller =>
    .call (.selectUnread f.username (readScope site caller) f.limit) fun (rows : List Message) =>
      afterSelect site f rows

/-- A route that sends or closes. -/
def embed : RouteProg → InboxProg
  | .done r => .done (.crosstalk r)
  | .call q k => .call (.crosstalk q) fun a => embed (k a)

/-- A request at the L2. -/
inductive InboxCall where
  | crosstalk (call : CrosstalkCall)
  | fetch (f : InboxFetch)

def InboxCall.prog (site : Site) : InboxCall → InboxProg
  | crosstalk call => embed (call.prog site)
  | fetch f => inbox site f

/-- The programs of a pool of requests. -/
def inboxProgs (calls : List (Site × InboxCall)) : List InboxProg := calls.map fun p => p.2.prog p.1

/-- A fetch that marks what it returns. -/
def Marks (calls : List (Site × InboxCall)) (i : Nat) : Prop :=
  ∃ site f, calls[i]? = some (site, .fetch f) ∧ f.markRead = true

/-! ## What has been executed -/

/-- The rows that a fetch has selected. -/
def selectedBy : Event InboxStmt.Answer → Option (List Message)
  | ⟨_, .selectUnread _ _ _, rows⟩ => some rows
  | _ => none

/-- The ids that a fetch has marked. -/
def markedBy : Event InboxStmt.Answer → List String
  | ⟨_, .markRead ids _, _⟩ => ids
  | _ => []

/-- A marking fetch selects no message that another one has selected and not marked yet. -/
def Unclaimed [SentOrder] (calls : List (Site × InboxCall)) (i : Nat) (q : InboxStmt)
    (w : InboxWorld) : Prop :=
  match q with
  | .selectUnread username scope limit =>
    Marks calls i → ∀ m ∈ w.db.selectUnread username scope limit,
      ∀ e ∈ w.log, ∀ rows, selectedBy e = some rows → Marks calls e.task → m ∈ rows →
        ∃ e' ∈ w.log, e'.task = e.task ∧ m.id ∈ markedBy e'
  | _ => True

/-! ### Courses -/

/-- How far a request has come: what it has executed, the latest first, and what is left of it. -/
def Course (call : Site × InboxCall) (i : Nat) (past : List (Event InboxStmt.Answer))
    (p : InboxProg) : Prop :=
  match call with
  | (_, .crosstalk _) =>
    (∀ e ∈ past, selectedBy e = none ∧ markedBy e = []) ∧ (∀ rows, p ≠ .done (.items rows)) ∧
      ∀ q k, p = .call q k → ∃ q', q = .crosstalk q'
  | (site, .fetch f) =>
    (past = [] ∧ p = inbox site f) ∨
    ∃ caller rows, resolveCaller site f.username = .ok caller ∧
      ((past = [⟨i, .selectUnread f.username (readScope site caller) f.limit, rows⟩] ∧
          p = afterSelect site f rows) ∨
        (f.markRead = true ∧
          past = [⟨i, .markRead (rows.map Message.id) site.now, ()⟩,
            ⟨i, .selectUnread f.username (readScope site caller) f.limit, rows⟩] ∧
          p = .done (.items rows)))

theorem always_embed (site : Site) (call : CrosstalkCall) (i : Nat) (p : RouteProg)
    (past : List (Event InboxStmt.Answer)) (h : ∀ e ∈ past, selectedBy e = none ∧ markedBy e = []) :
    (embed p).Always (Course (site, .crosstalk call) i) i past := by
  induction p generalizing past with
  | done r => exact .done ⟨h, fun rows => by simp, fun q k heq => by cases heq⟩
  | call q k ih =>
    refine .call ⟨h, fun rows heq => (by cases heq), fun q' k' heq => ?_⟩ fun a => ?_
    · exact ⟨q, ((Prog.call.injEq _ _ _ _).mp heq).1.symm⟩
    · refine ih a _ fun e he => ?_
      rcases List.mem_cons.mp he with rfl | he
      · exact ⟨rfl, rfl⟩
      · exact h e he

theorem always_inbox (site : Site) (f : InboxFetch) (i : Nat) :
    (inbox site f).Always (Course (site, .fetch f) i) i [] := by
  have hstart : Course (site, .fetch f) i [] (inbox site f) := .inl ⟨rfl, rfl⟩
  unfold inbox at hstart ⊢
  cases hcaller : resolveCaller site f.username with
  | error e =>
    rw [hcaller] at hstart
    exact .done hstart
  | ok caller =>
    rw [hcaller] at hstart
    refine .call hstart fun (rows : List Message) => ?_
    have hselected : Course (site, .fetch f) i
        [⟨i, .selectUnread f.username (readScope site caller) f.limit, rows⟩]
        (afterSelect site f rows) := .inr ⟨caller, rows, hcaller, .inl ⟨rfl, rfl⟩⟩
    unfold afterSelect at hselected ⊢
    by_cases hmark : (f.markRead && !rows.isEmpty) = true
    · rw [if_pos hmark] at hselected ⊢
      have hf : f.markRead = true := (Bool.and_eq_true_iff.mp hmark).1
      exact .call hselected fun _ =>
        .done (.inr ⟨caller, rows, hcaller, .inr ⟨hf, rfl, rfl⟩⟩)
    · rw [if_neg hmark] at hselected ⊢
      exact .done hselected

/-- What a request of a pool does. -/
def PoolCourse (calls : List (Site × InboxCall)) (i : Nat) (past : List (Event InboxStmt.Answer))
    (p : InboxProg) : Prop := ∃ call, calls[i]? = some call ∧ Course call i past p

theorem always_pool {calls : List (Site × InboxCall)} {s : InboxStore} (i : Nat) (p : InboxProg)
    (hp : (Config.start s (inboxProgs calls)).tasks[i]? = some p) :
    p.Always (PoolCourse calls i) i ((Config.start s (inboxProgs calls)).world.own i) := by
  change (inboxProgs calls)[i]? = some p at hp
  change p.Always _ i []
  rw [inboxProgs, List.getElem?_map, Option.map_eq_some_iff] at hp
  obtain ⟨⟨site, call⟩, hcall, rfl⟩ := hp
  have hone : ∀ past p, Course (site, call) i past p → PoolCourse calls i past p :=
    fun _ _ h => ⟨_, hcall, h⟩
  cases call with
  | crosstalk call =>
    exact (always_embed site call i _ [] fun _ h => absurd h List.not_mem_nil).imp hone
  | fetch f => exact (always_inbox site f i).imp hone

section
variable {calls : List (Site × InboxCall)} {i : Nat} {past : List (Event InboxStmt.Answer)}
  {call : Site × InboxCall} {p : InboxProg}

/-- A fetch that is about to select has executed nothing. -/
theorem Course.at_select {username : String} {scope : Scope} {limit : Nat}
    {k : List Message → InboxProg} (h : Course call i past (.call (.selectUnread username scope limit) k)) :
    past = [] := by
  obtain ⟨site, call⟩ := call
  cases call with
  | crosstalk call =>
    obtain ⟨q', heq⟩ := h.2.2 _ _ rfl
    cases heq
  | fetch f =>
    rcases h with ⟨hpast, -⟩ | ⟨caller, rows, -, ⟨-, hp⟩ | ⟨-, -, hp⟩⟩
    · exact hpast
    · unfold afterSelect at hp
      by_cases hmark : (f.markRead && !rows.isEmpty) = true
      · rw [if_pos hmark] at hp
        cases ((Prog.call.injEq _ _ _ _).mp hp).1
      · rw [if_neg hmark] at hp
        cases hp
    · cases hp

/-- A fetch that is about to mark has selected what it marks. -/
theorem Course.at_mark {ids : List String} {readAt : String} {k : Unit → InboxProg}
    (h : Course call i past (.call (.markRead ids readAt) k)) :
    ∃ site f rows, call = (site, .fetch f) ∧ f.markRead = true ∧ ids = rows.map Message.id ∧
      ∃ e ∈ past, selectedBy e = some rows := by
  obtain ⟨site, call⟩ := call
  cases call with
  | crosstalk call =>
    obtain ⟨q', heq⟩ := h.2.2 _ _ rfl
    cases heq
  | fetch f =>
    rcases h with ⟨-, hp⟩ | ⟨caller, rows, -, ⟨hpast, hp⟩ | ⟨-, -, hp⟩⟩
    · unfold inbox at hp
      cases hcaller : resolveCaller site f.username with
      | error e =>
        rw [hcaller] at hp
        cases hp
      | ok caller =>
        rw [hcaller] at hp
        cases ((Prog.call.injEq _ _ _ _).mp hp).1
    · unfold afterSelect at hp
      by_cases hmark : (f.markRead && !rows.isEmpty) = true
      · rw [if_pos hmark] at hp
        obtain ⟨rfl, -⟩ := InboxStmt.markRead.inj ((Prog.call.injEq _ _ _ _).mp hp).1
        exact ⟨site, f, rows, rfl, (Bool.and_eq_true_iff.mp hmark).1, rfl, _,
          hpast ▸ List.mem_singleton_self _, rfl⟩
      · rw [if_neg hmark] at hp
        cases hp
    · cases hp

/-- A fetch returns what it has selected. -/
theorem Course.at_items {rows : List Message} (h : Course call i past (.done (.items rows))) :
    ∃ site f caller, call = (site, .fetch f) ∧ resolveCaller site f.username = .ok caller ∧
      ⟨i, .selectUnread f.username (readScope site caller) f.limit, rows⟩ ∈ past := by
  obtain ⟨site, call⟩ := call
  cases call with
  | crosstalk call => exact absurd rfl (h.2.1 rows)
  | fetch f =>
    rcases h with ⟨-, hp⟩ | ⟨caller, rows', hcaller, ⟨hpast, hp⟩ | ⟨-, hpast, hp⟩⟩
    · unfold inbox at hp
      cases hcaller : resolveCaller site f.username with
      | error e =>
        rw [hcaller] at hp
        cases hp
      | ok caller =>
        rw [hcaller] at hp
        cases hp
    · unfold afterSelect at hp
      by_cases hmark : (f.markRead && !rows'.isEmpty) = true
      · rw [if_pos hmark] at hp
        cases hp
      · rw [if_neg hmark] at hp
        cases hp
        exact ⟨site, f, caller, rfl, hcaller, hpast ▸ List.mem_singleton_self _⟩
    · cases hp
      rw [hpast]
      exact ⟨site, f, caller, rfl, hcaller, List.mem_cons_of_mem _ List.mem_cons_self⟩

/-- A fetch that has marked messages returns them, and has ended. -/
theorem Course.of_marked (h : Course call i past p) {e : Event InboxStmt.Answer} (he : e ∈ past)
    {id : String} (hid : id ∈ markedBy e) :
    ∃ site f rows, call = (site, .fetch f) ∧ f.markRead = true ∧ p = .done (.items rows) ∧
      id ∈ rows.map Message.id := by
  obtain ⟨site, call⟩ := call
  cases call with
  | crosstalk call =>
    rw [(h.1 e he).2] at hid
    exact absurd hid List.not_mem_nil
  | fetch f =>
    rcases h with ⟨hpast, -⟩ | ⟨caller, rows, -, ⟨hpast, -⟩ | ⟨hf, hpast, hp⟩⟩
    · rw [hpast] at he
      exact absurd he List.not_mem_nil
    · rw [hpast] at he
      obtain rfl := List.mem_singleton.mp he
      exact absurd hid List.not_mem_nil
    · rw [hpast] at he
      rcases List.mem_cons.mp he with rfl | he
      · exact ⟨site, f, rows, rfl, hf, hp, hid⟩
      · obtain rfl := List.mem_singleton.mp he
        exact absurd hid List.not_mem_nil

end

/-! ## Runs -/

section
variable [SentOrder] {calls : List (Site × InboxCall)}

/-- What holds of the world at all times. -/
structure InboxSound (calls : List (Site × InboxCall)) (s : InboxStore) (w : InboxWorld) : Prop where
  /-- What has been selected is there. -/
  selected : ∀ e ∈ w.log, ∀ rows, selectedBy e = some rows → ∀ m ∈ rows, m ∈ w.db.crosstalk.messages
  /-- What has been marked is read. -/
  marked : ∀ e ∈ w.log, ∀ id ∈ markedBy e, w.db.readAt id ≠ none
  /-- What is read has been marked, or was read at the start. -/
  traced : ∀ id, w.db.readAt id ≠ none → s.readAt id = none → ∃ e ∈ w.log, id ∈ markedBy e
  /-- No two marking fetches have selected one message. -/
  once : ∀ e ∈ w.log, ∀ e' ∈ w.log, e.task ≠ e'.task → Marks calls e.task → Marks calls e'.task →
    ∀ rows rows', selectedBy e = some rows → selectedBy e' = some rows' → ∀ m ∈ rows, m ∉ rows'

omit [SentOrder] in
theorem inboxSound_start (s : InboxStore) : InboxSound calls s ⟨s, []⟩ where
  selected := fun _ he => absurd he List.not_mem_nil
  marked := fun _ he => absurd he List.not_mem_nil
  traced := fun _ h h' => absurd h' h
  once := fun _ he => absurd he List.not_mem_nil

variable {s : InboxStore} {w : InboxWorld}

/-- A statement of a route that sends or closes. -/
theorem InboxSound.crosstalk (h : InboxSound calls s w) (i : Nat) (q : CrosstalkStmt) :
    InboxSound calls s (w.exec i (.crosstalk q)) := by
  have hold : ∀ e ∈ (w.exec i (.crosstalk q)).log, e ∈ w.log ∨
      (selectedBy e = none ∧ markedBy e = []) := by
    intro e he
    rcases List.mem_cons.mp he with rfl | he
    · exact .inr ⟨rfl, rfl⟩
    · exact .inl he
  constructor
  · intro e he rows hrows m hm
    rcases hold e he with he | ⟨hnone, -⟩
    · exact (CrosstalkStmt.grows_exec q w.db.crosstalk).messages m (h.selected e he rows hrows m hm)
    · exact absurd (hnone.symm.trans hrows) (by simp)
  · intro e he id hid
    rcases hold e he with he | ⟨-, hnil⟩
    · exact h.marked e he id hid
    · exact absurd (hnil ▸ hid) List.not_mem_nil
  · intro id hread hstart
    obtain ⟨e, he, hid⟩ := h.traced id hread hstart
    exact ⟨e, .tail _ he, hid⟩
  · intro e he e' he' hne hm hm' rows rows' hrows hrows'
    rcases hold e he with he | ⟨hnone, -⟩
    · rcases hold e' he' with he' | ⟨hnone, -⟩
      · exact h.once e he e' he' hne hm hm' rows rows' hrows hrows'
      · exact absurd (hnone.symm.trans hrows') (by simp)
    · exact absurd (hnone.symm.trans hrows) (by simp)

/-- A marking fetch that selects what is unclaimed. -/
theorem InboxSound.select (h : InboxSound calls s w) {i : Nat} {username : String} {scope : Scope} {limit : Nat}
    (hok : Unclaimed calls i (.selectUnread username scope limit) w) :
    InboxSound calls s (w.exec i (.selectUnread username scope limit)) := by
  -- what another one has selected and is selected again has been marked, and is not unread
  have hfresh : Marks calls i → ∀ e ∈ w.log, Marks calls e.task → ∀ rows, selectedBy e = some rows →
      ∀ m ∈ rows, m ∉ w.db.selectUnread username scope limit := by
    intro hi e he hmarks rows hrows m hm hagain
    obtain ⟨e', he', -, hid⟩ := hok hi m hagain e he rows hrows hmarks hm
    exact h.marked e' he' m.id hid (InboxStore.mem_of_selectUnread hagain).2.2.2
  constructor
  · intro e he rows hrows m hm
    rcases List.mem_cons.mp he with rfl | he
    · obtain rfl := Option.some.inj hrows
      exact (InboxStore.mem_of_selectUnread hm).1
    · exact h.selected e he rows hrows m hm
  · intro e he id hid
    rcases List.mem_cons.mp he with rfl | he
    · exact absurd hid List.not_mem_nil
    · exact h.marked e he id hid
  · intro id hread hstart
    obtain ⟨e, he, hid⟩ := h.traced id hread hstart
    exact ⟨e, .tail _ he, hid⟩
  · intro e he e' he' hne hm hm' rows rows' hrows hrows' m hmem hmem'
    rcases List.mem_cons.mp he with rfl | he
    · obtain rfl := Option.some.inj hrows
      rcases List.mem_cons.mp he' with rfl | he'
      · exact hne rfl
      · exact hfresh hm e' he' hm' rows' hrows' m hmem' hmem
    · rcases List.mem_cons.mp he' with rfl | he'
      · obtain rfl := Option.some.inj hrows'
        exact hfresh hm' e he hm rows hrows m hmem hmem'
      · exact h.once e he e' he' hne hm hm' rows rows' hrows hrows' m hmem hmem'

/-- A fetch that marks what it has selected. -/
theorem InboxSound.mark (h : InboxSound calls s w) {i : Nat} {rows : List Message} (readAt : String)
    (hselected : ∃ e ∈ w.log, selectedBy e = some rows) :
    InboxSound calls s (w.exec i (.markRead (rows.map Message.id) readAt)) := by
  obtain ⟨e₀, he₀, hrows₀⟩ := hselected
  have hread : ∀ id, (w.db.markRead (rows.map Message.id) readAt).readAt id =
      if id ∈ rows.map Message.id ∧ id ∈ w.db.crosstalk.messages.rows.map Message.id then some readAt
      else w.db.readAt id := fun _ => rfl
  constructor
  · intro e he rows' hrows' m hm
    rcases List.mem_cons.mp he with rfl | he
    · exact absurd hrows' (by simp [selectedBy])
    · exact h.selected e he rows' hrows' m hm
  · intro e he id hid
    change (w.db.markRead (rows.map Message.id) readAt).readAt id ≠ none
    rw [hread]
    rcases List.mem_cons.mp he with rfl | he
    · obtain ⟨m, hm, rfl⟩ := List.mem_map.mp hid
      rw [if_pos ⟨hid, List.mem_map_of_mem (h.selected e₀ he₀ rows hrows₀ m hm)⟩]
      exact Option.some_ne_none readAt
    · split
      · exact Option.some_ne_none readAt
      · exact h.marked e he id hid
  · intro id hafter hstart
    change (w.db.markRead (rows.map Message.id) readAt).readAt id ≠ none at hafter
    rw [hread] at hafter
    by_cases hid : id ∈ rows.map Message.id ∧ id ∈ w.db.crosstalk.messages.rows.map Message.id
    · exact ⟨_, List.mem_cons_self, hid.1⟩
    · rw [if_neg hid] at hafter
      obtain ⟨e, he, hmem⟩ := h.traced id hafter hstart
      exact ⟨e, .tail _ he, hmem⟩
  · intro e he e' he' hne hm hm' rows₁ rows₂ hrows₁ hrows₂
    rcases List.mem_cons.mp he with rfl | he
    · exact absurd hrows₁ (by simp [selectedBy])
    · rcases List.mem_cons.mp he' with rfl | he'
      · exact absurd hrows₂ (by simp [selectedBy])
      · exact h.once e he e' he' hne hm hm' rows₁ rows₂ hrows₁ hrows₂

/-- **The run lemma.** Where what is selected is unclaimed, the world stays sound. -/
theorem inboxSound_run (s : InboxStore) (schedule : List Nat)
    (hmeets : (Config.start s (inboxProgs calls)).Meets (Config.NextIn (Unclaimed calls)) schedule) :
    InboxSound calls s ((Config.start s (inboxProgs calls)).run schedule).world := by
  refine Config.run_guarded (T := PoolCourse calls) ?_ (inboxSound_start s) always_pool hmeets
  intro c i q k h htask hcourse hok
  cases q with
  | crosstalk q => exact h.crosstalk i q
  | selectUnread username scope limit => exact h.select (hok.ok htask)
  | markRead ids readAt =>
    obtain ⟨call, -, hcall⟩ := hcourse
    obtain ⟨site, f, rows, -, -, rfl, e, he, hrows⟩ := hcall.at_mark
    exact h.mark readAt ⟨e, (World.mem_own.mp he).1, hrows⟩

/-- What each request has done and what is left of it, at any time. -/
theorem course_run (s : InboxStore) (schedule : List Nat) {i : Nat} {p : InboxProg}
    (hp : ((Config.start s (inboxProgs calls)).run schedule).tasks[i]? = some p) :
    PoolCourse calls i (((Config.start s (inboxProgs calls)).run schedule).world.own i) p := by
  have hlen : i < (Config.start s (inboxProgs calls)).tasks.length := by
    rw [← Config.run_length _ schedule]
    exact (List.getElem?_eq_some_iff.mp hp).1
  have hstart := List.getElem?_eq_getElem hlen
  obtain ⟨p', hp', halways⟩ := Config.run_always hstart (always_pool i _ hstart) schedule
  cases hp.symm.trans hp'
  exact halways.now

/-- What a fetch returns it has selected. -/
theorem selected_of_items {s : InboxStore} {schedule : List Nat} {i : Nat} {rows : List Message}
    (h : ((Config.start s (inboxProgs calls)).run schedule).Answered i (.items rows)) :
    ∃ site f caller, calls[i]? = some (site, .fetch f) ∧ resolveCaller site f.username = .ok caller ∧
      ⟨i, .selectUnread f.username (readScope site caller) f.limit, rows⟩ ∈
        ((Config.start s (inboxProgs calls)).run schedule).world.log := by
  obtain ⟨call, hcalls, hcall⟩ := course_run s schedule h
  obtain ⟨site, f, caller, rfl, hcaller, he⟩ := hcall.at_items
  exact ⟨site, f, caller, hcalls, hcaller, (World.mem_own.mp he).1⟩

/-! ### What is handed out -/

/-- What is promised of the fetches: no two that mark return one message, what is read has been marked, and
what has been marked is returned by the fetch that has marked it. -/
structure HandsOutOnce (calls : List (Site × InboxCall)) (s : InboxStore)
    (c : Config InboxStore InboxStmt.Answer InboxAnswer) : Prop where
  once : ∀ i j rows rows', i ≠ j → Marks calls i → Marks calls j → c.Answered i (.items rows) →
    c.Answered j (.items rows') → ∀ m ∈ rows, ∀ m' ∈ rows', m.id ≠ m'.id
  read : ∀ id, c.world.db.readAt id ≠ none → s.readAt id = none → ∃ e ∈ c.world.log, id ∈ markedBy e
  marked : ∀ e ∈ c.world.log, ∀ id ∈ markedBy e, Marks calls e.task ∧
    ∃ rows, c.Answered e.task (.items rows) ∧ id ∈ rows.map Message.id

theorem handsOutOnce (s : InboxStore) (schedule : List Nat)
    (hmeets : (Config.start s (inboxProgs calls)).Meets (Config.NextIn (Unclaimed calls)) schedule) :
    HandsOutOnce calls s ((Config.start s (inboxProgs calls)).run schedule) := by
  have hsound := inboxSound_run s schedule hmeets
  constructor
  · intro i j rows rows' hne hi hj ha ha' m hm m' hm' hid
    obtain ⟨_, _, _, -, -, he⟩ := selected_of_items ha
    obtain ⟨_, _, _, -, -, he'⟩ := selected_of_items ha'
    have hsame : m = m' := Table.eq_of_key_eq (hsound.selected _ he rows rfl m hm)
      (hsound.selected _ he' rows' rfl m' hm') hid
    exact hsound.once _ he _ he' hne hi hj rows rows' rfl rfl m hm (hsame ▸ hm')
  · exact hsound.traced
  · intro e he id hid
    have hlt := Config.task_lt_of_mem_log (c := Config.start s (inboxProgs calls))
      (fun e he => absurd he List.not_mem_nil) schedule e he
    rw [← Config.run_length _ schedule] at hlt
    have htask := List.getElem?_eq_getElem hlt
    obtain ⟨call, hcalls, hcall⟩ := course_run s schedule htask
    obtain ⟨site, f, rows, rfl, hf, hp, hmem⟩ := hcall.of_marked (World.mem_own.mpr ⟨he, rfl⟩) hid
    exact ⟨⟨site, f, hcalls, hf⟩, rows, htask.trans (congrArg some hp), hmem⟩

/-! ### That everything is handed out -/

/-- A marking fetch of the addressee of a message that has not begun. -/
def Follows (calls : List (Site × InboxCall)) (c : Config InboxStore InboxStmt.Answer InboxAnswer)
    (m : Message) (j : Nat) : Prop :=
  c.world.own j = [] ∧ ∃ site f caller, calls[j]? = some (site, .fetch f) ∧ f.markRead = true ∧
    m.toUsername = some f.username ∧ resolveCaller site f.username = .ok caller ∧
    m.inScope (readScope site caller) = true

/-- What is selected while a message is unread is of one addressee, and is something. -/
structure SelectsSome (m : Message) (js : List Nat) (w : InboxWorld) : Prop where
  there : m ∈ w.db.crosstalk.messages
  selects : ∀ j ∈ js, ∀ username scope limit rows,
    ⟨j, .selectUnread username scope limit, rows⟩ ∈ w.log →
      (∀ x ∈ rows, x.toUsername = some username) ∧
        (m.toUsername = some username → m.inScope scope = true → 0 < limit →
          w.db.readAt m.id = none → rows ≠ [])

theorem SelectsSome.exec {m : Message} {js : List Nat} {w : InboxWorld} (i : Nat) (q : InboxStmt)
    (h : SelectsSome m js w) : SelectsSome m js (w.exec i q) := by
  have hback : (w.exec i q).db.readAt m.id = none → w.db.readAt m.id = none := by
    cases q with
    | crosstalk q => exact id
    | selectUnread username scope limit => exact id
    | markRead ids readAt =>
      intro hnone
      change (w.db.markRead ids readAt).readAt m.id = none at hnone
      unfold InboxStore.markRead at hnone
      dsimp only at hnone
      split at hnone
      · exact absurd hnone (Option.some_ne_none readAt)
      · exact hnone
  constructor
  · cases q with
    | crosstalk q => exact (CrosstalkStmt.grows_exec q w.db.crosstalk).messages m h.there
    | selectUnread username scope limit => exact h.there
    | markRead ids readAt => exact h.there
  · intro j hj username scope limit rows he
    rcases World.mem_exec_log.mp he with he | ⟨-, rfl, rfl⟩
    · obtain ⟨hto, hne⟩ := h.selects j hj username scope limit rows he
      exact ⟨hto, fun husername hscope hpos hnone => hne husername hscope hpos (hback hnone)⟩
    · refine ⟨fun x hx => (InboxStore.mem_of_selectUnread hx).2.1, ?_⟩
      intro husername hscope hpos hnone
      exact InboxStore.selectUnread_ne_nil hpos
        (InboxStore.mem_unread.mpr ⟨h.there, husername, hscope, hback hnone⟩)

/-- **A message is handed out** once as many marking fetches have followed it as its addressee has messages.
Each of them that does not return it returns another one, and no two return the same. -/
theorem exists_returned (s : InboxStore) (before after : List Nat)
    (hmeets : (Config.start s (inboxProgs calls)).Meets (Config.NextIn (Unclaimed calls))
      (before ++ after))
    {m : Message} {user : String} (huser : m.toUsername = some user) (hunread : s.readAt m.id = none)
    (hm : m ∈ ((Config.start s (inboxProgs calls)).run before).world.db.crosstalk.messages)
    {js : List Nat} (hjs : js.Nodup)
    (hfollow : ∀ j ∈ js, Follows calls ((Config.start s (inboxProgs calls)).run before) m j ∧
      ∃ rows, ((Config.start s (inboxProgs calls)).run (before ++ after)).Answered j (.items rows))
    (henough : ((Config.start s (inboxProgs calls)).run
        (before ++ after)).world.db.crosstalk.messages.rows.countP
      (fun x => x.toUsername = some user) ≤ js.length) :
    ∃ i rows, Marks calls i ∧
      ((Config.start s (inboxProgs calls)).run (before ++ after)).Answered i (.items rows) ∧
        m ∈ rows := by
  by_contra hnot
  have hout := handsOutOnce s _ hmeets
  have hsound := inboxSound_run s _ hmeets
  have hselected := @selected_of_items _ calls s (before ++ after)
  rw [Config.run_append] at hnot hfollow henough hout hsound hselected
  generalize hc : (Config.start s (inboxProgs calls)).run before = c at *
  -- what is selected by those that follow
  have hselects : SelectsSome m js (c.run after).world := by
    refine Config.run_world (fun w i q h => h.exec i q) ⟨hm, ?_⟩ after
    intro j hj username scope limit rows he
    have hown : (⟨j, .selectUnread username scope limit, rows⟩ : Event InboxStmt.Answer) ∈
        c.world.own j := World.mem_own.mpr ⟨he, rfl⟩
    rw [(hfollow j hj).1.1] at hown
    exact absurd hown List.not_mem_nil
  -- the message stays unread, as it has not been returned
  have hstays : (c.run after).world.db.readAt m.id = none := by
    by_contra hread
    obtain ⟨e, he, hid⟩ := hout.read m.id hread hunread
    obtain ⟨hmarks, rows, ha, hmem⟩ := hout.marked e he m.id hid
    obtain ⟨x, hx, hxid⟩ := List.mem_map.mp hmem
    obtain ⟨_, _, _, -, -, he'⟩ := hselected ha
    have hsame : x = m := Table.eq_of_key_eq (hsound.selected _ he' rows rfl x hx) hselects.there hxid
    exact hnot ⟨_, rows, hmarks, ha, hsame ▸ hx⟩
  -- so each returns another one
  have hother : ∀ j ∈ js, ∃ x rows, Marks calls j ∧ (c.run after).Answered j (.items rows) ∧ x ∈ rows ∧
      x ∈ (c.run after).world.db.crosstalk.messages ∧ x.toUsername = some user := by
    intro j hj
    obtain ⟨⟨-, site, f, caller, hcalls, hf, hto, hcaller, hscope⟩, rows, ha⟩ := hfollow j hj
    obtain ⟨site', f', caller', hcalls', hcaller', hlog⟩ := hselected ha
    cases hcalls.symm.trans hcalls'
    cases hcaller.symm.trans hcaller'
    obtain ⟨hall, hsome⟩ := hselects.selects j hj _ _ _ rows hlog
    obtain ⟨x, hx⟩ := List.exists_mem_of_ne_nil rows (hsome hto hscope f.limit_pos hstays)
    refine ⟨x, rows, ⟨site, f, hcalls, hf⟩, ha, hx, hsound.selected _ hlog rows rfl x hx, ?_⟩
    rw [hall x hx, ← hto, huser]
  have hnonempty : Nonempty Message := ⟨m⟩
  choose! other hrows using hother
  have hne : m ∉ js.map other := by
    intro hmem
    obtain ⟨j, hj, hjm⟩ := List.mem_map.mp hmem
    obtain ⟨rows, hmarks, ha, hx, -⟩ := hrows j hj
    exact hnot ⟨j, rows, hmarks, ha, hjm ▸ hx⟩
  have hnodup : (js.map other).Nodup := by
    refine hjs.map_on fun i hi j hj heq => by_contra fun hij => ?_
    obtain ⟨rows, hmarks, ha, hx, -⟩ := hrows i hi
    obtain ⟨rows', hmarks', ha', hx', -⟩ := hrows j hj
    exact hout.once i j rows rows' hij hmarks hmarks' ha ha' _ hx _ hx' (congrArg Message.id heq)
  have hsub : m :: js.map other ⊆
      (c.run after).world.db.crosstalk.messages.rows.filter fun x => x.toUsername = some user := by
    intro x hx
    rcases List.mem_cons.mp hx with rfl | hx
    · exact List.mem_filter.mpr ⟨hselects.there, by simpa using huser⟩
    · obtain ⟨j, hj, rfl⟩ := List.mem_map.mp hx
      obtain ⟨rows, -, -, -, hthere, hto⟩ := hrows j hj
      exact List.mem_filter.mpr ⟨hthere, by simpa using hto⟩
  have hlength := (List.subperm_of_subset (List.nodup_cons.mpr ⟨hne, hnodup⟩) hsub).length_le
  rw [List.length_cons, List.length_map, ← List.countP_eq_length_filter] at hlength
  omega

/-- **The inbox** hands a message out once, where no marking fetch selects what another one has selected
and not marked yet. -/
theorem inbox_hands_out_once (calls : List (Site × InboxCall)) (s : InboxStore) (schedule : List Nat)
    (hmeets : (Config.start s (inboxProgs calls)).Meets (Config.NextIn (Unclaimed calls)) schedule) :
    HandsOutOnce calls s ((Config.start s (inboxProgs calls)).run schedule) ∧
    ∀ before after, before ++ after = schedule → ∀ m user, m.toUsername = some user →
      s.readAt m.id = none →
      m ∈ ((Config.start s (inboxProgs calls)).run before).world.db.crosstalk.messages →
      ∀ js : List Nat, js.Nodup →
        (∀ j ∈ js, Follows calls ((Config.start s (inboxProgs calls)).run before) m j ∧
          ∃ rows, ((Config.start s (inboxProgs calls)).run schedule).Answered j (.items rows)) →
        ((Config.start s (inboxProgs calls)).run schedule).world.db.crosstalk.messages.rows.countP
          (fun x => x.toUsername = some user) ≤ js.length →
        ∃ i rows, Marks calls i ∧
          ((Config.start s (inboxProgs calls)).run schedule).Answered i (.items rows) ∧ m ∈ rows := by
  refine ⟨handsOutOnce s schedule hmeets, ?_⟩
  rintro before after rfl m user huser hunread hm js hjs hfollow henough
  exact exists_returned s before after hmeets huser hunread hm hjs hfollow henough

end

/-! ### Two fetches -/

section Samples

/-- Messages sent at one time in the order in which they were inserted. -/
local instance : SentOrder where
  arrange ms := ms.insertionSort fun m m' => m.sentAt ≤ m'.sentAt
  perm ms := List.perm_insertionSort _ ms
  sorted ms := List.pairwise_insertionSort _ ms

/-- The L2 of Bob. -/
def bobSite : Site where
  env := ⟨fun _ => none⟩
  users username := if username = "bob" then some ⟨some "acme", some "eng", some "user"⟩ else none
  now := "2026-06-01T12:00:00+00:00"
  newThreadId := "thread_2"
  newMessageId := "msg_2"

/-- A thread and a message on it to Bob. -/
def toBob : Message := ⟨"msg_1", "thread_1", "alice", none, some "bob", "hello", "2026-06-01T11:00:00+00:00",
  "acme", "eng"⟩

def bobThread : Thread := ⟨"thread_1", "", .opened, none, none, none, "acme", "eng",
  "2026-06-01T11:00:00+00:00", "alice", ["alice", "bob"]⟩

def bobStore : InboxStore where
  crosstalk := ⟨.single bobThread, .single toBob, by
    intro m hm
    obtain rfl := List.mem_singleton.mp hm
    exact ⟨bobThread, List.mem_singleton_self _, rfl⟩⟩
  readAt _ := none
  read_mem := fun _ h => absurd rfl h

/-- A fetch of Bob that marks what it returns. -/
def bobFetch : Site × InboxCall := (bobSite, .fetch ⟨"bob", 50, true, by decide, by decide⟩)

/-- One fetch after the other. -/
theorem inbox_hands_out_once_sample :
    HandsOutOnce [bobFetch, bobFetch] bobStore
      ((Config.start bobStore (inboxProgs [bobFetch, bobFetch])).run [0, 0, 1, 1]) := by
  refine (inbox_hands_out_once [bobFetch, bobFetch] bobStore [0, 0, 1, 1] ?_).1
  refine ⟨fun _ m _ e he => absurd he List.not_mem_nil, trivial, fun _ m hm => ?_, trivial, trivial⟩
  exact absurd hm List.not_mem_nil

/-- Two fetches that both select before either marks return the same message. -/
theorem message_handed_out_twice :
    ((Config.start bobStore (inboxProgs [bobFetch, bobFetch])).run [0, 1, 0, 1]).Answered 0
        (.items [toBob]) ∧
      ((Config.start bobStore (inboxProgs [bobFetch, bobFetch])).run [0, 1, 0, 1]).Answered 1
        (.items [toBob]) :=
  ⟨rfl, rfl⟩

end Samples

end EighthLayer.Crosstalk
