import EighthLayer.CrosstalkMcp.Server

/-!
# EighthLayer.CrosstalkMcp.Routings

What becomes of a message that is routed to a tag of a session.

It waits to be adopted, rejected or declined: until then it is listed among the pending routings,
not delivered, and the session is not notified of it. No statement of the routing tools gets in the
way of that, but the poll takes whatever is undelivered, tagged or not. As long as it takes nothing
that waits, a routing waits (`routings_wait`).
-/

namespace EighthLayer.CrosstalkMcp

open Lib

/-! ## What has been done about a message -/

/-- The statement inserts the message. -/
def Inserts (id : String) : McpStmt → Prop
  | .insertMessage m => m.id = id
  | _ => False

instance (id : String) : DecidablePred (Inserts id) := fun q => by
  unfold Inserts
  split <;> infer_instance

/-- A statement of this kind has been executed since the message was inserted. -/
def Since (id : String) (P : McpStmt → Prop) : List (Event McpStmt.Answer) → Prop
  | [] => False
  | e :: earlier => (P e.stmt ∧ ∃ e' ∈ earlier, Inserts id e'.stmt) ∨ Since id P earlier

instance decidableSince (id : String) (P : McpStmt → Prop) [DecidablePred P] :
    (log : List (Event McpStmt.Answer)) → Decidable (Since id P log)
  | [] => inferInstanceAs (Decidable False)
  | e :: earlier =>
      have : Decidable (Since id P earlier) := decidableSince id P earlier
      inferInstanceAs (Decidable ((P e.stmt ∧ ∃ e' ∈ earlier, Inserts id e'.stmt) ∨
        Since id P earlier))

theorem Since.imp {id : String} {P P' : McpStmt → Prop} (hP : ∀ q, P q → P' q)
    {log : List (Event McpStmt.Answer)} (h : Since id P log) : Since id P' log := by
  induction log with
  | nil => exact h
  | cons e earlier ih => exact Or.imp (fun h => ⟨hP _ h.1, h.2⟩) ih h

theorem Since.mono {id : String} {P : McpStmt → Prop} {log log' : List (Event McpStmt.Answer)}
    (h : Since id P log) (hlog : log <:+ log') : Since id P log' := by
  obtain ⟨newer, rfl⟩ := hlog
  induction newer with
  | nil => exact h
  | cons e newer ih => exact .inr ih

/-- The session that the message is addressed to has adopted its thread, and with it the message. -/
def Adopts (m : Message) : McpStmt → Prop
  | .adoptMessages threadId session initiator _ =>
      threadId = m.threadId ∧ session = m.toSession ∧ initiator = false
  | _ => False

instance (m : Message) : DecidablePred (Adopts m) := fun q => by
  unfold Adopts
  split <;> infer_instance

/-- The session has declined the thread of the message, or rejected its routing. -/
def TurnsDown (m : Message) (session : String) : McpStmt → Prop
  | .decline threadId s _ | .rejectRoutings threadId s _ => threadId = m.threadId ∧ s = session
  | _ => False

instance (m : Message) (session : String) : DecidablePred (TurnsDown m session) := fun q => by
  unfold TurnsDown
  split <;> infer_instance

/-- The message has been adopted. -/
def Adopted (log : List (Event McpStmt.Answer)) (m : Message) : Prop := Since m.id (Adopts m) log

instance (log : List (Event McpStmt.Answer)) (m : Message) : Decidable (Adopted log m) :=
  inferInstanceAs (Decidable (Since m.id (Adopts m) log))

/-- The message has been adopted, or the session has declined or rejected it. -/
def Released (log : List (Event McpStmt.Answer)) (m : Message) (session : String) : Prop :=
  Since m.id (fun q => Adopts m q ∨ TurnsDown m session q) log

instance (log : List (Event McpStmt.Answer)) (m : Message) (session : String) :
    Decidable (Released log m session) :=
  inferInstanceAs (Decidable (Since m.id (fun q => Adopts m q ∨ TurnsDown m session q) log))

/-- Both are about the identity, the thread and the addressee of a message only. -/
theorem adopted_congr {log : List (Event McpStmt.Answer)} {m m' : Message} (hid : m'.id = m.id)
    (hthread : m'.threadId = m.threadId) (hto : m'.toSession = m.toSession) :
    Adopted log m' ↔ Adopted log m := by
  have hadopts : Adopts m' = Adopts m := by
    funext q
    unfold Adopts
    rw [hthread, hto]
  unfold Adopted
  rw [hid, hadopts]

theorem released_congr {log : List (Event McpStmt.Answer)} {m m' : Message} (hid : m'.id = m.id)
    (hthread : m'.threadId = m.threadId) (hto : m'.toSession = m.toSession) (session : String) :
    Released log m' session ↔ Released log m session := by
  have hadopts : Adopts m' = Adopts m := by
    funext q
    unfold Adopts
    rw [hthread, hto]
  have hturns : TurnsDown m' session = TurnsDown m session := by
    funext q
    unfold TurnsDown
    rw [hthread]
  unfold Released
  rw [hid, hadopts, hturns]

/-- The message has been addressed to the session: it is one of its recipients. -/
def Addressed (log : List (Event McpStmt.Answer)) (id session : String) : Prop :=
  ∃ e ∈ log, e.stmt = .insertDelivery id session

/-! ## The condition -/

/-- A poll takes no message that waits at a tag to be adopted. -/
def LeavesRoutings : McpStmt → McpWorld → Prop
  | .pending session limit tag, w =>
      ∀ m ∈ w.db.pendingForSession session limit tag, m.toTag = none ∨ Adopted w.log m
  | _, _ => True

instance : (q : McpStmt) → (w : McpWorld) → Decidable (LeavesRoutings q w)
  | .pending session limit tag, w =>
    inferInstanceAs (Decidable
      (∀ m ∈ w.db.pendingForSession session limit tag, m.toTag = none ∨ Adopted w.log m))
  | .getThread _, _ | .upsertThread _, _ | .lastIncomingTag _ _, _ | .getMessages _, _
  | .insertMessage _, _ | .insertDelivery _ _, _ | .appendInbox _ _, _ | .readInbox _ _, _
  | .pendingRoutings _ _, _ | .listInbox _ _ _, _ | .markDelivery _ _ _, _ | .markMessage _ _, _
  | .decline _ _ _, _ | .rejectRoutings _ _ _, _ | .adoptThread _ _ _ _, _
  | .adoptMessages _ _ _ _, _ | .reap _ _ _, _ | .seed, _ | .notify _ _, _ | .respond _, _ =>
    isTrue trivial

/-! ## Routings -/

/-- A message that is tagged and has not been adopted: it has been notified to nobody, and where
it is not turned down it is undelivered. -/
structure Waits (w : McpWorld) (m : Message) : Prop where
  fresh : m.deliveredAt = none
  unseen : ∀ session, (session, m.id) ∉ w.db.shown
  undelivered : ∀ d ∈ w.db.deliveries, d.messageId = m.id → ¬ Released w.log m d.session →
    d.deliveredAt = none

/-- What holds of the messages at all times. -/
structure Routed (w : McpWorld) : Prop where
  inserted : ∀ m ∈ w.db.messages, ∃ e ∈ w.log, Inserts m.id e.stmt
  delivery : ∀ d ∈ w.db.deliveries, ∃ m ∈ w.db.messages, m.id = d.messageId
  seen : ∀ p ∈ w.db.shown, ∃ m ∈ w.db.messages, m.id = p.2
  addressed : ∀ id session, Addressed w.log id session →
    ∃ d ∈ w.db.deliveries, d.messageId = id ∧ d.session = session
  waits : ∀ m ∈ w.db.messages, m.toTag ≠ none → ¬ Adopted w.log m → Waits w m

/-- A message of the store that is untagged, or has been adopted. -/
def Free (w : McpWorld) (id : String) : Prop :=
  ∃ m ∈ w.db.messages, m.id = id ∧ (m.toTag = none ∨ Adopted w.log m)

/-- What may become of a message. -/
structure Message.Same (w' : McpWorld) (m m' : Message) : Prop where
  id : m'.id = m.id
  threadId : m'.threadId = m.threadId
  toSession : m'.toSession = m.toSession
  tag : m'.toTag = m.toTag ∨ Adopted w'.log m'

/-- What the servers promise each other. -/
def routing : Contract McpStore McpStmt.Answer where
  inv := Routed
  rel := fun w w' => w.log <:+ w'.log ∧ ∀ m ∈ w.db.messages, ∃ m' ∈ w'.db.messages, m.Same w' m'
  ok := fun _ => LeavesRoutings
  refl := fun w => ⟨List.suffix_refl _, fun m hm => ⟨m, hm, rfl, rfl, rfl, .inl rfl⟩⟩
  trans := by
    intro w₁ w₂ w₃ h h'
    refine ⟨h.1.trans h'.1, fun m hm => ?_⟩
    obtain ⟨m', hm', hsame⟩ := h.2 m hm
    obtain ⟨m'', hm'', hsame'⟩ := h'.2 m' hm'
    refine ⟨m'', hm'', hsame'.id.trans hsame.id, hsame'.threadId.trans hsame.threadId,
      hsame'.toSession.trans hsame.toSession, ?_⟩
    rcases hsame'.tag with htag | hadopted
    · rcases hsame.tag with htag' | hadopted
      · exact .inl (htag.trans htag')
      · exact .inr ((adopted_congr hsame'.id hsame'.threadId hsame'.toSession).mpr
          (hadopted.mono h'.1))
    · exact .inr hadopted

/-! ## Statements -/

/-- What a statement needs. -/
def Ready (w : McpWorld) : McpStmt → Prop
  | .insertMessage m => m.deliveredAt = none
  | .insertDelivery id _ => ∃ m ∈ w.db.messages, m.id = id
  | .notify _ id | .markDelivery id _ _ | .markMessage id _ => Free w id
  | _ => True

theorem Adopted.exec {w : McpWorld} {m : Message} (h : Adopted w.log m) (i : Nat) (q : McpStmt) :
    Adopted (w.exec i q).log m := h.mono (List.suffix_cons _ _)

theorem Released.exec {w : McpWorld} {m : Message} {session : String}
    (h : Released w.log m session) (i : Nat) (q : McpStmt) :
    Released (w.exec i q).log m session := h.mono (List.suffix_cons _ _)

/-- What the statement does to a message that is there, it has done since the message was. -/
theorem since_exec {w : McpWorld} {id : String} {P : McpStmt → Prop}
    (hinserted : ∃ e ∈ w.log, Inserts id e.stmt) (i : Nat) {q : McpStmt} (hq : P q) :
    Since id P (w.exec i q).log :=
  .inl ⟨hq, hinserted⟩

section Exec

variable {w : McpWorld} {i : Nat} {q : McpStmt}

theorem Routed.inserted_exec (h : Routed w) {m : Message} (hm : m ∈ w.db.messages) (i : Nat)
    (q : McpStmt) : ∃ e ∈ (w.exec i q).log, Inserts m.id e.stmt := by
  obtain ⟨e, he, hinserts⟩ := h.inserted m hm
  exact ⟨e, List.mem_cons_of_mem _ he, hinserts⟩

/-- A message that is tagged and has not been adopted is not free. -/
theorem Routed.not_free (_ : Routed w) {m : Message} (hm : m ∈ w.db.messages)
    (htag : m.toTag ≠ none) (hkept : ¬ Adopted w.log m) : ¬ Free w m.id := by
  rintro ⟨m', hm', hid, hfree⟩
  cases Table.eq_of_key_eq hm' hm hid
  rcases hfree with hnone | hadopted
  · exact htag hnone
  · exact hkept hadopted

/-- A statement that leaves the messages alone. -/
theorem Routed.of_messages (h : Routed w) (hmessages : (w.exec i q).db.messages = w.db.messages)
    (hdelivery : ∀ d ∈ (w.exec i q).db.deliveries, ∃ m ∈ w.db.messages, m.id = d.messageId)
    (hkept : ∀ d ∈ w.db.deliveries, ∃ d' ∈ (w.exec i q).db.deliveries,
      d'.messageId = d.messageId ∧ d'.session = d.session)
    (haddressed : ∀ id session, q = .insertDelivery id session →
      ∃ d ∈ (w.exec i q).db.deliveries, d.messageId = id ∧ d.session = session)
    (hshown : ∀ p ∈ (w.exec i q).db.shown, p ∈ w.db.shown ∨ Free w p.2)
    (hwaits : ∀ m ∈ w.db.messages, m.toTag ≠ none → ¬ Adopted (w.exec i q).log m → Waits w m →
      ∀ d ∈ (w.exec i q).db.deliveries, d.messageId = m.id →
        ¬ Released (w.exec i q).log m d.session → d.deliveredAt = none ∨ d ∈ w.db.deliveries) :
    Routed (w.exec i q) ∧ routing.rel w (w.exec i q) := by
  refine ⟨⟨?_, ?_, ?_, ?_, ?_⟩, List.suffix_cons _ _, ?_⟩
  · intro m hm
    rw [hmessages] at hm
    exact h.inserted_exec hm i q
  · rw [hmessages]
    exact hdelivery
  · intro p hp
    rw [hmessages]
    rcases hshown p hp with hold | ⟨m, hm, hid, -⟩
    · exact h.seen p hold
    · exact ⟨m, hm, hid⟩
  · rintro id session ⟨e, he, hstmt⟩
    rcases List.mem_cons.mp he with rfl | he
    · exact haddressed id session hstmt
    · obtain ⟨d, hd, hid, hsession⟩ := h.addressed id session ⟨e, he, hstmt⟩
      obtain ⟨d', hd', hid', hsession'⟩ := hkept d hd
      exact ⟨d', hd', hid'.trans hid, hsession'.trans hsession⟩
  · intro m hm htag hfree
    rw [hmessages] at hm
    have hkept' : ¬ Adopted w.log m := fun hadopted => hfree (hadopted.exec i q)
    have hold := h.waits m hm htag hkept'
    refine ⟨hold.fresh, fun session hseen => ?_, fun d hd hid hreleased => ?_⟩
    · rcases hshown _ hseen with hseen | hseen
      · exact hold.unseen session hseen
      · exact h.not_free hm htag hkept' hseen
    · rcases hwaits m hm htag hfree hold d hd hid hreleased with hnone | hd
      · exact hnone
      · exact hold.undelivered d hd hid fun hrel => hreleased (hrel.exec i q)
  · intro m hm
    exact ⟨m, by rw [hmessages]; exact hm, rfl, rfl, rfl, .inl rfl⟩

/-- A statement that leaves all of it alone. -/
theorem Routed.idle (h : Routed w) (hmessages : (w.exec i q).db.messages = w.db.messages)
    (hdeliveries : (w.exec i q).db.deliveries = w.db.deliveries)
    (hshown : (w.exec i q).db.shown = w.db.shown)
    (hq : ∀ id session, q ≠ .insertDelivery id session) :
    Routed (w.exec i q) ∧ routing.rel w (w.exec i q) := by
  refine h.of_messages hmessages (fun d hd => ?_) (fun d hd => ⟨d, ?_, rfl, rfl⟩)
    (fun id session heq => absurd heq (hq id session)) (fun p hp => .inl (hshown ▸ hp))
    fun m _ _ _ _ d hd _ _ => .inr (hdeliveries ▸ hd)
  · rw [hdeliveries] at hd
    exact h.delivery d hd
  · rw [hdeliveries]
    exact hd

/-- A statement that marks deliveries: none of them is of a message that waits. -/
theorem Routed.deliver (h : Routed w) {which : Delivery → Bool} {now : String}
    (hdb : (w.exec i q).db = w.db.deliver which now)
    (hq : ∀ id session, q ≠ .insertDelivery id session)
    (hwhich : ∀ m ∈ w.db.messages, m.toTag ≠ none → ¬ Adopted (w.exec i q).log m →
      ∀ d ∈ w.db.deliveries, d.messageId = m.id → which d = true →
        Released (w.exec i q).log m d.session) :
    Routed (w.exec i q) ∧ routing.rel w (w.exec i q) := by
  have hdeliveries : ∀ d', d' ∈ (w.exec i q).db.deliveries ↔ ∃ d ∈ w.db.deliveries,
      (if which d then { d with deliveredAt := some now } else d) = d' := by
    intro d'
    rw [hdb]
    exact McpStore.mem_deliver
  refine h.of_messages (by rw [hdb]; rfl) (fun d' hd' => ?_) (fun d hd => ?_)
    (fun id session heq => absurd heq (hq id session)) (fun p hp => .inl ?_)
    fun m hm htag hfree _ d' hd' hid hreleased => ?_
  · obtain ⟨d, hd, rfl⟩ := (hdeliveries d').mp hd'
    obtain ⟨m, hm, hid⟩ := h.delivery d hd
    refine ⟨m, hm, hid.trans ?_⟩
    split <;> rfl
  · refine ⟨_, (hdeliveries _).mpr ⟨d, hd, rfl⟩, ?_, ?_⟩
    · split <;> rfl
    · split <;> rfl
  · rw [hdb] at hp
    exact hp
  · obtain ⟨d, hd, rfl⟩ := (hdeliveries d').mp hd'
    split
    · rename_i hmarked
      rw [if_pos hmarked] at hid hreleased
      exact absurd (hwhich m hm htag hfree d hd hid hmarked) hreleased
    · exact .inr hd

/-- A statement that updates messages. -/
theorem Routed.of_update (h : Routed w) {p : Message → Bool} {f : Message → Message}
    (hf : ∀ m, (f m).id = m.id)
    (hmessages : (w.exec i q).db.messages = w.db.messages.update p f hf)
    (hdeliveries : (w.exec i q).db.deliveries = w.db.deliveries)
    (hshown : (w.exec i q).db.shown = w.db.shown)
    (hq : ∀ id session, q ≠ .insertDelivery id session)
    (hsame : ∀ m ∈ w.db.messages, p m = true → m.Same (w.exec i q) (f m))
    (hfresh : ∀ m ∈ w.db.messages, p m = true → (f m).toTag ≠ none →
      ¬ Adopted (w.exec i q).log (f m) → m.deliveredAt = none → (f m).deliveredAt = none) :
    Routed (w.exec i q) ∧ routing.rel w (w.exec i q) := by
  have hmem : ∀ m', m' ∈ (w.exec i q).db.messages ↔
      ∃ m ∈ w.db.messages, (if p m then f m else m) = m' := by
    intro m'
    rw [hmessages]
    exact Table.mem_update
  have hthere : ∀ m ∈ w.db.messages, ∃ m' ∈ (w.exec i q).db.messages, m.Same (w.exec i q) m' := by
    intro m hm
    refine ⟨_, (hmem _).mpr ⟨m, hm, rfl⟩, ?_⟩
    split
    · rename_i hp
      exact hsame m hm hp
    · exact ⟨rfl, rfl, rfl, .inl rfl⟩
  refine ⟨⟨?_, ?_, ?_, ?_, ?_⟩, List.suffix_cons _ _, hthere⟩
  · intro m' hm'
    obtain ⟨m, hm, rfl⟩ := (hmem m').mp hm'
    have hid : (if p m then f m else m).id = m.id := by
      split
      · exact hf m
      · rfl
    rw [hid]
    exact h.inserted_exec hm i q
  · intro d hd
    rw [hdeliveries] at hd
    obtain ⟨m, hm, hid⟩ := h.delivery d hd
    obtain ⟨m', hm', hsame'⟩ := hthere m hm
    exact ⟨m', hm', hsame'.id.trans hid⟩
  · intro r hr
    rw [hshown] at hr
    obtain ⟨m, hm, hid⟩ := h.seen r hr
    obtain ⟨m', hm', hsame'⟩ := hthere m hm
    exact ⟨m', hm', hsame'.id.trans hid⟩
  · rintro id session ⟨e, he, hstmt⟩
    rw [hdeliveries]
    rcases List.mem_cons.mp he with rfl | he
    · exact absurd hstmt (hq id session)
    · exact h.addressed id session ⟨e, he, hstmt⟩
  · intro m' hm' htag hfree
    obtain ⟨m, hm, hrow⟩ := (hmem m').mp hm'
    by_cases hp : p m = true
    · rw [if_pos hp] at hrow
      subst hrow
      have hsame' := hsame m hm hp
      have htag' : (f m).toTag = m.toTag := hsame'.tag.resolve_right hfree
      have hkept : ¬ Adopted w.log m := fun hadopted => hfree
        ((adopted_congr hsame'.id hsame'.threadId hsame'.toSession).mpr (hadopted.exec i q))
      have hold := h.waits m hm (by rwa [← htag']) hkept
      refine ⟨hfresh m hm hp htag hfree hold.fresh, fun session => ?_, fun d hd hid hrel => ?_⟩
      · rw [hshown, hsame'.id]
        exact hold.unseen session
      · rw [hdeliveries] at hd
        exact hold.undelivered d hd (hid.trans hsame'.id) fun h' => hrel
          ((released_congr hsame'.id hsame'.threadId hsame'.toSession _).mpr (h'.exec i q))
    · rw [if_neg hp] at hrow
      subst hrow
      have hold := h.waits m hm htag fun hadopted => hfree (hadopted.exec i q)
      refine ⟨hold.fresh, fun session => ?_, fun d hd hid hrel => ?_⟩
      · rw [hshown]
        exact hold.unseen session
      · rw [hdeliveries] at hd
        exact hold.undelivered d hd hid fun h' => hrel (h'.exec i q)

/-- **Step lemma.** A statement that is ready keeps what holds of the messages, and what may become
of them. -/
theorem Routed.exec (h : Routed w) (i : Nat) (hready : Ready w q) :
    Routed (w.exec i q) ∧ routing.rel w (w.exec i q) := by
  cases q with
  | insertMessage m₀ =>
      have hmem : ∀ m, m ∈ (w.exec i (.insertMessage m₀)).db.messages ↔
          m ∈ w.db.messages ∨ (m = m₀ ∧ w.db.messages.find m₀.id = none) := fun m =>
        Table.mem_insertOrIgnore
      refine ⟨⟨fun m hm => ?_, fun d hd => ?_, fun p hp => ?_, ?_, fun m hm htag hfree => ?_⟩,
        List.suffix_cons _ _, fun m hm => ⟨m, (hmem m).mpr (.inl hm), rfl, rfl, rfl, .inl rfl⟩⟩
      · rcases (hmem m).mp hm with hm | ⟨rfl, -⟩
        · exact h.inserted_exec hm i _
        · exact ⟨_, List.mem_cons_self, rfl⟩
      · obtain ⟨m, hm, hid⟩ := h.delivery d hd
        exact ⟨m, (hmem m).mpr (.inl hm), hid⟩
      · obtain ⟨m, hm, hid⟩ := h.seen p hp
        exact ⟨m, (hmem m).mpr (.inl hm), hid⟩
      · rintro id session ⟨e, he, hstmt⟩
        rcases List.mem_cons.mp he with rfl | he
        · cases hstmt
        · exact h.addressed id session ⟨e, he, hstmt⟩
      · rcases (hmem m).mp hm with hm | ⟨rfl, hnone⟩
        · have hold := h.waits m hm htag fun hadopted => hfree (hadopted.exec i _)
          exact ⟨hold.fresh, hold.unseen, fun d hd hid hrel =>
            hold.undelivered d hd hid fun h' => hrel (h'.exec i _)⟩
        · -- nobody has heard of a message that has just been inserted
          have habsent := Table.find_eq_none_iff.mp hnone
          refine ⟨hready, fun session hseen => ?_, fun d hd hid _ => ?_⟩
          · obtain ⟨m', hm', hid'⟩ := h.seen _ hseen
            exact absurd hid' (habsent m' hm')
          · obtain ⟨m', hm', hid'⟩ := h.delivery d hd
            exact absurd (hid'.trans hid) (habsent m' hm')
  | insertDelivery id session =>
      have hmem : ∀ d, d ∈ (w.exec i (.insertDelivery id session)).db.deliveries ↔
          d ∈ w.db.deliveries ∨ (d = ⟨id, session, none⟩ ∧ w.db.deliveries.find
            (Delivery.key ⟨id, session, none⟩) = none) := fun d => Table.mem_insertOrIgnore
      refine h.of_messages rfl (fun d hd => ?_) (fun d hd => ⟨d, (hmem d).mpr (.inl hd), rfl, rfl⟩)
        (fun id' session' heq => ?_) (fun p hp => .inl hp) fun m _ _ _ _ d hd _ _ => ?_
      · rcases (hmem d).mp hd with hd | ⟨rfl, -⟩
        · exact h.delivery d hd
        · exact hready
      · cases heq
        obtain ⟨d, hd, hkey⟩ := Table.exists_mem_insertOrIgnore w.db.deliveries
          (⟨id, session, none⟩ : Delivery)
        obtain ⟨hid, hsession⟩ := Prod.mk.inj hkey
        exact ⟨d, hd, hid, hsession⟩
      · rcases (hmem d).mp hd with hd | ⟨rfl, -⟩
        · exact .inr hd
        · exact .inl rfl
  | markDelivery id session now =>
      refine h.deliver rfl (fun _ _ => nofun) fun m hm htag hfree d hd hid hmarked => ?_
      simp only [Bool.and_eq_true, decide_eq_true_eq] at hmarked
      refine absurd ?_ (h.not_free hm htag fun hadopted => hfree (hadopted.exec i _))
      rw [← hid, hmarked.1]
      exact hready
  | decline threadId session now =>
      refine h.deliver rfl (fun _ _ => nofun) fun m hm htag hfree d hd hid hmarked => ?_
      simp only [Bool.and_eq_true, decide_eq_true_eq, List.any_eq_true] at hmarked
      obtain ⟨⟨hsession, -⟩, m', hm', hid', hthread⟩ := hmarked
      cases Table.eq_of_key_eq hm' hm (hid'.trans hid)
      exact since_exec (h.inserted m hm) i (.inr ⟨hthread.symm, hsession.symm⟩)
  | rejectRoutings threadId session now =>
      refine h.deliver rfl (fun _ _ => nofun) fun m hm htag hfree d hd hid hmarked => ?_
      simp only [Bool.and_eq_true, decide_eq_true_eq, List.any_eq_true] at hmarked
      obtain ⟨⟨hsession, -⟩, m', hm', ⟨⟨hid', hthread⟩, -⟩, -⟩ := hmarked
      cases Table.eq_of_key_eq hm' hm (hid'.trans hid)
      exact since_exec (h.inserted m hm) i (.inr ⟨hthread.symm, hsession.symm⟩)
  | markMessage id now =>
      refine h.of_update (f := fun m => { m with deliveredAt := some now }) (fun _ => rfl) rfl rfl
        rfl (fun _ _ => nofun) (fun m _ _ => ⟨rfl, rfl, rfl, .inl rfl⟩)
        fun m hm hp htag hfree _ => ?_
      have hid : m.id = id := of_decide_eq_true hp
      refine absurd ?_ (h.not_free hm htag fun hadopted => hfree (hadopted.exec i _))
      rw [hid]
      exact hready
  | adoptMessages threadId session initiator newTag =>
      cases initiator with
      | true =>
          exact h.of_update (f := fun m => { m with fromTag := newTag }) (fun _ => rfl) rfl rfl rfl
            (fun _ _ => nofun) (fun m _ _ => ⟨rfl, rfl, rfl, .inl rfl⟩) fun m _ _ _ _ hnone => hnone
      | false =>
          refine h.of_update (f := fun m => { m with toTag := newTag }) (fun _ => rfl) rfl rfl rfl
            (fun _ _ => nofun) (fun m hm hp => ?_) fun m _ _ _ _ hnone => hnone
          simp only [Bool.and_eq_true, decide_eq_true_eq] at hp
          exact ⟨rfl, rfl, rfl, .inr (since_exec (h.inserted m hm) i
            ⟨hp.1.symm, hp.2.symm, rfl⟩)⟩
  | seed =>
      have hmem : ∀ d, d ∈ (w.exec i .seed).db.deliveries →
          d ∈ w.db.deliveries ∨ ∃ m ∈ w.db.messages, d = m.seeded := by
        intro d hd
        rcases Table.of_mem_foldl_insertOrIgnore hd with hd | ⟨hd, -⟩
        · exact .inl hd
        · obtain ⟨m, hm, rfl⟩ := List.mem_map.mp hd
          exact .inr ⟨m, hm, rfl⟩
      refine h.of_messages rfl (fun d hd => ?_)
        (fun d hd => ⟨d, Table.mem_foldl_insertOrIgnore hd, rfl, rfl⟩) (fun _ _ => nofun)
        (fun p hp => .inl hp) fun m hm htag _ hwaits d hd hid _ => ?_
      · rcases hmem d hd with hd | ⟨m, hm, rfl⟩
        · exact h.delivery d hd
        · exact ⟨m, hm, rfl⟩
      · rcases hmem d hd with hd | ⟨m', hm', rfl⟩
        · exact .inr hd
        · cases Table.eq_of_key_eq hm' hm hid
          exact .inl hwaits.fresh
  | notify session id =>
      refine h.of_messages rfl h.delivery (fun d hd => ⟨d, hd, rfl, rfl⟩) (fun _ _ => nofun)
        (fun p hp => ?_) fun m _ _ _ _ d hd _ _ => .inr hd
      rcases List.mem_append.mp hp with hp | hp
      · exact .inl hp
      · cases List.mem_singleton.mp hp
        exact .inr hready
  | _ => exact h.idle rfl rfl rfl fun _ _ => nofun

end Exec

theorem Free.rel {w w' : McpWorld} {id : String} (h : Free w id) (hrel : routing.rel w w') :
    Free w' id := by
  obtain ⟨m, hm, hid, hfree⟩ := h
  obtain ⟨m', hm', hsame⟩ := hrel.2 m hm
  refine ⟨m', hm', hsame.id.trans hid, ?_⟩
  rcases hsame.tag with htag | hadopted
  · rcases hfree with hnone | hadopted
    · exact .inl (htag.trans hnone)
    · exact .inr ((adopted_congr hsame.id hsame.threadId hsame.toSession).mpr
        (hadopted.mono hrel.1))
  · exact .inr hadopted

/-! ## Programs -/

/-- From here on, the program does to the messages only what the servers have promised. -/
def Routes {α : Type} (i : Nat) (p : McpProg α) (w : McpWorld) : Prop :=
  p.Keeps routing (fun _ _ => True) i w

section Programs

variable {α : Type} {i : Nat} {w : McpWorld}

theorem routes_call {q : McpStmt} {f : McpStmt.Answer q → McpProg α}
    (hready : ∀ w', routing.rel w w' → Ready w' q)
    (h : ∀ a w', routing.rel w w' → Routes i (f a) (w'.exec i q)) : Routes i (.call q f) w := by
  intro w' hinv hrel _
  exact ⟨hinv.exec i (hready w' hrel), h _ w' hrel⟩

theorem routes_bind {β : Type} {p : McpProg β} {f : β → McpProg α} (h : Routes i p w)
    (hf : ∀ a w', Routes i (f a) w') : Routes i (p.bind f) w :=
  Prog.Keeps.bind h fun a w' _ => hf a w'

theorem routes_insertDeliveries {id : String} {recipients : List String} {next : McpProg α}
    (hrow : ∃ m ∈ w.db.messages, m.id = id) (h : ∀ w', Routes i next w') :
    Routes i (insertDeliveries id recipients next) w := by
  have hthere : ∀ w', routing.rel w w' → ∃ m ∈ w'.db.messages, m.id = id := by
    intro w' hrel
    obtain ⟨m, hm, hid⟩ := hrow
    obtain ⟨m', hm', hsame⟩ := hrel.2 m hm
    exact ⟨m', hm', hsame.id.trans hid⟩
  induction recipients generalizing w with
  | nil => exact h w
  | cons r rest ih =>
      refine routes_call hthere fun _ w' hrel => ih (hthere w' hrel) fun w'' hrel' => ?_
      obtain ⟨m, hm, hid⟩ := hthere w' hrel
      obtain ⟨m', hm', hsame⟩ := hrel'.2 m hm
      exact ⟨m', hm', hsame.id.trans hid⟩

theorem routes_insertMessage {m : Message} {extra : List String} {next : McpProg α}
    (hm : m.deliveredAt = none) (h : ∀ w', Routes i next w') :
    Routes i (insertMessage m extra next) w := by
  refine routes_call (fun _ _ => hm) fun _ w' _ => routes_insertDeliveries ?_ h
  exact Table.exists_mem_insertOrIgnore w'.db.messages m

theorem routes_appendToInboxFiles {m : Message} {recipients : List String} {next : McpProg α}
    (h : ∀ w', Routes i next w') : Routes i (appendToInboxFiles m recipients next) w := by
  induction recipients generalizing w with
  | nil => exact h w
  | cons r rest ih => exact routes_call (fun _ _ => trivial) fun _ _ _ => ih

theorem routes_fanOut {m : String → Message} {recipients : List String} {next : McpProg α}
    (hm : ∀ r, (m r).deliveredAt = none) (h : ∀ w', Routes i next w') :
    Routes i (fanOut m recipients next) w := by
  cases recipients with
  | nil => exact h w
  | cons r rest =>
      exact routes_insertMessage (hm r) fun _ => routes_appendToInboxFiles h

theorem routes_announce {host : Host} {m : String → String → Message} {n : Nat}
    {targets : List String} {next : McpProg α} (hm : ∀ id r, (m id r).deliveredAt = none)
    (h : ∀ w', Routes i next w') : Routes i (announce host m n targets next) w := by
  induction targets generalizing n w with
  | nil => exact h w
  | cons target rest ih =>
      exact routes_insertMessage (hm _ _) fun _ => routes_appendToInboxFiles fun _ => ih

theorem routes_insertLines {lines : List Message} {next : McpProg α} (h : ∀ w', Routes i next w') :
    Routes i (insertLines lines next) w := by
  induction lines generalizing w with
  | nil => exact h w
  | cons m rest ih => exact routes_insertMessage rfl fun _ => ih

theorem routes_ingestInboxFile {me : String} {offset : Nat} {next : Nat → McpProg α}
    (h : ∀ offset' w', Routes i (next offset') w') :
    Routes i (ingestInboxFile me offset next) w := by
  refine routes_call (fun _ _ => trivial) fun read w' _ => ?_
  split
  · exact h _ _
  · exact routes_insertLines (h _)

/-- The messages of a batch are free when it is taken, and stay so. -/
theorem routes_notifyAll {me : String} {host : Host} {batch : List Message} {next : McpProg α}
    (hbatch : ∀ m ∈ batch, Free w m.id) (h : ∀ w', Routes i next w') :
    Routes i (notifyAll me host batch next) w := by
  induction batch generalizing w with
  | nil => exact h w
  | cons m rest ih =>
      have hfree := hbatch m List.mem_cons_self
      intro w₁ hinv₁ hrel₁ _
      have hnotify := hinv₁.exec i (q := .notify me m.id) (hfree.rel hrel₁)
      refine ⟨hnotify, ?_⟩
      have hfree₁ := (hfree.rel hrel₁).rel hnotify.2
      intro w₂ hinv₂ hrel₂ _
      have hmark := hinv₂.exec i (q := .markDelivery m.id me host.now) (hfree₁.rel hrel₂)
      refine ⟨hmark, ?_⟩
      have hfree₂ := (hfree₁.rel hrel₂).rel hmark.2
      intro w₃ hinv₃ hrel₃ _
      have hlegacy := hinv₃.exec i (q := .markMessage m.id host.now) (hfree₂.rel hrel₃)
      refine ⟨hlegacy, ih fun m' hm' => ?_⟩
      refine (hbatch m' (List.mem_cons_of_mem _ hm')).rel ?_
      exact routing.trans (routing.trans hrel₁ hnotify.2) (routing.trans
        (routing.trans hrel₂ hmark.2) (routing.trans hrel₃ hlegacy.2))

theorem routes_pollInbox {me : String} {host : Host} {offset : Nat} {next : Nat → McpProg α}
    (h : ∀ offset' w', Routes i (next offset') w') :
    Routes i (pollInbox me host offset next) w := by
  refine routes_ingestInboxFile fun offset' w' => ?_
  intro w'' hinv _ hleaves
  have hexec := hinv.exec i (q := .pending me pollLimit none) trivial
  refine ⟨hexec, routes_notifyAll (fun m hm => ?_) (h offset')⟩
  have hfree : m.toTag = none ∨ Adopted w''.log m := hleaves m hm
  have hundelivered := List.mem_of_mem_filter (List.mem_of_mem_take hm)
  obtain ⟨d, -, -, -, hfind⟩ := McpStore.mem_undelivered.mp hundelivered
  exact ⟨m, (Table.find_eq_some_iff.mp hfind).1, rfl, hfree.imp id fun h => h.exec i _⟩

theorem routes_openThread {me : String} {host : Host} {kind : ThreadKind} {type : MessageType}
    {others : List String} {content : String} :
    Routes i (openThread me host kind type others content) w :=
  routes_call (fun _ _ => trivial) fun _ _ _ => routes_fanOut (fun _ => rfl) fun _ => trivial

theorem routes_reply {me : String} {host : Host} {threadId content : String}
    {tag : Option String} : Routes i (reply me host threadId content tag) w := by
  refine routes_call (fun _ _ => trivial) fun thread w' _ => ?_
  cases thread with
  | none => trivial
  | some t =>
      dsimp only
      split
      · trivial
      · refine routes_call (fun _ _ => trivial) fun _ _ _ => ?_
        refine routes_call (fun _ _ => trivial) fun routeToTag _ _ => ?_
        split
        · exact routes_fanOut (fun _ => rfl) fun _ => trivial
        · split
          · trivial
          · split
            · trivial
            · exact routes_insertMessage rfl fun _ => routes_appendToInboxFiles fun _ => trivial

theorem routes_rejectRouting {me : String} {host : Host} {threadId reason : String} :
    Routes i (rejectRouting me host threadId reason) w := by
  refine routes_call (fun _ _ => trivial) fun thread w' _ => ?_
  cases thread with
  | none => trivial
  | some t =>
      dsimp only
      split
      · trivial
      · refine routes_call (fun _ _ => trivial) fun msgs _ _ => ?_
        split
        · trivial
        · refine routes_call (fun _ _ => trivial) fun _ _ _ => ?_
          refine routes_insertMessage rfl fun _ => routes_appendToInboxFiles fun _ => ?_
          exact routes_call (fun _ _ => trivial) fun _ _ _ => trivial

/-- Every action of a server. -/
theorem routes_action {me : String} {host : Host} {offset : Nat} (action : Action) :
    Routes i (action.prog me host offset) w := by
  cases action with
  | sendMessage to_ content tag toTag reachable =>
      refine routes_bind ?_ fun _ _ => trivial
      unfold sendMessage
      split
      · trivial
      · refine routes_call (fun _ _ => trivial) fun _ _ _ => ?_
        exact routes_insertMessage rfl fun _ => routes_appendToInboxFiles fun _ => trivial
  | group participants content =>
      refine routes_bind ?_ fun _ _ => trivial
      unfold group
      split
      · trivial
      · exact routes_openThread
  | help routed topic question =>
      refine routes_bind ?_ fun _ _ => trivial
      unfold help
      split
      · trivial
      · exact routes_openThread
  | reply threadId content tag => exact routes_bind routes_reply fun _ _ => trivial
  | closeThread threadId reason resolution =>
      refine routes_bind ?_ fun _ _ => trivial
      refine routes_call (fun _ _ => trivial) fun thread w' _ => ?_
      cases thread with
      | none => trivial
      | some t =>
          refine routes_call (fun _ _ => trivial) fun _ _ _ => ?_
          exact routes_announce (fun _ _ => rfl) fun _ => trivial
  | claim helpId commitment =>
      refine routes_bind ?_ fun _ _ => trivial
      refine routes_call (fun _ _ => trivial) fun thread w' _ => ?_
      cases thread with
      | none => trivial
      | some t =>
          dsimp only
          split
          · trivial
          · split
            · trivial
            · refine routes_call (fun _ _ => trivial) fun _ _ _ => ?_
              exact routes_announce (fun _ _ => rfl) fun _ => trivial
  | decline threadId =>
      refine routes_bind ?_ fun _ _ => trivial
      refine routes_call (fun _ _ => trivial) fun thread w' _ => ?_
      cases thread with
      | none => trivial
      | some t =>
          dsimp only
          split
          · trivial
          · exact routes_call (fun _ _ => trivial) fun _ _ _ => trivial
  | adoptThread threadId newTag =>
      refine routes_bind ?_ fun _ _ => trivial
      refine routes_call (fun _ _ => trivial) fun thread w' _ => ?_
      cases thread with
      | none => trivial
      | some t =>
          dsimp only
          split
          · trivial
          · refine routes_call (fun _ _ => trivial) fun _ _ _ => ?_
            exact routes_call (fun _ _ => trivial) fun _ _ _ => trivial
  | rejectRouting threadId reason => exact routes_bind routes_rejectRouting fun _ _ => trivial
  | reap stale =>
      refine routes_bind ?_ fun _ _ => trivial
      exact routes_call (fun _ _ => trivial) fun _ _ _ => trivial
  | checkInbox limit tag =>
      unfold Action.prog
      refine routes_ingestInboxFile fun _ _ => ?_
      exact routes_call (fun _ _ => trivial) fun _ _ _ => trivial
  | listRoutings limit =>
      unfold Action.prog
      refine routes_ingestInboxFile fun _ _ => ?_
      exact routes_call (fun _ _ => trivial) fun _ _ _ => trivial
  | poll => exact routes_pollInbox fun _ _ => trivial
  | restart =>
      refine routes_call (fun _ _ => trivial) fun _ _ _ => ?_
      exact routes_call (fun _ _ => trivial) fun _ _ _ => trivial

/-- A server, whatever it does. -/
theorem routes_serve {me : String} {offset : Nat} {actions : List (Host × Action)} :
    Routes i (serve me offset actions) w := by
  induction actions generalizing offset w with
  | nil => trivial
  | cons act rest ih =>
      refine routes_bind (routes_action act.2) fun _ _ => ?_
      exact routes_call (fun _ _ => trivial) fun _ _ _ => ih

end Programs

/-! ## Runs -/

/-- The servers keep their promise all along a run whose polls take nothing that waits. -/
theorem routing_run (ss : List Server) {s₁ s₂ : List Nat}
    (hmeets : (servers ss).Meets (Config.NextIn fun _ => LeavesRoutings) (s₁ ++ s₂)) :
    Routed ((servers ss).run (s₁ ++ s₂)).world ∧
      routing.rel ((servers ss).run s₁).world ((servers ss).run (s₁ ++ s₂)).world := by
  have hempty : Routed ⟨McpStore.empty, []⟩ := by
    refine ⟨fun m hm => absurd hm (Table.not_mem_empty m), fun d hd => absurd hd
      (Table.not_mem_empty d), fun p hp => absurd hp List.not_mem_nil, ?_, fun m hm =>
        absurd hm (Table.not_mem_empty m)⟩
    rintro id session ⟨e, he, -⟩
    exact absurd he List.not_mem_nil
  have hstart : routing.Holds (fun _ _ _ => True) (servers ss) := by
    refine Contract.Holds.start hempty fun i p hp => ?_
    rw [List.getElem?_map] at hp
    obtain ⟨server, -, rfl⟩ := Option.map_eq_some_iff.mp hp
    exact routes_serve
  have hallows : ∀ (c : Config McpStore McpStmt.Answer Unit) (i : Nat),
      c.NextIn (fun _ => LeavesRoutings) i → routing.Allows c i := by
    intro c i h q k htask
    exact h.ok htask
  obtain ⟨hmeets₁, hmeets₂⟩ := Config.meets_append.mp hmeets
  obtain ⟨hmid, -⟩ := Contract.run hstart (hmeets₁.imp hallows)
  obtain ⟨hend, hrel⟩ := Contract.run hmid (hmeets₂.imp hallows)
  rw [Config.run_append]
  exact ⟨hend.inv, hrel⟩

/-- A message that was tagged in one state of a run, and addressed to a session, still is in a
later one, unless it has been released by then: it is undelivered, the session has not been
notified of it, and it is among its pending routings. -/
def RoutingsWait (ss : List Server) (schedule : List Nat) : Prop :=
  ∀ s₁ s₂, schedule = s₁ ++ s₂ → ∀ m ∈ ((servers ss).run s₁).world.db.messages, m.toTag ≠ none →
    ∀ session, Addressed ((servers ss).run s₁).world.log m.id session →
      ¬ Released ((servers ss).run schedule).world.log m session →
        let s := ((servers ss).run schedule).world.db
        (∃ d ∈ s.deliveries, d.messageId = m.id ∧ d.session = session ∧ d.deliveredAt = none) ∧
        (session, m.id) ∉ s.shown ∧
        ∃ m' ∈ s.messages, m'.id = m.id ∧ m'.toTag = m.toTag ∧
          ∀ limit, ((s.undelivered session).filter fun m => m.toTag.isSome).length ≤ limit →
            m' ∈ s.pendingRoutings session limit

/-- **Routings wait.** Whatever the servers do, and however they interleave: as long as no poll
takes a message that waits at a tag, a message that is addressed to a tag of a session is there
until it is adopted, declined or rejected. -/
theorem routings_wait (ss : List Server) {schedule : List Nat}
    (hmeets : (servers ss).Meets (Config.NextIn fun _ => LeavesRoutings) schedule) :
    RoutingsWait ss schedule := by
  rintro s₁ s₂ rfl m hm htag session haddressed hreleased
  obtain ⟨hrouted, hlog, hsame⟩ := routing_run ss hmeets
  obtain ⟨m', hm', hkept⟩ := hsame m hm
  have hreleased' : ¬ Released ((servers ss).run (s₁ ++ s₂)).world.log m' session := fun h =>
    hreleased ((released_congr hkept.id hkept.threadId hkept.toSession session).mp h)
  have hfree : ¬ Adopted ((servers ss).run (s₁ ++ s₂)).world.log m' := fun h =>
    hreleased' (h.imp fun _ hq => .inl hq)
  have htag' : m'.toTag = m.toTag := hkept.tag.resolve_right hfree
  have hwaits := hrouted.waits m' hm' (by rwa [htag']) hfree
  obtain ⟨e, he, hstmt⟩ := haddressed
  obtain ⟨d, hd, hid, hsession⟩ := hrouted.addressed m.id session ⟨e, hlog.mem he, hstmt⟩
  have hundelivered : d.deliveredAt = none := by
    refine hwaits.undelivered d hd (hid.trans hkept.id.symm) ?_
    rwa [hsession]
  refine ⟨⟨d, hd, hid, hsession, hundelivered⟩, ?_, m', hm', hkept.id, htag', fun limit hlimit => ?_⟩
  · rw [← hkept.id]
    exact hwaits.unseen session
  · unfold McpStore.pendingRoutings
    rw [List.take_of_length_le hlimit]
    refine List.mem_filter.mpr ⟨McpStore.mem_undelivered.mpr ⟨d, hd, hsession, hundelivered, ?_⟩, ?_⟩
    · rw [hid, ← hkept.id]
      exact Table.find_key hm'
    · rw [htag']
      exact Option.isSome_iff_ne_none.mpr htag

/-- A session sends a message, which is polled, and another one to a tag, which is listed. -/
def sampleRouting : List Server :=
  [⟨"anna", 0,
     [(.numbered "a" "10:00", .sendMessage "bert" "hello" none none true),
      (.numbered "b" "10:02", .sendMessage "bert" "see the log" none (some "research") true)]⟩,
   ⟨"bert", 0, [(.numbered "c" "10:01", .poll), (.numbered "d" "10:03", .listRoutings 20)]⟩]

theorem routings_wait_sample :
    RoutingsWait sampleRouting
      (List.replicate 5 0 ++ List.replicate 8 1 ++ List.replicate 5 0 ++ List.replicate 5 1) :=
  routings_wait sampleRouting (by decide +kernel)

/-- Both messages are sent before the session polls: it is notified of the tagged one, too. -/
theorem sampleRouting_polled :
    ¬ RoutingsWait sampleRouting (List.replicate 10 0 ++ List.replicate 13 1) := by
  intro h
  have hrows : ((servers sampleRouting).run (List.replicate 10 0)).world.db.messages.rows.drop 1 =
      [mkMessage "anna" (.numbered "b" "10:02") "b0" "b1" .message "see the log" none
        (some "research") "bert"] := by decide +kernel
  have hseen : ("bert", "b1") ∈ ((servers sampleRouting).run
      (List.replicate 10 0 ++ List.replicate 13 1)).world.db.shown := by decide +kernel
  refine (h _ _ rfl _ (List.mem_of_mem_drop (hrows ▸ List.mem_cons_self)) (by decide) "bert" ?_
    (by decide +kernel)).2.1 hseen
  exact ⟨_, .tail _ (.tail _ (.head _)), rfl⟩

end EighthLayer.CrosstalkMcp
