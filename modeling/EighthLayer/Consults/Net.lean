import EighthLayer.Consults.Routes

/-!
# EighthLayer.Consults.Net

Two L2s with a network between them: each has its tables, and what either posts to the
other may arrive at any time, in any order and any number of times.

What a request or a delivery does is first stated of it alone, as a fact about the
statements that it has issued and how they were answered (`LocalFacts`, `DeliveryFacts`);
what the statements of all have made of the tables is a fact about the log (`Net.Logged`).
-/

namespace EighthLayer.Consults

open Lib Aigrp

/-! ## Two L2s -/

/-- The two L2s. -/
inductive Side where
  | left
  | right
deriving DecidableEq

/-- The other one. -/
def Side.other : Side → Side
  | left => right
  | right => left

@[simp] theorem Side.other_other (s : Side) : s.other.other = s := by
  cases s with
  | left => rfl
  | right => rfl

theorem Side.other_ne (s : Side) : s.other ≠ s := by
  cases s with
  | left => exact nofun
  | right => exact nofun

theorem Side.eq_of_ne_other {s s' : Side} (h : s' ≠ s.other) : s' = s := by
  cases s with
  | left =>
      cases s' with
      | left => rfl
      | right => exact absurd rfl h
  | right =>
      cases s' with
      | left => exact absurd rfl h
      | right => rfl

/-- Who the two L2s are. -/
structure Sides where
  id : Side → String
  enterprise : Side → String
  id_ne : id .left ≠ id .right
  id_enterprise : ∀ s, enterpriseOf (id s) = some (enterprise s)

theorem Sides.id_other_ne (x : Sides) (s : Side) : x.id s.other ≠ x.id s := by
  cases s with
  | left => exact fun h => x.id_ne h.symm
  | right => exact x.id_ne

/-- Two L2s of one Enterprise. -/
def Sides.Siblings (x : Sides) : Prop := ∀ s, x.enterprise s.other = x.enterprise s

theorem Sides.Siblings.eq {x : Sides} (h : x.Siblings) (s s' : Side) :
    x.enterprise s' = x.enterprise s := by
  cases s with
  | left =>
      cases s' with
      | left => rfl
      | right => exact h .left
  | right =>
      cases s' with
      | left => exact h .right
      | right => rfl

/-- A consult between the two. -/
def Sides.Between (x : Sides) (h : ThreadHead) : Prop :=
  ∃ s, h.fromL2Id = x.id s ∧ h.toL2Id = x.id s.other

/-- The tables of both, and all that either has posted. -/
structure Net where
  l2 : Side → ConsultStore
  sent : List (Side × Forward)

/-- No consults on either side. -/
def Net.empty : Net := ⟨fun _ => .empty, []⟩

/-- What happens: a statement at one side, and a copy of a forward that arrives there. -/
inductive NetStmt where
  | run (s : Side) (q : ConsultStmt)
  | arrives (s : Side) (f : Forward)

/-- What a statement answers; of a copy, whether the other side has posted it. -/
@[reducible] def NetStmt.Answer : NetStmt → Type
  | run _ q => q.Answer
  | arrives _ _ => Bool

/-- What a statement adds to what has been posted. -/
def ConsultStmt.posted (s : Side) : ConsultStmt → List (Side × Forward)
  | .post f => [(s, f)]
  | _ => []

def NetStmt.exec : (q : NetStmt) → Net → q.Answer × Net
  | run s q, n =>
      ((q.exec (n.l2 s)).1,
        { l2 := Function.update n.l2 s (q.exec (n.l2 s)).2
          sent := n.sent ++ q.posted s })
  | arrives s f, n => (decide ((s.other, f) ∈ n.sent), n)

instance : Database Net NetStmt.Answer := ⟨NetStmt.exec⟩

/-- A program at one of the two L2s. -/
abbrev NetProg := Prog NetStmt.Answer (Option ConsultResponse)

/-- A route at work at one of the two L2s. -/
def onSide (s : Side) : ConsultProg → NetProg
  | .done a => .done (some a)
  | .call q k => .call (.run s q) fun a => onSide s (k a)

/-- A side as a request finds it: an L2 of its Enterprise. -/
structure SideSite (x : Sides) (s : Side) where
  site : Site
  env : Aigrp.enterprise site.env = x.enterprise s

/-- The call that a forward makes where it is posted to. -/
def Forward.call (f : Forward) : ConsultCall :=
  match f.payload with
  | .request body => .forwardRequest f.request body
  | .message body => .forwardMessage f.request body
  | .xEnterpriseRequest body => .xEnterpriseForward f.request body

/-- What goes on: a user's request at one side, and a copy of a forward on its way to one. -/
inductive MirrorTask (x : Sides) where
  | serve (s : Side) (here : SideSite x s) (call : ConsultCall) (isLocal : call.forwarder = none)
  | deliver (s : Side) (here : SideSite x s) (f : Forward)

section Tasks

variable (sch : SignatureScheme) (canonicalize : Canonicalize) {x : Sides}

/-- A copy that arrives at the L2 that it was posted to is served there. -/
def deliver (s : Side) (site : Site) (f : Forward) : NetProg :=
  .call (.arrives s f) fun (arrived : Bool) =>
    if arrived ∧ f.target = x.id s then onSide s (f.call.prog sch canonicalize site)
    else .done none

def MirrorTask.prog : MirrorTask x → NetProg
  | serve s here call _ => onSide s (call.prog sch canonicalize here.site)
  | deliver s here f => Consults.deliver sch canonicalize (x := x) s here.site f

end Tasks

/-- The message that a call would store. -/
def ConsultCall.message (site : Site) : ConsultCall → Option Message
  | request username ids body =>
      match selfIdentity site username with
      | none => none
      | some (selfId, selfPersona) =>
          match routeTo site selfId body.toL2Id with
          | .error _ => none
          | .ok routing => some (body.message site selfId selfPersona ids routing.policy)
  | reply username threadId answer =>
      match selfIdentity site username with
      | none => none
      | some (selfId, selfPersona) => some (answer.message site selfId selfPersona threadId)
  | _ => none

/-- The message that a user's request would store. -/
def MirrorTask.message {x : Sides} : MirrorTask x → Option Message
  | serve _ here call _ => call.message here.site
  | deliver _ _ _ => none

/-- The message that a forward carries, where its content does not depend on a policy. -/
def Forward.message (f : Forward) : Option Message :=
  match f.payload with
  | .request body => some (body.message body.content)
  | .message body => some body.message
  | .xEnterpriseRequest _ => none

/-! ## What the log says of the tables -/

/-- What has been executed has left its mark. -/
structure Net.Logged (w : World Net NetStmt.Answer) : Prop where
  stored : ∀ s m, m ∈ (w.db.l2 s).messages ↔
    ∃ i, (⟨i, .run s (.appendConsultMessage m), .inserted⟩ : Event NetStmt.Answer) ∈ w.log
  taken : ∀ i s m,
    (⟨i, .run s (.appendConsultMessage m), .uniqueFailed⟩ : Event NetStmt.Answer) ∈ w.log →
      ∃ m' ∈ (w.db.l2 s).messages, m'.messageId = m.messageId
  sent : ∀ s f, (s, f) ∈ w.db.sent ↔
    ∃ i, (⟨i, .run s (.post f), ()⟩ : Event NetStmt.Answer) ∈ w.log
  arrived : ∀ i s f, (⟨i, .arrives s f, true⟩ : Event NetStmt.Answer) ∈ w.log →
    (s.other, f) ∈ w.db.sent
  read : ∀ i s threadId t,
    (⟨i, .run s (.getConsult threadId), some t⟩ : Event NetStmt.Answer) ∈ w.log →
      ∃ t', (w.db.l2 s).threads.find threadId = some t' ∧ t'.toThreadHead = t.toThreadHead
  created : ∀ i s head,
    (⟨i, .run s (.createConsult head), true⟩ : Event NetStmt.Answer) ∈ w.log →
      ∃ t', (w.db.l2 s).threads.find head.threadId = some t' ∧ t'.toThreadHead = head
  closed : ∀ s k t, (w.db.l2 s).threads.find k = some t → t.status = .closed →
    ∃ i closedAt summary a,
      (⟨i, .run s (.closeConsult k closedAt summary), a⟩ : Event NetStmt.Answer) ∈ w.log

/-- What a statement makes of both sides: their tables grow, and so does what was posted. -/
structure Net.Grows (n n' : Net) : Prop where
  l2 : ∀ s, (n.l2 s).Grows (n'.l2 s)
  sent : ∀ p ∈ n.sent, p ∈ n'.sent

theorem NetStmt.exec_l2_self (s : Side) (q : ConsultStmt) (n : Net) :
    ((NetStmt.run s q).exec n).2.l2 s = (q.exec (n.l2 s)).2 := Function.update_self ..

theorem NetStmt.exec_l2_of_ne {s s' : Side} (hne : s' ≠ s) (q : ConsultStmt) (n : Net) :
    ((NetStmt.run s q).exec n).2.l2 s' = n.l2 s' := Function.update_of_ne hne ..

theorem NetStmt.grows_exec (q : NetStmt) (n : Net) : n.Grows (q.exec n).2 := by
  cases q with
  | run s q =>
      refine ⟨fun s' => ?_, fun p hp => List.mem_append_left _ hp⟩
      by_cases hs : s' = s
      · subst hs
        rw [exec_l2_self]
        exact ConsultStmt.grows_exec q _
      · rw [exec_l2_of_ne hs]
        exact .refl _
  | arrives s f => exact ⟨fun s' => .refl _, fun p hp => hp⟩

theorem NetStmt.mem_exec_messages {q : NetStmt} {n : Net} {s : Side} {m : Message} :
    m ∈ ((q.exec n).2.l2 s).messages ↔ m ∈ (n.l2 s).messages ∨
      (q = .run s (.appendConsultMessage m) ∧
        ((n.l2 s).appendConsultMessage m).1 = .inserted) := by
  cases q with
  | run s' q =>
      by_cases hs : s = s'
      · subst hs
        rw [exec_l2_self, ConsultStmt.mem_exec_messages]
        simp
      · rw [exec_l2_of_ne hs]
        simp [Ne.symm hs]
  | arrives s' f => simp [exec]

theorem NetStmt.mem_exec_sent {q : NetStmt} {n : Net} {s : Side} {f : Forward} :
    (s, f) ∈ (q.exec n).2.sent ↔ (s, f) ∈ n.sent ∨ q = .run s (.post f) := by
  cases q with
  | run s' q =>
      change (s, f) ∈ n.sent ++ q.posted s' ↔ _
      rw [List.mem_append]
      refine or_congr_right ?_
      cases q with
      | post f' => simp [ConsultStmt.posted, eq_comm]
      | getConsult | createConsult | appendConsultMessage | closeConsult =>
          simp [ConsultStmt.posted]
  | arrives s' f' => simp [exec]

theorem NetStmt.find_exec_threads {q : NetStmt} {n : Net} {s : Side} {k : String} {t' : Thread}
    (h : ((q.exec n).2.l2 s).threads.find k = some t') :
    (n.l2 s).threads.find k = some t' ∨
      (∃ closedAt summary, q = .run s (.closeConsult k closedAt summary)) ∨
      ∃ head : ThreadHead, t' = head.row := by
  cases q with
  | run s' q =>
      by_cases hs : s = s'
      · subst hs
        rw [exec_l2_self] at h
        rcases ConsultStmt.find_exec_threads h with
          ⟨t, ht, rfl | ⟨closedAt, summary, rfl, -, -⟩⟩ | ⟨-, head, -, -, rfl⟩
        · exact .inl ht
        · exact .inr (.inl ⟨closedAt, summary, rfl⟩)
        · exact .inr (.inr ⟨head, rfl⟩)
      · rw [exec_l2_of_ne hs] at h
        exact .inl h
  | arrives s' f => exact .inl h

/-- The step lemma for the log. -/
theorem Net.logged_exec (w : World Net NetStmt.Answer) (i : Nat) (q : NetStmt)
    (h : Net.Logged w) : Net.Logged (w.exec i q) := by
  have hgrows := NetStmt.grows_exec q w.db
  constructor
  · intro s m
    change m ∈ ((q.exec w.db).2.l2 s).messages ↔ _
    simp only [NetStmt.mem_exec_messages, h.stored, World.mem_exec_log]
    constructor
    · rintro (⟨j, hj⟩ | ⟨rfl, hok⟩)
      · exact ⟨j, .inl hj⟩
      · exact ⟨i, .inr ⟨rfl, rfl, hok.symm⟩⟩
    · rintro ⟨j, hj | ⟨rfl, rfl, hok⟩⟩
      · exact .inl ⟨j, hj⟩
      · exact .inr ⟨rfl, hok.symm⟩
  · intro j s m hmem
    rcases World.mem_exec_log.mp hmem with hmem | ⟨rfl, rfl, hfailed⟩
    · obtain ⟨m', hm', hid⟩ := h.taken j s m hmem
      exact ⟨m', (hgrows.l2 s).messages m' hm', hid⟩
    · change _ = ((w.db.l2 s).appendConsultMessage m).1 at hfailed
      rcases (w.db.l2 s).appendConsultMessage_cases m with ⟨hok, -⟩ | ⟨-, hthere⟩ | ⟨heq, -⟩
      · rw [hok] at hfailed
        cases hfailed
      · obtain ⟨m', hm'⟩ := Option.ne_none_iff_exists'.mp hthere
        obtain ⟨hin, hid⟩ := Table.find_eq_some_iff.mp hm'
        exact ⟨m', (hgrows.l2 s).messages m' hin, hid⟩
      · rw [heq] at hfailed
        cases hfailed
  · intro s f
    change (s, f) ∈ (q.exec w.db).2.sent ↔ _
    simp only [NetStmt.mem_exec_sent, h.sent, World.mem_exec_log]
    constructor
    · rintro (⟨j, hj⟩ | rfl)
      · exact ⟨j, .inl hj⟩
      · exact ⟨i, .inr ⟨rfl, rfl, trivial⟩⟩
    · rintro ⟨j, hj | ⟨-, rfl, -⟩⟩
      · exact .inl ⟨j, hj⟩
      · exact .inr rfl
  · intro j s f hmem
    rcases World.mem_exec_log.mp hmem with hmem | ⟨-, -, harrived⟩
    · exact hgrows.sent _ (h.arrived j s f hmem)
    · exact hgrows.sent _ (of_decide_eq_true harrived.symm)
  · intro j s threadId t hmem
    rcases World.mem_exec_log.mp hmem with hmem | ⟨-, -, hread⟩
    · obtain ⟨t', ht', hhead⟩ := h.read j s threadId t hmem
      obtain ⟨t'', ht'', hhead', -⟩ := (hgrows.l2 s).threads _ _ ht'
      exact ⟨t'', ht'', hhead'.trans hhead⟩
    · obtain ⟨t', ht', hhead, -⟩ := (hgrows.l2 s).threads threadId t hread.symm
      exact ⟨t', ht', hhead⟩
  · intro j s head hmem
    rcases World.mem_exec_log.mp hmem with hmem | ⟨-, rfl, hcreated⟩
    · obtain ⟨t', ht', hhead⟩ := h.created j s head hmem
      obtain ⟨t'', ht'', hhead', -⟩ := (hgrows.l2 s).threads _ _ ht'
      exact ⟨t'', ht'', hhead'.trans hhead⟩
    · refine ⟨head.row, ?_, rfl⟩
      change ((NetStmt.exec (.run s (.createConsult head)) w.db).2.l2 s).threads.find _ = _
      rw [NetStmt.exec_l2_self]
      exact ConsultStmt.find_of_created hcreated.symm

  · intro s k t' ht' hclosed
    change ((q.exec w.db).2.l2 s).threads.find k = some t' at ht'
    rcases NetStmt.find_exec_threads ht' with ht | ⟨closedAt, summary, rfl⟩ | ⟨head, rfl⟩
    · obtain ⟨j, closedAt, summary, a, hj⟩ := h.closed s k t' ht hclosed
      exact ⟨j, closedAt, summary, a, .tail _ hj⟩
    · exact ⟨i, closedAt, summary, _, .head _⟩
    · cases hclosed

theorem Net.logged_start : Net.Logged ⟨.empty, []⟩ where
  stored s m := by
    refine ⟨fun hm => absurd hm (Table.not_mem_empty m), ?_⟩
    rintro ⟨i, hi⟩
    exact absurd hi List.not_mem_nil
  taken _ _ _ h := absurd h List.not_mem_nil
  sent s f := by
    refine ⟨fun h => absurd h List.not_mem_nil, ?_⟩
    rintro ⟨i, hi⟩
    exact absurd hi List.not_mem_nil
  arrived _ _ _ h := absurd h List.not_mem_nil
  read _ _ _ _ h := absurd h List.not_mem_nil
  created _ _ _ h := absurd h List.not_mem_nil
  closed s k t h := by
    rw [show (Net.empty.l2 s).threads.find k = none from rfl] at h
    cases h

/-! ## Where a task works -/

/-- The side that a task is at. -/
def MirrorTask.side {x : Sides} : MirrorTask x → Side
  | serve s _ _ _ => s
  | deliver s _ _ => s

/-- Statements at one side. -/
def AtSide (s : Side) (past : List (Event NetStmt.Answer)) : Prop :=
  ∀ e ∈ past, (∃ q, e.stmt = .run s q) ∨ ∃ f, e.stmt = .arrives s f

theorem AtSide.cons {s : Side} {past : List (Event NetStmt.Answer)} (h : AtSide s past)
    {e : Event NetStmt.Answer} (he : (∃ q, e.stmt = .run s q) ∨ ∃ f, e.stmt = .arrives s f) :
    AtSide s (e :: past) := by
  intro e' he'
  rcases List.mem_cons.mp he' with rfl | he'
  · exact he
  · exact h e' he'

theorem atSide_onSide {s : Side} {i : Nat} (p : ConsultProg)
    {past : List (Event NetStmt.Answer)} (h : AtSide s past) :
    Prog.Always (fun past _ => AtSide s past) i (onSide s p) past := by
  induction p generalizing past with
  | done a => exact .done h
  | call q k ih => exact .call h fun a => ih a (h.cons (.inl ⟨q, rfl⟩))

/-- A task works at its own side. -/
theorem MirrorTask.atSide {x : Sides} {sch : SignatureScheme} {canonicalize : Canonicalize}
    (t : MirrorTask x) (i : Nat) :
    Prog.Always (fun past _ => AtSide t.side past) i (t.prog sch canonicalize) [] := by
  have hnil : AtSide t.side [] := fun e he => absurd he List.not_mem_nil
  cases t with
  | serve s here call isLocal => exact atSide_onSide _ hnil
  | deliver s here f =>
      refine .call hnil fun (arrived : Bool) => ?_
      have h := hnil.cons (e := ⟨i, .arrives s f, arrived⟩) (.inr ⟨f, rfl⟩)
      split
      · exact atSide_onSide _ h
      · exact .done h

/-! ## What a user's request does by itself -/

section Local

variable (x : Sides) (s : Side) (i : Nat) (own : Option Message)

/-- A statement of a program at one side. -/
abbrev ran (q : ConsultStmt) (a : q.Answer) : Event NetStmt.Answer := ⟨i, .run s q, a⟩

/-- A post that is accounted for: it carries the request's own message, which is stored by
then, or it went to another Enterprise under a peering. -/
def Accounted (past : List (Event NetStmt.Answer)) (f : Forward) : Prop :=
  (f.message = none ∧ enterpriseOf f.target ≠ some (x.enterprise s)) ∨
    ∃ m, own = some m ∧ f.message = some m ∧
      ran s i (.appendConsultMessage m) .inserted ∈ past

/-- What a user's request has done, as far as it has come: it has appended and posted its
own message at most. -/
structure LocalPast (past : List (Event NetStmt.Answer)) : Prop where
  appends : ∀ m a, ran s i (.appendConsultMessage m) a ∈ past → own = some m
  posts : ∀ f, ran s i (.post f) () ∈ past → Accounted x s i own past f

/-- A message that is stored has been posted, or its thread is not between the two sides. -/
def Concluded (past : List (Event NetStmt.Answer)) : Prop :=
  ∀ m, ran s i (.appendConsultMessage m) .inserted ∈ past →
    (∃ f, f.message = some m ∧ ran s i (.post f) () ∈ past) ∨
    (∃ t : Thread, ran s i (.getConsult m.threadId) (some t) ∈ past ∧
      ¬ x.Between t.toThreadHead) ∨
    (∃ head : ThreadHead, head.threadId = m.threadId ∧
      ran s i (.createConsult head) true ∈ past ∧ ¬ x.Between head)

/-- What a user's request does by itself; it ends with its message posted, unless it had no
way to post it. -/
def LocalFacts (past : List (Event NetStmt.Answer)) (p : NetProg) : Prop :=
  LocalPast x s i own past ∧
    ∀ a, p = .done a → a = some (.refused .noRouting) ∨ Concluded x s i past

variable {x s i own} {past : List (Event NetStmt.Answer)}

theorem Accounted.cons {f : Forward} (h : Accounted x s i own past f) (e : Event NetStmt.Answer) :
    Accounted x s i own (e :: past) f := by
  rcases h with hforeign | ⟨m, hown, hm, hin⟩
  · exact .inl hforeign
  · exact .inr ⟨m, hown, hm, .tail _ hin⟩

/-- The step lemma. -/
theorem LocalPast.cons {q : ConsultStmt} {a : q.Answer} (h : LocalPast x s i own past)
    (happend : ∀ m, q = .appendConsultMessage m → own = some m)
    (hpost : ∀ f, q = .post f → Accounted x s i own past f) :
    LocalPast x s i own (ran s i q a :: past) where
  appends := by
    intro m b hm
    rcases List.mem_cons.mp hm with heq | hm
    · injection heq with _ hq
      injection hq with _ hq
      exact happend m hq.symm
    · exact h.appends m b hm
  posts := by
    intro f hf
    rcases List.mem_cons.mp hf with heq | hf
    · injection heq with _ hq
      injection hq with _ hq
      exact (hpost f hq.symm).cons _
    · exact (h.posts f hf).cons _

/-- A statement that neither appends nor posts. -/
structure Quiet (q : ConsultStmt) : Prop where
  append : ∀ m, q ≠ .appendConsultMessage m
  post : ∀ f, q ≠ .post f

theorem quiet_getConsult (threadId : String) : Quiet (.getConsult threadId) :=
  ⟨fun _ h => (nomatch h), fun _ h => (nomatch h)⟩

theorem quiet_createConsult (head : ThreadHead) : Quiet (.createConsult head) :=
  ⟨fun _ h => (nomatch h), fun _ h => (nomatch h)⟩

theorem quiet_closeConsult (threadId closedAt : String) (resolutionSummary : Option String) :
    Quiet (.closeConsult threadId closedAt resolutionSummary) :=
  ⟨fun _ h => (nomatch h), fun _ h => (nomatch h)⟩

theorem LocalPast.quiet {q : ConsultStmt} (hq : Quiet q) (a : q.Answer)
    (h : LocalPast x s i own past) : LocalPast x s i own (ran s i q a :: past) :=
  h.cons (fun m heq => absurd heq (hq.append m)) fun f heq => absurd heq (hq.post f)

theorem LocalPast.append {m : Message} (hown : own = some m) (a : ConsultStore.Appended)
    (h : LocalPast x s i own past) :
    LocalPast x s i own (ran s i (.appendConsultMessage m) a :: past) := by
  refine h.cons ?_ fun _ heq => nomatch heq
  rintro _ ⟨⟩
  exact hown

theorem LocalPast.post {f : Forward} (hf : Accounted x s i own past f)
    (h : LocalPast x s i own past) : LocalPast x s i own (ran s i (.post f) () :: past) := by
  refine h.cons (fun _ heq => nomatch heq) ?_
  rintro _ ⟨⟩
  exact hf

theorem localPast_nil : LocalPast x s i own [] where
  appends _ _ h := absurd h List.not_mem_nil
  posts _ h := absurd h List.not_mem_nil

theorem Concluded.cons {e : Event NetStmt.Answer} (h : Concluded x s i past)
    (he : ∀ m, e ≠ ran s i (.appendConsultMessage m) .inserted) :
    Concluded x s i (e :: past) := by
  intro m hm
  rcases List.mem_cons.mp hm with heq | hm
  · exact absurd heq.symm (he m)
  · rcases h m hm with ⟨f, hf, hin⟩ | ⟨t, ht, hnot⟩ | ⟨head, hid, hhead, hnot⟩
    · exact .inl ⟨f, hf, .tail _ hin⟩
    · exact .inr (.inl ⟨t, .tail _ ht, hnot⟩)
    · exact .inr (.inr ⟨head, hid, .tail _ hhead, hnot⟩)

theorem concluded_nil : Concluded x s i [] := fun _ hm => absurd hm List.not_mem_nil

/-- Statements other than appends. -/
theorem ran_ne_append {q : ConsultStmt} {a : q.Answer} (hq : ∀ m, q ≠ .appendConsultMessage m)
    (m : Message) : ran s i q a ≠ ran s i (.appendConsultMessage m) .inserted := by
  intro heq
  injection heq with _ hstmt
  injection hstmt with _ hstmt
  exact hq m hstmt

theorem Concluded.quiet {q : ConsultStmt} (hq : Quiet q) (a : q.Answer)
    (h : Concluded x s i past) : Concluded x s i (ran s i q a :: past) :=
  h.cons (ran_ne_append hq.append)

/-- An append that failed. -/
theorem ran_ne_inserted {m₀ : Message} {a : ConsultStore.Appended} (ha : a ≠ .inserted)
    (m : Message) :
    ran s i (.appendConsultMessage m₀) a ≠ ran s i (.appendConsultMessage m) .inserted := by
  intro heq
  injection heq with _ hstmt hanswer
  injection hstmt with _ hstmt
  cases hstmt
  exact ha hanswer

/-- Once its message is posted, a request has nothing left to do. -/
theorem concluded_of_posted {f : Forward} {m : Message} (h : LocalPast x s i own past)
    (hown : own = some m) (hm : f.message = some m) (hf : ran s i (.post f) () ∈ past) :
    Concluded x s i past := by
  intro m' hm'
  have heq := h.appends m' .inserted hm'
  rw [hown] at heq
  cases heq
  exact .inl ⟨f, hm, hf⟩

/-- A route that a user's request runs, with what it has done before. -/
abbrev LocalRuns (x : Sides) (s : Side) (i : Nat) (own : Option Message) (p : ConsultProg)
    (past : List (Event NetStmt.Answer)) : Prop :=
  Prog.Always (LocalFacts x s i own) i (onSide s p) past

theorem runs_done {a : ConsultResponse} (h : LocalPast x s i own past)
    (hend : a = .refused .noRouting ∨ Concluded x s i past) :
    LocalRuns x s i own (.done a) past := by
  refine .done ⟨h, ?_⟩
  rintro _ ⟨⟩
  rcases hend with rfl | hend
  · exact .inl rfl
  · exact .inr hend

theorem runs_call {q : ConsultStmt} {k : q.Answer → ConsultProg} (h : LocalPast x s i own past)
    (hrest : ∀ a, LocalRuns x s i own (k a) (ran s i q a :: past)) :
    LocalRuns x s i own (.call q k) past := by
  refine .call ⟨h, ?_⟩ hrest
  rintro _ ⟨⟩

theorem runs_answerThread {threadId : String} (h : LocalPast x s i own past)
    (hend : Concluded x s i past) : LocalRuns x s i own (answerThread threadId) past := by
  unfold answerThread
  refine runs_call h fun (row : Option Thread) => ?_
  have h' := h.quiet (quiet_getConsult threadId) row
  have hend' := hend.quiet (quiet_getConsult threadId) row
  cases row with
  | none => exact runs_done h' (.inr hend')
  | some t => exact runs_done h' (.inr hend')

/-- The post of a stored message. -/
theorem runs_forwardTo {site : Site} {target : PeerRow} {payload : Payload} {next : ConsultProg}
    {m : Message} (h : LocalPast x s i own past) (hown : own = some m)
    (hin : ran s i (.appendConsultMessage m) .inserted ∈ past)
    (hm : ∀ headers, Forward.message ⟨target.l2Id, headers, payload⟩ = some m)
    (hnext : ∀ past', LocalPast x s i own past' → Concluded x s i past' →
      LocalRuns x s i own next past') :
    LocalRuns x s i own (forwardTo site target payload next) past := by
  unfold forwardTo
  split
  · exact runs_done h (.inl rfl)
  · refine runs_call h fun (_ : Unit) => ?_
    have h' := h.post (f := ⟨target.l2Id, buildForwardHeaders site target.l2Id payload, payload⟩)
      (.inr ⟨m, hown, hm _, hin⟩)
    have hend := concluded_of_posted h' hown (hm _) (.head _)
    split
    · exact hnext _ h' hend
    · exact runs_done h' (.inr hend)

/-- A post to another Enterprise. -/
theorem runs_forwardAcross {site : Site} {peering : DirectoryPeering} {target : L2Endpoint}
    {body : ForwardRequestBody} {next : ConsultProg} (h : LocalPast x s i own past)
    (hend : Concluded x s i past)
    (hforeign : ∀ l2Id, target.l2Id = some l2Id → enterpriseOf l2Id ≠ some (x.enterprise s))
    (hnext : ∀ past', LocalPast x s i own past' → Concluded x s i past' →
      LocalRuns x s i own next past') :
    LocalRuns x s i own (forwardAcross site peering target (.xEnterpriseRequest body) next)
      past := by
  unfold forwardAcross
  split
  · rename_i url request l2Id hrequest hl2
    refine runs_call h fun (_ : Unit) => ?_
    have h' := h.post (f := ⟨l2Id, request, .xEnterpriseRequest body⟩)
      (.inl ⟨rfl, hforeign l2Id hl2⟩)
    have hend' := hend.cons (e := ran s i (.post ⟨l2Id, request, .xEnterpriseRequest body⟩) ())
      (ran_ne_append fun _ heq => nomatch heq)
    split
    · exact hnext _ h' hend'
    · exact runs_done h' (.inr hend')
  · exact runs_done h (.inr hend)

/-! ### Opening -/

/-- A routing that leaves this L2 for another one. -/
theorem routeTo_spec {site : Site} {selfId toL2Id : String} {routing : Routing}
    (h : routeTo site selfId toL2Id = .ok routing) :
    (routing = .sameL2 ∧ toL2Id = selfId) ∨
    (∃ peer, routing = .sibling peer ∧ peer.l2Id = toL2Id) ∨
    ∃ peering target, routing = .xEnterprise peering target ∧ target.l2Id = some toL2Id ∧
      enterpriseOf toL2Id ≠ some (enterprise site.env) := by
  unfold routeTo at h
  split at h
  · rename_i hself
    cases h
    exact .inl ⟨rfl, hself⟩
  · split at h
    · cases h
    · rename_i targetEnterprise hent
      split at h
      · split at h
        · cases h
        · rename_i peer hpeer
          cases h
          exact .inr (.inl ⟨peer, rfl, resolvePeer_l2Id hpeer⟩)
      · rename_i hother
        split at h
        · cases h
        · rename_i peering target htarget
          cases h
          refine .inr (.inr ⟨peering, target, rfl, ?_, ?_⟩)
          · exact resolveXEnterpriseTarget_l2Id htarget
          · rw [hent]
            exact fun heq => hother (Option.some.inj heq)

/-- A thread that leaves the two sides. -/
theorem not_between_of_foreign (hsiblings : x.Siblings) {head : ThreadHead}
    (hforeign : enterpriseOf head.toL2Id ≠ some (x.enterprise s)) : ¬ x.Between head := by
  rintro ⟨s', -, hto⟩
  rw [hto, x.id_enterprise, hsiblings.eq s] at hforeign
  exact hforeign rfl

/-- A thread that stays at one side. -/
theorem not_between_of_eq {head : ThreadHead} (heq : head.toL2Id = head.fromL2Id) :
    ¬ x.Between head := by
  rintro ⟨s', hfrom, hto⟩
  rw [hfrom, hto] at heq
  exact x.id_other_ne s' heq

/-- An append that has failed leaves nothing to conclude. -/
theorem runs_failed {m : Message} {a : ConsultStore.Appended} (h : LocalPast x s i own past)
    (hown : own = some m) (ha : a ≠ .inserted) (hend : Concluded x s i past) :
    LocalRuns x s i own (.done (.refused .internalError))
      (ran s i (.appendConsultMessage m) a :: past) := by
  exact runs_done (h.append hown a) (.inr (hend.cons (ran_ne_inserted ha)))

theorem runs_openConsult (hsiblings : x.Siblings) {here : SideSite x s} {selfId selfPersona : String} {ids : OpeningIds}
    {body : ConsultRequest} {routing : Routing}
    (hrouting : routeTo here.site selfId body.toL2Id = .ok routing)
    (hown : own = some (body.message here.site selfId selfPersona ids routing.policy)) :
    LocalRuns x s i own (openConsult here.site selfId selfPersona ids body routing) [] := by
  unfold openConsult
  refine runs_call localPast_nil fun (created : Bool) => ?_
  have hquiet := quiet_createConsult (body.head here.site selfId selfPersona ids)
  have h₁ := LocalPast.quiet hquiet created (@localPast_nil x s i own)
  have hend₁ := Concluded.quiet hquiet created (@concluded_nil x s i)
  cases created with
  | false => exact runs_done h₁ (.inr hend₁)
  | true =>
      -- a thread that is not between the two sides leaves nothing to conclude
      have hapart : ∀ past, ran s i (.createConsult (body.head here.site selfId selfPersona ids))
          true ∈ past → LocalPast x s i own past →
          ¬ x.Between (body.head here.site selfId selfPersona ids) → Concluded x s i past := by
        intro past hin hpast hnot m hm
        have heq := hpast.appends m .inserted hm
        rw [hown] at heq
        cases heq
        exact .inr (.inr ⟨_, rfl, hin, hnot⟩)
      have hlogged : "mutual_log_required" ≠ "no_log_consults" := by decide
      rw [if_pos rfl]
      rcases routeTo_spec hrouting with ⟨rfl, hself⟩ | ⟨peer, rfl, hpeer⟩ |
        ⟨peering, target, rfl, htarget, hforeign⟩
      · rw [if_neg (show Routing.sameL2.policy ≠ _ from hlogged)]
        refine runs_call h₁ fun (appended : ConsultStore.Appended) => ?_
        cases appended with
        | inserted =>
            have h₂ := h₁.append hown .inserted
            exact runs_answerThread h₂ (hapart _ (.tail _ (.head _)) h₂ (not_between_of_eq hself))
        | uniqueFailed => exact runs_failed h₁ hown nofun hend₁
        | foreignKeyFailed => exact runs_failed h₁ hown nofun hend₁
      · rw [if_neg (show Routing.policy (.sibling peer) ≠ _ from hlogged)]
        refine runs_call h₁ fun (appended : ConsultStore.Appended) => ?_
        cases appended with
        | inserted =>
            have h₂ := h₁.append hown .inserted
            exact runs_forwardTo h₂ hown (.head _) (fun _ => rfl) fun _ h hend =>
              runs_answerThread h hend
        | uniqueFailed => exact runs_failed h₁ hown nofun hend₁
        | foreignKeyFailed => exact runs_failed h₁ hown nofun hend₁
      · rw [here.env] at hforeign
        have hannounce : ∀ past, ran s i (.createConsult
            (body.head here.site selfId selfPersona ids)) true ∈ past →
            LocalPast x s i own past → LocalRuns x s i own
              (announceOpening here.site selfId selfPersona ids body
                (.xEnterprise peering target)) past := by
          intro past hin hpast
          refine runs_forwardAcross hpast (hapart past hin hpast (not_between_of_foreign hsiblings hforeign))
            ?_ fun _ h hend => runs_answerThread h hend
          intro l2Id hl2
          cases htarget.symm.trans hl2
          exact hforeign
        split
        · exact hannounce _ (.head _) h₁
        · refine runs_call h₁ fun (appended : ConsultStore.Appended) => ?_
          cases appended with
          | inserted =>
              have h₂ := h₁.append hown .inserted
              exact hannounce _ (.tail _ (.head _)) h₂
          | uniqueFailed => exact runs_failed h₁ hown nofun hend₁
          | foreignKeyFailed => exact runs_failed h₁ hown nofun hend₁

/-! ### Replying and closing -/

/-- A reply to a thread between the two sides goes to the other one. -/
theorem replyTarget_none {site : Site} {selfId selfPersona : String} {t : Thread}
    (hpart : t.Participant selfId selfPersona)
    (h : replyTarget site selfId selfPersona t = .ok none) : ¬ x.Between t.toThreadHead := by
  unfold replyTarget at h
  dsimp only at h
  split at h
  · rename_i hother
    refine not_between_of_eq ?_
    unfold otherL2Id at hother
    split at hother
    · rename_i hfrom
      exact hother.trans hfrom.1.symm
    · rename_i hnot
      rcases hpart with hfrom | hto
      · exact absurd hfrom hnot
      · exact hto.1.trans hother.symm
  · split at h
    · cases h
    · cases h

theorem runs_appendReply {site : Site} {selfId selfPersona threadId : String} {t : Thread}
    {reply : Reply} {target : Option PeerRow} (h : LocalPast x s i own past)
    (hend : Concluded x s i past)
    (hown : own = some (reply.message site selfId selfPersona threadId))
    (hread : ran s i (.getConsult threadId) (some t) ∈ past)
    (hnone : target = none → ¬ x.Between t.toThreadHead) :
    LocalRuns x s i own (appendReply site selfId selfPersona t reply threadId target) past := by
  unfold appendReply
  refine runs_call h fun (appended : ConsultStore.Appended) => ?_
  cases appended with
  | inserted =>
      have h' := h.append hown .inserted
      cases target with
      | none =>
          refine runs_done h' (.inr fun m hm => ?_)
          have heq := h'.appends m .inserted hm
          rw [hown] at heq
          cases heq
          exact .inr (.inl ⟨t, .tail _ hread, hnone rfl⟩)
      | some peer =>
          exact runs_forwardTo h' hown (.head _) (fun _ => rfl) fun _ h hend =>
            runs_done h (.inr hend)
  | uniqueFailed => exact runs_failed h hown (fun heq => nomatch heq) hend
  | foreignKeyFailed => exact runs_failed h hown (fun heq => nomatch heq) hend

theorem runs_postConsultMessage {site : Site} {username threadId : String} {reply : Reply}
    (hown : own = ConsultCall.message site (.reply username threadId reply)) :
    LocalRuns x s i own (postConsultMessage site username threadId reply) [] := by
  unfold postConsultMessage
  split
  · exact runs_done localPast_nil (.inr concluded_nil)
  · rename_i selfId selfPersona hself
    simp only [ConsultCall.message, hself] at hown
    refine runs_call localPast_nil fun (thread : Option Thread) => ?_
    have h' := LocalPast.quiet (quiet_getConsult threadId) thread (@localPast_nil x s i own)
    have hend' := Concluded.quiet (quiet_getConsult threadId) thread (@concluded_nil x s i)
    cases thread with
    | none => exact runs_done h' (.inr hend')
    | some t =>
        dsimp only
        split
        · exact runs_done h' (.inr hend')
        · rename_i hpart
          split
          · exact runs_done h' (.inr hend')
          · split
            · exact runs_done h' (.inr hend')
            · rename_i target htarget
              refine runs_appendReply h' hend' hown (.head _) ?_
              rintro rfl
              exact replyTarget_none (not_not.mp hpart) htarget

theorem runs_closeConsult {site : Site} {username threadId : String}
    {resolutionSummary : Option String} :
    LocalRuns x s i own (closeConsult site username threadId resolutionSummary) [] := by
  unfold closeConsult
  split
  · exact runs_done localPast_nil (.inr concluded_nil)
  · refine runs_call localPast_nil fun (thread : Option Thread) => ?_
    have h' := LocalPast.quiet (quiet_getConsult threadId) thread (@localPast_nil x s i own)
    have hend' := Concluded.quiet (quiet_getConsult threadId) thread (@concluded_nil x s i)
    cases thread with
    | none => exact runs_done h' (.inr hend')
    | some t =>
        dsimp only
        split
        · exact runs_done h' (.inr hend')
        · have hquiet := quiet_closeConsult threadId site.now.isoformat resolutionSummary
          refine runs_call h' fun (closed : Bool) => ?_
          exact runs_answerThread (h'.quiet hquiet closed) (hend'.quiet hquiet closed)

/-- Every request of a user's. -/
theorem runs_local (hsiblings : x.Siblings) {sch : SignatureScheme} {canonicalize : Canonicalize} {here : SideSite x s}
    {call : ConsultCall} (hlocal : call.forwarder = none)
    (hown : own = call.message here.site) :
    LocalRuns x s i own (call.prog sch canonicalize here.site) [] := by
  cases call with
  | request username ids body =>
      change LocalRuns x s i own (requestConsult here.site username ids body) []
      unfold requestConsult
      split
      · exact runs_done localPast_nil (.inr concluded_nil)
      · rename_i selfId selfPersona hself
        simp only [ConsultCall.message, hself] at hown
        split
        · exact runs_done localPast_nil (.inr concluded_nil)
        · rename_i routing hrouting
          simp only [hrouting] at hown
          exact runs_openConsult hsiblings hrouting hown
  | reply username threadId reply => exact runs_postConsultMessage hown
  | close username threadId resolutionSummary => exact runs_closeConsult
  | forwardRequest | forwardMessage | xEnterpriseForward => cases hlocal

end Local

/-! ## What a delivery does by itself -/

section Delivered

variable (x : Sides) (s : Side) (i : Nat) (f : Forward)

/-- The copy has arrived, at the L2 that the forward was posted to. -/
def ArrivedHere (past : List (Event NetStmt.Answer)) : Prop :=
  (⟨i, .arrives s f, true⟩ : Event NetStmt.Answer) ∈ past ∧ f.target = x.id s

/-- What a delivery has done, as far as it has come: it has neither closed nor posted
anything, and appended what the forward carries. -/
structure DeliveryPast (past : List (Event NetStmt.Answer)) : Prop where
  closes : ∀ threadId closedAt summary a,
    ran s i (.closeConsult threadId closedAt summary) a ∉ past
  posts : ∀ g, ran s i (.post g) () ∉ past
  appends : ∀ m a, ran s i (.appendConsultMessage m) a ∈ past →
    ArrivedHere x s i f past ∧ (f.message = none ∨ f.message = some m)

/-- What a delivery does by itself; it reports success once the message is stored. -/
def DeliveryFacts (past : List (Event NetStmt.Answer)) (p : NetProg) : Prop :=
  DeliveryPast x s i f past ∧
    ∀ threadId policy m, p = .done (some (.mirrored threadId policy)) → f.message = some m →
      ∃ a, a ≠ .foreignKeyFailed ∧ ran s i (.appendConsultMessage m) a ∈ past

variable {x s i f} {past : List (Event NetStmt.Answer)}

theorem ArrivedHere.cons (h : ArrivedHere x s i f past) (e : Event NetStmt.Answer) :
    ArrivedHere x s i f (e :: past) := ⟨.tail _ h.1, h.2⟩

/-- A copy that arrives. -/
theorem deliveryPast_arrives (arrived : Bool) :
    DeliveryPast x s i f [⟨i, .arrives s f, arrived⟩] where
  closes := by
    intro threadId closedAt summary a h
    injection List.mem_singleton.mp h with _ hstmt
    cases hstmt
  posts := by
    intro g h
    injection List.mem_singleton.mp h with _ hstmt
    cases hstmt
  appends := by
    intro m a h
    injection List.mem_singleton.mp h with _ hstmt
    cases hstmt

/-- The step lemma. -/
theorem DeliveryPast.cons {q : ConsultStmt} {a : q.Answer} (h : DeliveryPast x s i f past)
    (hclose : ∀ threadId closedAt summary, q ≠ .closeConsult threadId closedAt summary)
    (hpost : ∀ g, q ≠ .post g)
    (happend : ∀ m, q = .appendConsultMessage m →
      ArrivedHere x s i f past ∧ (f.message = none ∨ f.message = some m)) :
    DeliveryPast x s i f (ran s i q a :: past) where
  closes := by
    intro threadId closedAt summary b hin
    rcases List.mem_cons.mp hin with heq | hin
    · injection heq with _ hstmt
      injection hstmt with _ hstmt
      exact hclose threadId closedAt summary hstmt.symm
    · exact h.closes threadId closedAt summary b hin
  posts := by
    intro g hin
    rcases List.mem_cons.mp hin with heq | hin
    · injection heq with _ hstmt
      injection hstmt with _ hstmt
      exact hpost g hstmt.symm
    · exact h.posts g hin
  appends := by
    intro m b hin
    rcases List.mem_cons.mp hin with heq | hin
    · injection heq with _ hstmt
      injection hstmt with _ hstmt
      exact (happend m hstmt.symm).imp (fun harrived => harrived.cons _) id
    · exact (h.appends m b hin).imp (fun harrived => harrived.cons _) id

theorem DeliveryPast.getConsult (h : DeliveryPast x s i f past) (threadId : String)
    (row : Option Thread) : DeliveryPast x s i f (ran s i (.getConsult threadId) row :: past) :=
  h.cons (fun _ _ _ heq => nomatch heq) (fun _ heq => nomatch heq) fun _ heq => nomatch heq

theorem DeliveryPast.createConsult (h : DeliveryPast x s i f past) (head : ThreadHead)
    (created : Bool) :
    DeliveryPast x s i f (ran s i (.createConsult head) created :: past) :=
  h.cons (fun _ _ _ heq => nomatch heq) (fun _ heq => nomatch heq) fun _ heq => nomatch heq

theorem DeliveryPast.append (h : DeliveryPast x s i f past) {m : Message}
    (harrived : ArrivedHere x s i f past) (hm : f.message = none ∨ f.message = some m)
    (a : ConsultStore.Appended) :
    DeliveryPast x s i f (ran s i (.appendConsultMessage m) a :: past) := by
  refine h.cons (fun _ _ _ heq => nomatch heq) (fun _ heq => nomatch heq) ?_
  rintro _ ⟨⟩
  exact ⟨harrived, hm⟩

/-- What is left of a delivery, with what it has done before. -/
abbrev Delivers (x : Sides) (s : Side) (i : Nat) (f : Forward) (p : ConsultProg)
    (past : List (Event NetStmt.Answer)) : Prop :=
  Prog.Always (DeliveryFacts x s i f) i (onSide s p) past

theorem delivers_refused (h : DeliveryPast x s i f past) (r : ConsultRefusal) :
    Delivers x s i f (.done (.refused r)) past := by
  refine .done ⟨h, ?_⟩
  rintro threadId policy m ⟨⟩

theorem delivers_call {q : ConsultStmt} {k : q.Answer → ConsultProg}
    (h : DeliveryPast x s i f past)
    (hrest : ∀ a, Delivers x s i f (k a) (ran s i q a :: past)) :
    Delivers x s i f (.call q k) past := by
  refine .call ⟨h, ?_⟩ hrest
  rintro threadId policy m ⟨⟩

/-- The forward carries the message that a mirroring would store, if its content does not
depend on a policy. -/
def Carries (f : Forward) (w : Mirroring) : Prop := f.message = none ∨ w.message = f.message

/-- The last part of a mirroring. -/
theorem delivers_append {w : Mirroring} (hw : Carries f w) (h : DeliveryPast x s i f past)
    (harrived : ArrivedHere x s i f past) : Delivers x s i f w.append past := by
  unfold Mirroring.append
  split
  · rename_i hnone
    refine .done ⟨h, fun threadId policy m _ hm => ?_⟩
    rcases hw with hw | hw
    · cases hw.symm.trans hm
    · cases hnone.symm.trans (hw.trans hm)
  · rename_i m hm
    unfold appendMirrored
    refine delivers_call h fun (appended : ConsultStore.Appended) => ?_
    have h' := h.append harrived (m := m) (hw.imp id fun heq => heq.symm.trans hm) appended
    have hstored : appended ≠ .foreignKeyFailed →
        Delivers x s i f (.done w.answer) (ran s i (.appendConsultMessage m) appended :: past) := by
      intro ha
      refine .done ⟨h', fun threadId policy m' _ hm' => ?_⟩
      rcases hw with hw | hw
      · cases hw.symm.trans hm'
      · cases hm.symm.trans (hw.trans hm')
        exact ⟨appended, ha, .head _⟩
    cases appended with
    | inserted => exact hstored nofun
    | uniqueFailed => exact hstored nofun
    | foreignKeyFailed => exact delivers_refused h' _

theorem delivers_mirroring {w : Mirroring} (hw : Carries f w) (h : DeliveryPast x s i f past)
    (harrived : ArrivedHere x s i f past) : Delivers x s i f w.prog past := by
  unfold Mirroring.prog
  refine delivers_call h fun (existing : Option Thread) => ?_
  have h' := h.getConsult w.threadId existing
  have harrived' := harrived.cons (ran s i (.getConsult w.threadId) existing)
  cases existing with
  | some t => exact delivers_append hw h' harrived'
  | none =>
      dsimp only
      split
      · exact delivers_refused h' _
      · rename_i head _
        unfold Mirroring.create
        refine delivers_call h' fun (created : Bool) => ?_
        have h'' := h'.createConsult head created
        cases created with
        | true => exact delivers_append hw h'' (harrived'.cons _)
        | false => exact delivers_refused h'' _

/-- What a forward is let in to mirror is what it carries. -/
theorem carries_of_admitted {sch : SignatureScheme} {canonicalize : Canonicalize} {site : Site}
    {w : Mirroring} (h : f.call.admitted sch canonicalize site = some w) : Carries f w := by
  obtain ⟨target, request, payload⟩ := f
  cases payload with
  | request body =>
      obtain ⟨rfl, -⟩ := admitRequest_ok (toOption_eq_some h)
      exact .inr rfl
  | message body =>
      obtain ⟨rfl, -⟩ := admitMessage_ok (toOption_eq_some h)
      exact .inr rfl
  | xEnterpriseRequest body => exact .inl rfl

theorem Forward.call_forwarder (f : Forward) : f.call.forwarder ≠ none := by
  obtain ⟨target, request, payload⟩ := f
  cases payload with
  | request | message | xEnterpriseRequest => exact nofun

/-- Every delivery. -/
theorem delivers {sch : SignatureScheme} {canonicalize : Canonicalize} {site : Site} :
    Prog.Always (DeliveryFacts x s i f) i (deliver sch canonicalize (x := x) s site f) [] := by
  unfold deliver
  refine .call ⟨⟨?_, ?_, ?_⟩, ?_⟩ fun (arrived : Bool) => ?_
  · exact fun _ _ _ _ h => absurd h List.not_mem_nil
  · exact fun _ h => absurd h List.not_mem_nil
  · exact fun _ _ h => absurd h List.not_mem_nil
  · rintro threadId policy m ⟨⟩
  · have h := @deliveryPast_arrives x s i f arrived
    split
    · rename_i hhere
      obtain ⟨rfl, htarget⟩ := hhere
      have harrived : ArrivedHere x s i f [⟨i, .arrives s f, true⟩] := ⟨.head _, htarget⟩
      rcases ConsultCall.prog_of_forwarder f.call_forwarder with ⟨-, r, hr⟩ | ⟨w, hw, hprog⟩
      · rw [hr]
        exact delivers_refused h r
      · rw [hprog]
        exact delivers_mirroring (carries_of_admitted hw) h harrived
    · refine .done ⟨h, ?_⟩
      rintro threadId policy m ⟨⟩

end Delivered

end EighthLayer.Consults
