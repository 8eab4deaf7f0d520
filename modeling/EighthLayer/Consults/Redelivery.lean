import EighthLayer.Consults.Routes

/-!
# EighthLayer.Consults.Redelivery

One forward, delivered many times, the deliveries interleaved statement by statement.

Whatever the interleaving, the tables end as after one delivery. A message that is there
already is no failure. A thread that another delivery has created between the check and
the insert is: that delivery answers 500. `redelivery` says that this is the only way for
a delivery to fail.
-/

namespace EighthLayer.Consults

open Lib Aigrp

/-! ## One delivery -/

section One

variable (w : Mirroring) (s : ConsultStore)

/-- A forward that will find its thread, or can create it. -/
def Mirroring.Grounded : Prop := s.threads.find w.threadId ≠ none ∨ w.head ≠ none

/-- The tables once the thread of a forward is there. -/
def Mirroring.opened : ConsultStore :=
  match s.threads.find w.threadId, w.head with
  | none, some head => ((ConsultStmt.createConsult head).exec s).2
  | _, _ => s

/-- The tables after one delivery. -/
def Mirroring.delivered : ConsultStore :=
  match w.message with
  | none => w.opened s
  | some m => ((ConsultStmt.appendConsultMessage m).exec (w.opened s)).2

end One

variable {w : Mirroring} {s : ConsultStore}

theorem exec_createConsult_missing {head : ThreadHead} {s : ConsultStore}
    (h : s.threads.find head.threadId = none) :
    ((ConsultStmt.createConsult head).exec s).1 = true := by
  unfold ConsultStmt.exec
  dsimp only
  split
  · rename_i hnone
    exact absurd h (ConsultStore.createConsult_eq_none_iff.mp hnone)
  · rfl

/-- A thread is not created twice. -/
theorem exec_createConsult_there {head : ThreadHead} {s : ConsultStore}
    (h : s.threads.find head.threadId ≠ none) :
    (ConsultStmt.createConsult head).exec s = (false, s) := by
  unfold ConsultStmt.exec
  dsimp only
  rw [ConsultStore.createConsult_eq_none_iff.mpr h]

theorem Mirroring.opened_there (h : s.threads.find w.threadId ≠ none) : w.opened s = s := by
  unfold opened
  split
  · rename_i hnone _
    exact absurd hnone h
  · rfl

theorem Mirroring.opened_missing {head : ThreadHead} (h : s.threads.find w.threadId = none)
    (hhead : w.head = some head) :
    w.opened s = ((ConsultStmt.createConsult head).exec s).2 := by
  unfold opened
  rw [h, hhead]

/-- The thread of a grounded forward is there once it has been opened. -/
theorem Mirroring.opened_find (hw : w.Grounded s) :
    (w.opened s).threads.find w.threadId ≠ none := by
  by_cases h : s.threads.find w.threadId = none
  · obtain ⟨head, hhead⟩ := Option.ne_none_iff_exists'.mp (hw.resolve_left (not_not.mpr h))
    have hid := w.head_threadId head hhead
    have hmissing := h
    rw [← hid] at hmissing
    rw [w.opened_missing h hhead, ← hid,
      ConsultStmt.find_of_created (exec_createConsult_missing hmissing)]
    exact nofun
  · rw [w.opened_there h]
    exact h

/-- Appending to a thread that is there: the row is new, or it is there already. -/
theorem append_there {m : Message} {s : ConsultStore} (h : s.threads.find m.threadId ≠ none) :
    (s.appendConsultMessage m).1 ≠ .foreignKeyFailed := by
  rcases s.appendConsultMessage_cases m with ⟨hok, -⟩ | ⟨heq, -⟩ | ⟨-, -, hnone⟩
  · rw [hok]
    exact nofun
  · rw [heq]
    exact nofun
  · exact absurd hnone h

/-- A second append of a row finds it there. -/
theorem append_twice {m : Message} {s : ConsultStore} (h : s.threads.find m.threadId ≠ none) :
    (s.appendConsultMessage m).2.appendConsultMessage m =
      (.uniqueFailed, (s.appendConsultMessage m).2) := by
  have hfound : (s.appendConsultMessage m).2.messages.find m.messageId ≠ none := by
    rcases s.appendConsultMessage_cases m with ⟨-, -, -, -, hins⟩ | ⟨heq, hthere⟩ | ⟨-, -, hnone⟩
    · rw [Table.find_insert_self hins]
      exact nofun
    · rw [heq]
      exact hthere
    · exact absurd hnone h
  rcases (s.appendConsultMessage m).2.appendConsultMessage_cases m with
    ⟨-, hnone, -⟩ | ⟨heq, -⟩ | ⟨-, hnone, -⟩
  · exact absurd hnone hfound
  · exact heq
  · exact absurd hnone hfound

theorem Mirroring.grows_opened (w : Mirroring) (s : ConsultStore) : s.Grows (w.opened s) := by
  unfold opened
  split
  · exact ConsultStmt.grows_exec _ s
  · exact .refl s

theorem Mirroring.grows_delivered (w : Mirroring) (s : ConsultStore) :
    (w.opened s).Grows (w.delivered s) := by
  unfold delivered
  split
  · exact .refl _
  · exact ConsultStmt.grows_exec _ _

/-- A thread that is there stays there. -/
theorem find_ne_none_of_grows {s s' : ConsultStore} {k : String} (h : s.threads.find k ≠ none)
    (hgrows : s.Grows s') : s'.threads.find k ≠ none := by
  obtain ⟨t, ht⟩ := Option.ne_none_iff_exists'.mp h
  obtain ⟨t', ht', -⟩ := hgrows.threads k t ht
  rw [ht']
  exact nofun

/-- What an append does at each of the two stages at which the thread is there. -/
theorem Mirroring.exec_append (hw : w.Grounded s) {m : Message} (hm : w.message = some m)
    {t : ConsultStore} (ht : t = w.opened s ∨ t = w.delivered s) :
    ((ConsultStmt.appendConsultMessage m).exec t).2 = w.delivered s ∧
      ((ConsultStmt.appendConsultMessage m).exec t).1 ≠ .foreignKeyFailed := by
  have hthere := w.opened_find hw
  rw [← w.message_threadId m hm] at hthere
  have hdelivered : w.delivered s = ((w.opened s).appendConsultMessage m).2 := by
    unfold delivered
    rw [hm]
    rfl
  rcases ht with rfl | rfl
  · exact ⟨hdelivered.symm, append_there hthere⟩
  · rw [hdelivered]
    have htwice : (ConsultStmt.appendConsultMessage m).exec
        ((w.opened s).appendConsultMessage m).2 = _ := append_twice hthere
    rw [htwice]
    exact ⟨rfl, nofun⟩

/-- A program alone, by what its first statement does. -/
theorem alone_call_of_exec {q : ConsultStmt} {k : q.Answer → ConsultProg} {s s' : ConsultStore}
    {a : q.Answer} (ha : (q.exec s).1 = a) (hs : (q.exec s).2 = s') :
    Prog.alone (.call q k : ConsultProg) s = (k a).alone s' := by
  change (k (q.exec s).1).alone (q.exec s).2 = _
  rw [ha, hs]

theorem Mirroring.alone_append (hw : w.Grounded s) :
    w.append.alone (w.opened s) = (w.answer, w.delivered s) := by
  unfold append
  cases hm : w.message with
  | none =>
      have hdelivered : w.delivered s = w.opened s := by
        unfold delivered
        rw [hm]
      rw [hdelivered]
      rfl
  | some m =>
      obtain ⟨hdb, hanswer⟩ := w.exec_append hw hm (.inl rfl)
      dsimp only
      unfold appendMirrored
      rw [alone_call_of_exec rfl hdb]
      split
      · rfl
      · rfl
      · rename_i hfailed
        exact absurd hfailed hanswer

/-- One delivery alone. -/
theorem Mirroring.alone_prog (hw : w.Grounded s) : w.prog.alone s = (w.answer, w.delivered s) := by
  have happend := w.alone_append hw
  unfold prog
  rw [@alone_call_of_exec (.getConsult w.threadId) _ s s (s.threads.find w.threadId) rfl rfl]
  cases hfind : s.threads.find w.threadId with
  | some t =>
      have hthere : s.threads.find w.threadId ≠ none := by
        rw [hfind]
        exact nofun
      rw [w.opened_there hthere] at happend
      exact happend
  | none =>
      obtain ⟨head, hhead⟩ := Option.ne_none_iff_exists'.mp (hw.resolve_left (not_not.mpr hfind))
      have hmissing := hfind
      rw [← w.head_threadId head hhead] at hmissing
      simp only [hhead]
      unfold create
      rw [alone_call_of_exec (exec_createConsult_missing hmissing)
        (w.opened_missing hfind hhead).symm]
      exact happend

/-! ## Many deliveries -/

/-- How far a delivery has come, and what the tables are like then. -/
inductive Delivering (w : Mirroring) (s : ConsultStore) : ConsultProg → ConsultStore → Prop
  | start {t : ConsultStore} : Delivering w s w.prog t
  /-- It has found the thread missing. -/
  | creating {t : ConsultStore} {head : ThreadHead} (hhead : w.head = some head)
      (hmissing : s.threads.find w.threadId = none) : Delivering w s (w.create head) t
  /-- It has found or created the thread. -/
  | appending {t : ConsultStore} (hthere : t.threads.find w.threadId ≠ none) :
      Delivering w s w.append t
  | succeeded {t : ConsultStore} (ht : t = w.delivered s) : Delivering w s (.done w.answer) t
  /-- Another delivery has created the thread first. -/
  | failed {t : ConsultStore} (hmissing : s.threads.find w.threadId = none)
      (hthere : t.threads.find w.threadId ≠ none) :
      Delivering w s (.done (.refused .internalError)) t

/-- A delivery that has found or created its thread. -/
def Mirroring.OnItsWay (w : Mirroring) (p : ConsultProg) : Prop :=
  p = w.append ∨ p = .done w.answer

/-- The state of a run of deliveries: the tables are at one of three stages, each delivery
has come as far as they say, and where the thread has been created somebody did it. -/
structure Redelivering (w : Mirroring) (s : ConsultStore)
    (c : Config ConsultStore ConsultStmt.Answer ConsultResponse) : Prop where
  stage : c.world.db = s ∨ c.world.db = w.opened s ∨ c.world.db = w.delivered s
  tasks : ∀ (i : Nat) (p : ConsultProg), c.tasks[i]? = some p → Delivering w s p c.world.db
  creator : s.threads.find w.threadId = none → c.world.db.threads.find w.threadId ≠ none →
    ∃ (i : Nat) (p : ConsultProg), c.tasks[i]? = some p ∧ w.OnItsWay p

/-- Where the thread is there, the tables are at one of the two later stages. -/
theorem stage_of_there {t : ConsultStore} (h : t = s ∨ t = w.opened s ∨ t = w.delivered s)
    (hthere : t.threads.find w.threadId ≠ none) : t = w.opened s ∨ t = w.delivered s := by
  rcases h with rfl | h
  · exact .inl (w.opened_there hthere).symm
  · exact h

theorem Mirroring.append_ne_failed (w : Mirroring) :
    w.append ≠ .done (.refused .internalError) := by
  unfold append
  split
  · exact nofun
  · exact nofun

/-- What one statement of a delivery does: `q` is the statement, `p` the delivery before it
and `p'` after it. -/
structure DeliveryStep (w : Mirroring) (s t t' : ConsultStore) (q : ConsultStmt)
    (p p' : ConsultProg) : Prop where
  grows : t.Grows t'
  stage : t' = s ∨ t' = w.opened s ∨ t' = w.delivered s
  /-- The last stage is not left. -/
  final : t = w.delivered s → t' = w.delivered s
  next : Delivering w s p' t'
  stays : w.OnItsWay p → w.OnItsWay p'
  creator : t'.threads.find w.threadId ≠ none →
    t.threads.find w.threadId ≠ none ∨ w.OnItsWay p'
  /-- The one way to fail. -/
  fails : p' = .done (.refused .internalError) ↔
    ∃ head, q = .createConsult head ∧ t.threads.find head.threadId ≠ none

/-- A delivery that begins. -/
theorem start_step (hw : w.Grounded s) {t : ConsultStore}
    (ht : t = s ∨ t = w.opened s ∨ t = w.delivered s) {p' : ConsultProg}
    (hp' : p' = match t.threads.find w.threadId with
      | some _ => w.append
      | none => match w.head with
        | none => .done (.refused .threadMetadataMissing)
        | some head => w.create head) :
    DeliveryStep w s t t (.getConsult w.threadId) w.prog p' := by
  have hdelivering : Delivering w s p' t ∧ p' ≠ .done (.refused .internalError) := by
    cases hfind : t.threads.find w.threadId with
    | some thread =>
        rw [hfind] at hp'
        subst hp'
        refine ⟨.appending ?_, w.append_ne_failed⟩
        rw [hfind]
        exact nofun
    | none =>
        have hmissing : s.threads.find w.threadId = none := by
          by_contra hthere
          rcases ht with rfl | rfl | rfl
          · exact hthere hfind
          · exact w.opened_find hw hfind
          · exact find_ne_none_of_grows (w.opened_find hw) (w.grows_delivered s) hfind
        obtain ⟨head, hhead⟩ :=
          Option.ne_none_iff_exists'.mp (hw.resolve_left (not_not.mpr hmissing))
        rw [hfind] at hp'
        simp only [hhead] at hp'
        subst hp'
        exact ⟨.creating hhead hmissing, nofun⟩
  refine ⟨.refl t, ht, id, hdelivering.1, ?_, .inl, ?_⟩
  · -- a delivery that has not begun is not on its way
    rintro (h | h)
    · unfold Mirroring.append at h
      split at h
      · cases h
      · cases h
    · cases h
  · refine ⟨fun h => absurd h hdelivering.2, ?_⟩
    rintro ⟨_, hq, -⟩
    cases hq

/-- A delivery that creates the thread, or finds that another one has. -/
theorem creating_step (hw : w.Grounded s) {t : ConsultStore} {head : ThreadHead}
    (ht : t = s ∨ t = w.opened s ∨ t = w.delivered s) (hhead : w.head = some head)
    (hmissing : s.threads.find w.threadId = none) {created : Bool}
    (hcreated : created = ((ConsultStmt.createConsult head).exec t).1) :
    DeliveryStep w s t ((ConsultStmt.createConsult head).exec t).2 (.createConsult head)
      (w.create head) (if created then w.append else .done (.refused .internalError)) := by
  have hid := w.head_threadId head hhead
  have hway : ¬ w.OnItsWay (w.create head) := by
    rintro (h | h)
    · unfold Mirroring.append at h
      split at h
      · cases h
      · cases h
    · cases h
  have hdelivered := find_ne_none_of_grows (w.opened_find hw) (w.grows_delivered s)
  by_cases hthere : t.threads.find w.threadId = none
  · -- the first to create the thread
    have ht' : t = s := by
      rcases ht with rfl | rfl | rfl
      · rfl
      · exact absurd hthere (w.opened_find hw)
      · exact absurd hthere hdelivered
    subst ht'
    have hfree := hthere
    rw [← hid] at hfree
    rw [exec_createConsult_missing hfree] at hcreated
    rw [← w.opened_missing hthere hhead, hcreated, if_pos rfl]
    refine ⟨w.grows_opened t, .inr (.inl rfl), ?_, .appending (w.opened_find hw),
      fun h => absurd h hway, fun _ => .inr (.inl rfl), ?_⟩
    · intro h
      rw [h] at hthere
      exact absurd hthere hdelivered
    · refine ⟨fun h => absurd h w.append_ne_failed, ?_⟩
      rintro ⟨_, hq, hnot⟩
      cases hq
      exact absurd hfree hnot
  · have hthere' := hthere
    rw [← hid] at hthere'
    rw [exec_createConsult_there hthere'] at hcreated ⊢
    rw [hcreated, if_neg Bool.false_ne_true]
    exact ⟨.refl t, ht, id, .failed hmissing hthere, fun h => absurd h hway, .inl,
      fun _ => ⟨head, rfl, hthere'⟩, fun _ => rfl⟩

/-- A delivery that appends its message. -/
theorem appending_step (hw : w.Grounded s) {t : ConsultStore} {m : Message}
    (ht : t = s ∨ t = w.opened s ∨ t = w.delivered s) (hm : w.message = some m)
    (hthere : t.threads.find w.threadId ≠ none) {p' : ConsultProg}
    (hp' : p' = match ((ConsultStmt.appendConsultMessage m).exec t).1 with
      | .inserted | .uniqueFailed => .done w.answer
      | .foreignKeyFailed => .done (.refused .internalError)) :
    DeliveryStep w s t ((ConsultStmt.appendConsultMessage m).exec t).2 (.appendConsultMessage m)
      w.append p' := by
  obtain ⟨hdb, hanswer⟩ := w.exec_append hw hm (stage_of_there ht hthere)
  have hp : p' = .done w.answer := by
    rw [hp']
    split
    · rfl
    · rfl
    · rename_i hfailed
      exact absurd hfailed hanswer
  subst hp
  refine ⟨ConsultStmt.grows_exec _ t, .inr (.inr hdb), fun _ => hdb, .succeeded hdb,
    fun _ => .inr rfl, fun _ => .inr (.inr rfl), nofun, ?_⟩
  rintro ⟨_, hq, -⟩
  cases hq

/-- The step lemma: one statement of a delivery, by how far the delivery has come. -/
theorem delivering_step (hw : w.Grounded s) {t : ConsultStore} {q : ConsultStmt}
    {k : q.Answer → ConsultProg} (ht : t = s ∨ t = w.opened s ∨ t = w.delivered s)
    (hp : Delivering w s (.call q k) t) :
    DeliveryStep w s t (q.exec t).2 q (.call q k) (k (q.exec t).1) := by
  generalize hprog : (.call q k : ConsultProg) = p at hp
  cases hp with
  | start =>
      cases hprog
      exact start_step hw ht rfl
  | creating hhead hmissing =>
      cases hprog
      exact creating_step hw ht hhead hmissing rfl
  | appending hthere =>
      have happend := hprog
      unfold Mirroring.append at hprog
      cases hm : w.message with
      | none =>
          rw [hm] at hprog
          cases hprog
      | some m =>
          rw [hm] at hprog
          rw [← happend]
          cases hprog
          rw [happend]
          refine appending_step hw ht hm hthere ?_
          dsimp only
          cases ((ConsultStmt.appendConsultMessage m).exec t).1 with
          | inserted | uniqueFailed => rfl
          | foreignKeyFailed => rfl
  | succeeded => cases hprog
  | failed => cases hprog

/-- What the other deliveries have come to stays true. -/
theorem Delivering.mono {t t' : ConsultStore} {p : ConsultProg} (hp : Delivering w s p t)
    (hgrows : t.Grows t') (hfinal : t = w.delivered s → t' = w.delivered s) :
    Delivering w s p t' := by
  cases hp with
  | start => exact .start
  | creating hhead hmissing => exact .creating hhead hmissing
  | appending hthere => exact .appending (find_ne_none_of_grows hthere hgrows)
  | succeeded ht => exact .succeeded (hfinal ht)
  | failed hmissing hthere => exact .failed hmissing (find_ne_none_of_grows hthere hgrows)

variable {c : Config ConsultStore ConsultStmt.Answer ConsultResponse}

/-- One step of a run of deliveries. -/
theorem Redelivering.step (hw : w.Grounded s) (h : Redelivering w s c) (i : Nat) :
    Redelivering w s (c.step i) := by
  rcases c.step_cases i with heq | ⟨q, k, htask, heq⟩
  · rw [heq]
    exact h
  · have hstep := delivering_step hw h.stage (h.tasks i _ htask)
    have hi := (List.getElem?_eq_some_iff.mp htask).1
    rw [heq]
    refine ⟨hstep.stage, ?_, ?_⟩
    · intro j p hp
      rw [List.getElem?_set] at hp
      split at hp
      · cases hp
        exact hstep.next
      · exact (h.tasks j p hp).mono hstep.grows hstep.final
    · intro hmissing hthere
      rcases hstep.creator hthere with hthere | hway
      · obtain ⟨j, p, hp, hway⟩ := h.creator hmissing hthere
        by_cases hij : i = j
        · subst hij
          cases htask.symm.trans hp
          exact ⟨i, _, List.getElem?_set_self hi, hstep.stays hway⟩
        · exact ⟨j, p, (List.getElem?_set_ne hij).trans hp, hway⟩
      · exact ⟨i, _, List.getElem?_set_self hi, hway⟩

theorem Redelivering.run (hw : w.Grounded s) (h : Redelivering w s c) (schedule : List Nat) :
    Redelivering w s (c.run schedule) := by
  induction schedule generalizing c with
  | nil => exact h
  | cons i schedule ih => exact ih (h.step hw i)

/-- How a delivery ends: with success once the tables are complete, or with a failure after
another delivery has created the thread. -/
theorem Redelivering.answered (h : Redelivering w s c) {i : Nat} {a : ConsultResponse}
    (ha : c.Answered i a) :
    (a = w.answer ∧ c.world.db = w.delivered s) ∨
      (a = .refused .internalError ∧ s.threads.find w.threadId = none ∧
        c.world.db.threads.find w.threadId ≠ none) := by
  have htask := h.tasks i _ ha
  generalize hprog : (.done a : ConsultProg) = p at htask
  cases htask with
  | start => cases hprog
  | creating => cases hprog
  | appending hthere =>
      unfold Mirroring.append at hprog
      cases hm : w.message with
      | none =>
          rw [hm] at hprog
          cases hprog
          have hdelivered : w.delivered s = w.opened s := by
            unfold Mirroring.delivered
            rw [hm]
          refine .inl ⟨rfl, ?_⟩
          rcases stage_of_there h.stage hthere with hdb | hdb
          · rw [hdb, hdelivered]
          · exact hdb
      | some m =>
          rw [hm] at hprog
          cases hprog
  | succeeded hdb =>
      cases hprog
      exact .inl ⟨rfl, hdb⟩
  | failed hmissing hthere =>
      cases hprog
      exact .inr ⟨rfl, hmissing, hthere⟩

theorem Redelivering.start {progs : List ConsultProg} (hprogs : ∀ p ∈ progs, p = w.prog) :
    Redelivering w s (Config.start s progs) where
  stage := .inl rfl
  tasks := by
    intro i p hp
    rw [hprogs p (List.mem_of_getElem? hp)]
    exact .start
  creator := fun hmissing hthere => absurd hmissing hthere

/-- Whoever creates the thread next finds it missing still: no other delivery has created
it since the check. -/
def CreatesMissing (c : Config ConsultStore ConsultStmt.Answer ConsultResponse) (i : Nat) : Prop :=
  ∀ head k, c.tasks[i]? = some (.call (.createConsult head) k) →
    c.world.db.threads.find head.threadId = none

/-- A delivery fails at a step just when it creates a thread that is there. -/
theorem Redelivering.step_failed (hw : w.Grounded s) (h : Redelivering w s c) {i : Nat}
    {q : ConsultStmt} {k : q.Answer → ConsultProg} (htask : c.tasks[i]? = some (.call q k)) :
    (c.step i).Answered i (.refused .internalError) ↔ ¬ CreatesMissing c i := by
  have hstep := delivering_step hw h.stage (h.tasks i _ htask)
  have hself : (c.step i).tasks[i]? = some (k (q.exec c.world.db).1) := by
    rw [Config.step_call htask]
    exact List.getElem?_set_self (List.getElem?_eq_some_iff.mp htask).1
  unfold Config.Answered CreatesMissing
  rw [hself, Option.some.injEq, hstep.fails, htask]
  constructor
  · rintro ⟨head, rfl, hthere⟩ hmissing
    exact hthere (hmissing head k rfl)
  · intro hmissing
    by_contra hnone
    refine hmissing fun head k' hcall => ?_
    cases hcall
    by_contra hthere
    exact hnone ⟨head, rfl, hthere⟩

/-- No delivery has failed. -/
def NoneFailed (c : Config ConsultStore ConsultStmt.Answer ConsultResponse) : Prop :=
  ∀ i, ¬ c.Answered i (.refused .internalError)

theorem noneFailed_step (hw : w.Grounded s) (h : Redelivering w s c) (hnone : NoneFailed c)
    {i : Nat} (hok : CreatesMissing c i) : NoneFailed (c.step i) := by
  intro j hfailed
  by_cases hij : i = j
  · subst hij
    rcases c.step_cases i with heq | ⟨q, k, htask, -⟩
    · rw [heq] at hfailed
      exact hnone i hfailed
    · exact (h.step_failed hw htask).mp hfailed hok
  · unfold Config.Answered at hfailed
    rw [c.step_task_of_ne hij] at hfailed
    exact hnone j hfailed

theorem noneFailed_run (hw : w.Grounded s) (h : Redelivering w s c) (hnone : NoneFailed c)
    {schedule : List Nat} (hmeets : c.Meets CreatesMissing schedule) :
    NoneFailed (c.run schedule) := by
  have hboth : Redelivering w s (c.run schedule) ∧ NoneFailed (c.run schedule) :=
    Config.run_induction (P := fun c => Redelivering w s c ∧ NoneFailed c)
      (fun c i hc hok => ⟨hc.1.step hw i, noneFailed_step hw hc.1 hc.2 hok⟩) ⟨h, hnone⟩ hmeets
  exact hboth.2

/-- A run in which no delivery has failed has met the condition at every step. -/
theorem meets_of_noneFailed (hw : w.Grounded s) (h : Redelivering w s c) {schedule : List Nat}
    (hnone : NoneFailed (c.run schedule)) : c.Meets CreatesMissing schedule := by
  induction schedule generalizing c with
  | nil => trivial
  | cons i schedule ih =>
      refine ⟨?_, ih (h.step hw i) hnone⟩
      by_contra hmissing
      have hcalls : ∃ head k, c.tasks[i]? = some (.call (.createConsult head) k) := by
        by_contra hno
        exact hmissing fun head k htask => absurd ⟨head, k, htask⟩ hno
      obtain ⟨head, k, htask⟩ := hcalls
      -- a failure is not taken back
      have hfailed := (h.step_failed hw htask).mpr hmissing
      exact hnone i (Config.answered_run hfailed schedule)

/-- Once every delivery has ended, the tables are those after one delivery. -/
theorem Redelivering.delivered_of_ended (h : Redelivering w s c)
    (hended : ∀ i < c.tasks.length, ∃ a, c.Answered i a) (hne : c.tasks ≠ []) :
    c.world.db = w.delivered s := by
  obtain ⟨a, ha⟩ := hended 0 (List.length_pos_iff.mpr hne)
  rcases h.answered ha with ⟨-, hdb⟩ | ⟨-, hmissing, hthere⟩
  · exact hdb
  · -- somebody has created the thread, and has not failed
    obtain ⟨j, p, hp, hway⟩ := h.creator hmissing hthere
    obtain ⟨b, hb⟩ := hended j (List.getElem?_eq_some_iff.mp hp).1
    cases hp.symm.trans hb
    rcases h.answered hb with ⟨-, hdb⟩ | ⟨hfailed, -⟩
    · exact hdb
    · subst hfailed
      rcases hway with hway | hway
      · exact absurd hway.symm w.append_ne_failed
      · cases hway

/-! ## The deliveries of a forward -/

section Deliveries

variable (sch : SignatureScheme) (canonicalize : Canonicalize)

/-- The deliveries of one forward, each at the L2 as it finds it. -/
def deliveries (call : ConsultCall) (sites : List Site) : List ConsultProg :=
  sites.map fun site => call.prog sch canonicalize site

variable {sch canonicalize}

/-- A mirroring has at most three statements. -/
theorem Mirroring.prog_ends (w : Mirroring) : w.prog.EndsWithin 3 := by
  have happend : w.append.EndsWithin 1 := by
    unfold append
    split
    · exact .done
    · refine .call fun (appended : ConsultStore.Appended) => ?_
      cases appended with
      | inserted | uniqueFailed | foreignKeyFailed => exact .done
  have hmono : ∀ {n : Nat} {p : ConsultProg}, p.EndsWithin n → p.EndsWithin (n + 1) := by
    intro n p hp
    induction hp with
    | done => exact .done
    | call hk ih => exact .call ih
  refine .call fun (existing : Option Thread) => ?_
  cases existing with
  | some thread => exact hmono happend
  | none =>
      dsimp only
      split
      · exact .done
      · refine .call fun (created : Bool) => ?_
        cases created with
        | true => exact happend
        | false => exact .done

/-- **Redelivery.** Each delivery ends within three statements of its own. Once all have
ended, the tables are those after one delivery; and all have reported success just when no
delivery created a thread that another had created since it was found missing. -/
theorem redelivery {call : ConsultCall} {sites : List Site}
    (hadmitted : ∀ site ∈ sites, call.admitted sch canonicalize site = some w)
    (hw : w.Grounded s) (schedule : List Nat) :
    let c := Config.start s (deliveries sch canonicalize call sites)
    ((∀ i < sites.length, 3 ≤ schedule.count i) →
      ∀ i < sites.length, ∃ a, (c.run schedule).Answered i a) ∧
    (sites ≠ [] → (∀ i < sites.length, ∃ a, (c.run schedule).Answered i a) →
      (c.run schedule).world.db = (w.prog.alone s).2 ∧
      ((∀ i < sites.length, (c.run schedule).Answered i w.answer) ↔
        c.Meets CreatesMissing schedule)) := by
  intro c
  have hlength : (c.run schedule).tasks.length = sites.length := by
    rw [Config.run_length]
    exact List.length_map ..
  have hprogs : ∀ p ∈ deliveries sch canonicalize call sites, p = w.prog := by
    intro p hp
    obtain ⟨site, hsite, rfl⟩ := List.mem_map.mp hp
    exact ConsultCall.prog_of_admitted (hadmitted site hsite)
  have hstart : Redelivering w s c := .start hprogs
  have hrun := hstart.run hw schedule
  refine ⟨fun hturns i hi => ?_, fun hne hended => ⟨?_, fun hall => ?_, fun hmeets i hi => ?_⟩⟩
  · obtain ⟨p, hp⟩ : ∃ p, c.tasks[i]? = some p := by
      refine ⟨_, List.getElem?_eq_getElem ?_⟩
      rw [← Config.run_length c schedule, hlength]
      exact hi
    have hends := hprogs p (List.mem_of_getElem? hp) ▸ w.prog_ends
    exact Config.answered_of_count hp hends (hturns i hi)
  · rw [Mirroring.alone_prog hw]
    rw [← hlength] at hended
    refine hrun.delivered_of_ended hended fun hnil => hne ?_
    rw [hnil] at hlength
    exact List.eq_nil_of_length_eq_zero hlength.symm
  · refine meets_of_noneFailed hw hstart fun i hfailed => ?_
    have hi := (List.getElem?_eq_some_iff.mp hfailed).1
    rw [hlength] at hi
    cases (hall i hi).symm.trans hfailed
  · have hnone : NoneFailed c := by
      intro j hfailed
      have hprog := hprogs _ (List.mem_of_getElem? hfailed)
      cases hprog
    have hnone := noneFailed_run hw hstart hnone hmeets
    obtain ⟨a, ha⟩ := hended i hi
    rcases hrun.answered ha with ⟨rfl, -⟩ | ⟨rfl, -⟩
    · exact ha
    · exact absurd ha (hnone i)

end Deliveries

/-! ## Two deliveries -/

/-- Alice's request to bob, as acme's sales forwards it. -/
def forwardedOnce : ConsultCall :=
  .forwardRequest (siblingHeaders "acme/sales") (bodyFrom "acme/sales")

/-- It arrives twice at acme's eng. -/
def twice : List Site := [acmeSite "eng" noPeers, acmeSite "eng" noPeers]

/-- The run of the two deliveries. -/
def twiceRun (schedule : List Nat) : Config ConsultStore ConsultStmt.Answer ConsultResponse :=
  (Config.start .empty (deliveries .transparent sampleCanonicalize forwardedOnce twice)).run
    schedule

theorem forwardedOnce_admitted : ∀ site ∈ twice,
    forwardedOnce.admitted .transparent sampleCanonicalize site =
      some (bodyFrom "acme/sales").mirroring := by
  have hsite : ∀ site ∈ twice, site = acmeSite "eng" noPeers := by simp [twice]
  intro site h
  rw [hsite site h]
  have hsome : (forwardedOnce.admitted .transparent sampleCanonicalize
      (acmeSite "eng" noPeers)).isSome = true := by decide +kernel
  obtain ⟨w, hw⟩ := Option.isSome_iff_exists.mp hsome
  have hok : admitRequest .transparent sampleCanonicalize (acmeSite "eng" noPeers)
      (siblingHeaders "acme/sales") (bodyFrom "acme/sales") = .ok w := toOption_eq_some hw
  rw [hw, (admitRequest_ok hok).1]

/-- One after the other: each creates the thread only where it is missing. -/
theorem redelivery_in_turn :
    (twiceRun [0, 0, 0, 1, 1, 1]).world.db =
      ((bodyFrom "acme/sales").mirroring.prog.alone ConsultStore.empty).2 ∧
    (twiceRun []).Meets CreatesMissing [0, 0, 0, 1, 1, 1] := by
  obtain ⟨hends, hmain⟩ := @redelivery (bodyFrom "acme/sales").mirroring .empty .transparent
    sampleCanonicalize forwardedOnce twice forwardedOnce_admitted (.inr nofun) [0, 0, 0, 1, 1, 1]
  obtain ⟨hdb, hiff⟩ := hmain nofun (hends (by decide))
  refine ⟨hdb, hiff.mp fun i hi => ?_⟩
  have hanswers : ∀ i < 2, (twiceRun [0, 0, 0, 1, 1, 1]).tasks[i]?.bind Prog.result =
      some (bodyFrom "acme/sales").mirroring.answer := by decide +kernel
  exact Config.answered_iff_result.mpr (hanswers i hi)

/-- Both find the thread missing; the second to create it answers 500. -/
theorem second_delivery_fails :
    (∀ site ∈ twice, forwardedOnce.admitted .transparent sampleCanonicalize site =
      some (bodyFrom "acme/sales").mirroring) ∧
    (twiceRun [0, 1, 0, 0, 1]).Answered 0 (bodyFrom "acme/sales").mirroring.answer ∧
    (twiceRun [0, 1, 0, 0, 1]).Answered 1 (.refused .internalError) := by
  refine ⟨forwardedOnce_admitted, ?_, ?_⟩
  · rw [Config.answered_iff_result]
    decide +kernel
  · rw [Config.answered_iff_result]
    decide +kernel

end EighthLayer.Consults
