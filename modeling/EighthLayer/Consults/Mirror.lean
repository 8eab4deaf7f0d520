import EighthLayer.Consults.Logging
import EighthLayer.Consults.Net

/-!
# EighthLayer.Consults.Mirror

The two copies of a consult.

A side takes no request of its own users' that begins after it has recorded the consult as
closed. It does take what the other side forwards, and a close is not forwarded: the two
sides end with the same messages, and need not end with the same status.
-/

namespace EighthLayer.Consults

open Lib Aigrp

section Runs

variable (sch : SignatureScheme) (canonicalize : Canonicalize) {x : Sides}

/-- The two L2s without consults, and all that is about to go on. -/
def mirrorStart (tasks : List (MirrorTask x)) : Config Net NetStmt.Answer (Option ConsultResponse) :=
  .start .empty (tasks.map (MirrorTask.prog sch canonicalize))

/-- And what has become of it. -/
abbrev mirrorRun (tasks : List (MirrorTask x)) (schedule : List Nat) :
    Config Net NetStmt.Answer (Option ConsultResponse) :=
  (mirrorStart sch canonicalize tasks).run schedule

variable {sch canonicalize} {tasks : List (MirrorTask x)} {schedule : List Nat}

theorem mirrorStart_task {i : Nat} {t : MirrorTask x} (ht : tasks[i]? = some t) :
    (mirrorStart sch canonicalize tasks).tasks[i]? = some (t.prog sch canonicalize) := by
  simp [mirrorStart, Config.start, ht]

/-- What a task does by itself, it does in every run. -/
theorem task_run {Φ : List (Event NetStmt.Answer) → NetProg → Prop} {i : Nat} {t : MirrorTask x}
    (ht : tasks[i]? = some t) (h : Prog.Always Φ i (t.prog sch canonicalize) []) :
    ∃ p, (mirrorRun sch canonicalize tasks schedule).tasks[i]? = some p ∧
      Φ ((mirrorRun sch canonicalize tasks schedule).world.own i) p := by
  obtain ⟨p, hp, halways⟩ := Config.run_always (mirrorStart_task ht) h schedule
  exact ⟨p, hp, halways.now⟩

/-- The log tells the tables. -/
theorem logged_run : Net.Logged (mirrorRun sch canonicalize tasks schedule).world :=
  Config.run_world Net.logged_exec Net.logged_start schedule

/-- Each statement was a task's, at its side. -/
theorem task_of_ran {i : Nat} {s : Side} {q : ConsultStmt} {a : q.Answer}
    (h : ran s i q a ∈ (mirrorRun sch canonicalize tasks schedule).world.log) :
    ∃ t, tasks[i]? = some t ∧ t.side = s ∧
      ran s i q a ∈ (mirrorRun sch canonicalize tasks schedule).world.own i := by
  have hlt := Config.task_lt_of_mem_log (c := mirrorStart sch canonicalize tasks)
    (fun e he => absurd he List.not_mem_nil) schedule _ h
  simp only [mirrorStart, Config.start, List.length_map] at hlt
  have hown : ran s i q a ∈ (mirrorRun sch canonicalize tasks schedule).world.own i :=
    World.mem_own.mpr ⟨h, rfl⟩
  obtain ⟨t, ht⟩ : ∃ t, tasks[i]? = some t := ⟨_, List.getElem?_eq_getElem hlt⟩
  obtain ⟨p, -, hside⟩ := @task_run sch canonicalize x tasks schedule _ i t ht (t.atSide i)
  refine ⟨t, ht, ?_, hown⟩
  rcases hside _ hown with ⟨q', hq'⟩ | ⟨f, hf⟩
  · exact (NetStmt.run.inj hq').1.symm
  · cases hf

/-! ## Where the messages come from -/

/-- The ids that `uuid4` gives to the messages of users are not given twice. -/
def FreshIds (tasks : List (MirrorTask x)) : Prop :=
  ((tasks.filterMap MirrorTask.message).map Message.messageId).Nodup

theorem FreshIds.eq {i j : Nat} {t t' : MirrorTask x} {m m' : Message} (h : FreshIds tasks)
    (ht : tasks[i]? = some t) (hm : t.message = some m) (ht' : tasks[j]? = some t')
    (hm' : t'.message = some m') (hid : m.messageId = m'.messageId) : m = m' :=
  List.inj_on_of_nodup_map h
    (List.mem_filterMap.mpr ⟨t, List.mem_of_getElem? ht, hm⟩)
    (List.mem_filterMap.mpr ⟨t', List.mem_of_getElem? ht', hm'⟩) hid

section Siblings

variable (hsiblings : x.Siblings)

include hsiblings

/-- A user's request, in every run. -/
theorem served_run {i : Nat} {s : Side} {here : SideSite x s} {call : ConsultCall}
    {isLocal : call.forwarder = none} (ht : tasks[i]? = some (.serve s here call isLocal)) :
    ∃ p, (mirrorRun sch canonicalize tasks schedule).tasks[i]? = some p ∧
      LocalFacts x s i (call.message here.site)
        ((mirrorRun sch canonicalize tasks schedule).world.own i) p :=
  task_run ht (runs_local hsiblings isLocal rfl)

/-- What has been posted was posted by a user's request, which had stored what it carries. -/
theorem sender_of_sent {s : Side} {f : Forward}
    (h : (s, f) ∈ (mirrorRun sch canonicalize tasks schedule).world.db.sent) :
    ∃ i here call isLocal, tasks[i]? = some (.serve s here call isLocal) ∧
      Accounted x s i (call.message here.site)
        ((mirrorRun sch canonicalize tasks schedule).world.own i) f := by
  obtain ⟨i, hi⟩ := (logged_run.sent s f).mp h
  obtain ⟨t, ht, hside, hown⟩ := task_of_ran hi
  cases t with
  | serve s' here call isLocal =>
      cases hside
      obtain ⟨p, -, hpast, -⟩ := @served_run sch canonicalize x tasks schedule hsiblings i _ here
        call isLocal ht
      exact ⟨i, here, call, isLocal, ht, hpast.posts f hown⟩
  | deliver s' here f' =>
      cases hside
      obtain ⟨p, -, hpast, -⟩ := @task_run sch canonicalize x tasks schedule _ i _ ht delivers
      exact absurd hown (hpast.posts f)

/-- **Provenance.** A message, wherever it is, was stored by a user's request at one of the
two sides. -/
theorem provenance {s : Side} {m : Message}
    (h : m ∈ ((mirrorRun sch canonicalize tasks schedule).world.db.l2 s).messages) :
    ∃ i s' here call isLocal, tasks[i]? = some (.serve s' here call isLocal) ∧
      call.message here.site = some m ∧
      ran s' i (.appendConsultMessage m) .inserted ∈
        (mirrorRun sch canonicalize tasks schedule).world.own i := by
  obtain ⟨i, hi⟩ := (logged_run.stored s m).mp h
  obtain ⟨t, ht, hside, hown⟩ := task_of_ran hi
  cases t with
  | serve s' here call isLocal =>
      cases hside
      obtain ⟨p, -, hpast, -⟩ := @served_run sch canonicalize x tasks schedule hsiblings i _ here
        call isLocal ht
      exact ⟨i, _, here, call, isLocal, ht, hpast.appends m _ hown, hown⟩
  | deliver s' here f =>
      cases hside
      obtain ⟨p, -, hpast, -⟩ := @task_run sch canonicalize x tasks schedule _ i _ ht delivers
      obtain ⟨⟨harrived, htarget⟩, hcarried⟩ := hpast.appends m _ hown
      have hsent := logged_run.arrived i _ f (World.mem_own.mp harrived).1
      obtain ⟨k, here', call', isLocal', hk, haccounted⟩ := sender_of_sent hsiblings hsent
      rcases haccounted with ⟨-, hforeign⟩ | ⟨m', hm', hf, hstored⟩
      · -- what goes to another Enterprise does not arrive here
        rw [htarget, x.id_enterprise, hsiblings.eq] at hforeign
        exact absurd rfl hforeign
      · have heq : m' = m := by
          rcases hcarried with hnone | hsome
          · cases hf.symm.trans hnone
          · exact Option.some.inj (hf.symm.trans hsome)
        subst heq
        exact ⟨k, _, here', call', isLocal', hk, hm', hstored⟩

/-! ## Agreement -/

/-- All has been done about a consult between the two sides: every user's request has ended,
and with its forward posted if it had one; every copy that carries a message of the consult
has been delivered. -/
structure Settled (tasks : List (MirrorTask x)) (threadId : String)
    (c : Config Net NetStmt.Answer (Option ConsultResponse)) : Prop where
  between : ∀ s t, (c.world.db.l2 s).threads.find threadId = some t → x.Between t.toThreadHead
  ended : ∀ (i : Nat) s here call isLocal, tasks[i]? = some (.serve s here call isLocal) →
    ∃ a, a ≠ some (.refused .noRouting) ∧ c.Answered i a
  delivered : ∀ s f m, (s, f) ∈ c.world.db.sent → f.message = some m → m.threadId = threadId →
    ∃ (i : Nat) (here : SideSite x s.other) (mirrored : String) (policy : Option String),
      tasks[i]? = some (.deliver s.other here f) ∧
        c.Answered i (some (.mirrored mirrored policy))

/-- A message that a side has stored for one of its users has been posted. -/
theorem posted_of_settled {threadId : String} {i : Nat} {s : Side} {here : SideSite x s}
    {call : ConsultCall} {isLocal : call.forwarder = none} {m : Message}
    (hsettled : Settled tasks threadId (mirrorRun sch canonicalize tasks schedule))
    (ht : tasks[i]? = some (.serve s here call isLocal)) (hid : m.threadId = threadId)
    (hstored : ran s i (.appendConsultMessage m) .inserted ∈
      (mirrorRun sch canonicalize tasks schedule).world.own i) :
    ∃ f, f.message = some m ∧
      (s, f) ∈ (mirrorRun sch canonicalize tasks schedule).world.db.sent := by
  subst hid
  have hlog : Net.Logged (mirrorRun sch canonicalize tasks schedule).world := logged_run
  obtain ⟨p, hp, -, hend⟩ := @served_run sch canonicalize x tasks schedule hsiblings i _ here call
    isLocal ht
  obtain ⟨a, hne, ha⟩ := hsettled.ended i s here call isLocal ht
  obtain rfl : p = .done a := Option.some.inj (hp.symm.trans ha)
  rcases hend a rfl with hnoRouting | hconcluded
  · exact absurd hnoRouting hne
  · rcases hconcluded m hstored with ⟨f, hf, hposted⟩ | ⟨t, hread, hnot⟩ |
      ⟨head, hid, hcreated, hnot⟩
    · exact ⟨f, hf, (hlog.sent s f).mpr ⟨i, (World.mem_own.mp hposted).1⟩⟩
    · obtain ⟨t', ht', hhead⟩ := hlog.read i s _ t (World.mem_own.mp hread).1
      exact absurd (hhead ▸ hsettled.between s t' ht') hnot
    · obtain ⟨t', ht', hhead⟩ := hlog.created i s head (World.mem_own.mp hcreated).1
      rw [hid] at ht'
      exact absurd (hhead ▸ hsettled.between s t' ht') hnot

/-- A forward that has been delivered has left its message. -/
theorem stored_of_delivered {i : Nat} {s : Side} {here : SideSite x s} {f : Forward} {m : Message}
    {threadId : String} {policy : Option String} (hfresh : FreshIds tasks)
    (ht : tasks[i]? = some (.deliver s here f)) (hf : f.message = some m)
    (hanswered : (mirrorRun sch canonicalize tasks schedule).Answered i
      (some (.mirrored threadId policy)))
    (horigin : ∃ (j : Nat) (t : MirrorTask x), tasks[j]? = some t ∧ t.message = some m) :
    m ∈ ((mirrorRun sch canonicalize tasks schedule).world.db.l2 s).messages := by
  have hlog : Net.Logged (mirrorRun sch canonicalize tasks schedule).world := logged_run
  obtain ⟨p, hp, -, hend⟩ := @task_run sch canonicalize x tasks schedule _ i _ ht delivers
  obtain rfl := Option.some.inj (hp.symm.trans hanswered)
  obtain ⟨a, hne, hran⟩ := hend threadId policy m rfl hf
  have hran := (World.mem_own.mp hran).1
  cases a with
  | inserted => exact (hlog.stored s m).mpr ⟨i, hran⟩
  | foreignKeyFailed => exact absurd rfl hne
  | uniqueFailed =>
      -- the id was there already, and it is given to one message only
      obtain ⟨m', hm', hid⟩ := hlog.taken i s m hran
      obtain ⟨k, s', here', call', isLocal', hk, hown, -⟩ := provenance hsiblings hm'
      obtain ⟨j, t, hj, hm⟩ := horigin
      obtain rfl := hfresh.eq hk hown hj hm hid
      exact hm'

/-- What one side has, the other has too. -/
theorem stored_at_other {threadId : String} {s : Side} {m : Message} (hfresh : FreshIds tasks)
    (hsettled : Settled tasks threadId (mirrorRun sch canonicalize tasks schedule))
    (hid : m.threadId = threadId)
    (h : m ∈ ((mirrorRun sch canonicalize tasks schedule).world.db.l2 s).messages) :
    m ∈ ((mirrorRun sch canonicalize tasks schedule).world.db.l2 s.other).messages := by
  obtain ⟨i, s', here, call, isLocal, ht, hown, hstored⟩ := provenance hsiblings h
  by_cases hs : s' = s.other
  · subst hs
    exact (logged_run.stored _ m).mpr ⟨i, (World.mem_own.mp hstored).1⟩
  · obtain rfl : s' = s := Side.eq_of_ne_other hs
    obtain ⟨f, hf, hsent⟩ := posted_of_settled hsiblings hsettled ht hid hstored
    obtain ⟨j, here', mirrored, policy, hj, hanswered⟩ := hsettled.delivered s' f m hsent hf hid
    exact stored_of_delivered hsiblings hfresh hj hf hanswered ⟨i, _, ht, hown⟩

end Siblings

/-! ## Closing -/

/-- A side has recorded a consult as closed, in this row. -/
def Net.ClosedAt (n : Net) (s : Side) (t : Thread) : Prop :=
  (n.l2 s).threads.find t.threadId = some t ∧ t.status = .closed

/-- A closed consult stays as it is. -/
theorem Net.ClosedAt.mono {n n' : Net} {s : Side} {t : Thread} (h : n.ClosedAt s t)
    (hgrows : n.Grows n') : n'.ClosedAt s t := by
  obtain ⟨hfind, hclosed⟩ := h
  obtain ⟨t', ht', -, hsame⟩ := (hgrows.l2 s).threads _ _ hfind
  obtain rfl := hsame hclosed
  exact ⟨ht', hclosed⟩

theorem Net.ClosedAt.run {c : Config Net NetStmt.Answer (Option ConsultResponse)} {s : Side}
    {t : Thread} (h : c.world.db.ClosedAt s t) (schedule : List Nat) :
    (c.run schedule).world.db.ClosedAt s t :=
  @Config.run_world _ _ _ _ _ (fun w => w.db.ClosedAt s t)
    (fun w _ q hw => hw.mono (NetStmt.grows_exec q w.db)) c h schedule

/-- A consult is closed at a side by a request of a user's at that side. -/
theorem closer {s : Side} {t : Thread}
    (h : (mirrorRun sch canonicalize tasks schedule).world.db.ClosedAt s t) :
    ∃ i here call isLocal closedAt summary a,
      tasks[i]? = some (.serve s here call isLocal) ∧
        ran s i (.closeConsult t.threadId closedAt summary) a ∈
          (mirrorRun sch canonicalize tasks schedule).world.log := by
  obtain ⟨i, closedAt, summary, a, hi⟩ := logged_run.closed s _ t h.1 h.2
  obtain ⟨task, htask, hside, hown⟩ := task_of_ran hi
  cases task with
  | serve s' here call isLocal =>
      cases hside
      exact ⟨i, here, call, isLocal, closedAt, summary, a, htask, hi⟩
  | deliver s' here f =>
      cases hside
      obtain ⟨p, -, hpast, -⟩ := @task_run sch canonicalize x tasks schedule _ i _ htask delivers
      exact absurd hown (hpast.closes _ _ _ a)

/-- A request with a message for a consult first looks at its thread; where that is closed,
it is refused. -/
theorem refused_of_closed {site : Site} {call : ConsultCall} {m : Message}
    (hm : call.message site = some m) :
    ∃ (q : ConsultStmt) (k : q.Answer → ConsultProg),
      call.prog sch canonicalize site = .call q k ∧ Quiet q ∧
        ∀ (st : ConsultStore) t, st.threads.find m.threadId = some t → t.status = .closed →
          ∃ r, k (q.exec st).1 = .done (.refused r) := by
  cases call with
  | forwardRequest | forwardMessage | xEnterpriseForward | close => cases hm
  | request username ids body =>
      change _ = some m at hm
      simp only [ConsultCall.message] at hm
      split at hm
      · cases hm
      · rename_i selfId selfPersona hself
        split at hm
        · cases hm
        · rename_i routing hrouting
          cases hm
          have hprog : (ConsultCall.request username ids body).prog sch canonicalize site =
              openConsult site selfId selfPersona ids body routing := by
            change requestConsult site username ids body = _
            simp only [requestConsult, hself, hrouting]
          refine ⟨_, _, hprog, quiet_createConsult _, fun st t hfind _ => ?_⟩
          have htaken : st.createConsult (body.head site selfId selfPersona ids) = none := by
            rw [ConsultStore.createConsult_eq_none_iff]
            exact Option.ne_none_iff_exists'.mpr ⟨t, hfind⟩
          simp only [ConsultStmt.exec, htaken]
          exact ⟨_, rfl⟩
  | reply username threadId reply =>
      simp only [ConsultCall.message] at hm
      split at hm
      · cases hm
      · rename_i selfId selfPersona hself
        cases hm
        have hprog : ∃ k : Option Thread → ConsultProg,
            postConsultMessage site username threadId reply = .call (.getConsult threadId) k ∧
              ∀ t : Thread, t.status = .closed → ∃ r, k (some t) = .done (.refused r) := by
          simp only [postConsultMessage, hself]
          refine ⟨_, rfl, fun t hclosed => ?_⟩
          by_cases hpart : t.Participant selfId selfPersona
          · simp [hpart, hclosed]
          · simp [hpart]
        obtain ⟨k, hprog, hrefused⟩ := hprog
        refine ⟨.getConsult threadId, k, hprog, quiet_getConsult threadId, fun st t hfind hclosed => ?_⟩
        change ∃ r, k (st.threads.find threadId) = _
        rw [show st.threads.find threadId = some t from hfind]
        exact hrefused t hclosed

/-- A request that comes too late: it has not begun, or it has been refused. -/
inductive Late (i : Nat) (s : Side) (p : NetProg)
    (c : Config Net NetStmt.Answer (Option ConsultResponse)) : Prop
  | waiting (task : c.tasks[i]? = some p) (nothing : c.world.own i = [])
  | refused (r : ConsultRefusal) (q : ConsultStmt) (a : q.Answer)
      (answered : c.Answered i (some (.refused r))) (quiet : Quiet q)
      (only : c.world.own i = [ran s i q a])

/-- The step lemma. -/
theorem Late.step {i : Nat} {s : Side} {site : Site} {call : ConsultCall} {m : Message}
    {t : Thread} {c : Config Net NetStmt.Answer (Option ConsultResponse)}
    (hm : call.message site = some m) (hid : m.threadId = t.threadId)
    (hclosed : c.world.db.ClosedAt s t)
    (h : Late i s (onSide s (call.prog sch canonicalize site)) c) (j : Nat) :
    Late i s (onSide s (call.prog sch canonicalize site)) (c.step j) := by
  rcases c.step_cases j with heq | ⟨q', k', htask, heq⟩
  · rw [heq]
    exact h
  · cases h with
    | waiting hp hnil =>
        by_cases hij : j = i
        · -- it reads the row, or finds the id taken
          subst hij
          obtain ⟨q, k, hprog, hquiet, hrefused⟩ := @refused_of_closed sch canonicalize site call m hm
          rw [hprog] at hp
          obtain ⟨r, hr⟩ := hrefused (c.world.db.l2 s) t (hid ▸ hclosed.1) hclosed.2
          rw [Config.step_call hp]
          refine .refused r q (q.exec (c.world.db.l2 s)).1 ?_ hquiet ?_
          · change (c.tasks.set j (onSide s (k (q.exec (c.world.db.l2 s)).1)))[j]? = _
            rw [hr]
            exact List.getElem?_set_self (List.getElem?_eq_some_iff.mp hp).1
          · change (c.world.exec j (.run s q)).own j = _
            rw [World.own_exec_self, hnil]
            rfl
        · refine .waiting ((Config.step_task_of_ne c hij).trans hp) ?_
          rw [heq]
          change (c.world.exec j q').own i = _
          rw [World.own_exec_of_ne _ hij]
          exact hnil
    | refused r q a hanswered hquiet honly =>
        refine .refused r q a (Config.answered_step hanswered j) hquiet ?_
        have hij : j ≠ i := by
          rintro rfl
          cases hanswered.symm.trans htask
        rw [heq]
        change (c.world.exec j q').own i = _
        rw [World.own_exec_of_ne _ hij]
        exact honly

/-- **No post after the close.** A request that begins once its side has recorded its
consult as closed adds nothing and is refused. -/
theorem no_post_after_close {i : Nat} {s : Side} {here : SideSite x s} {call : ConsultCall}
    {isLocal : call.forwarder = none} {m : Message} {t : Thread}
    (hclosed : (mirrorRun sch canonicalize tasks schedule).world.db.ClosedAt s t)
    (ht : tasks[i]? = some (.serve s here call isLocal))
    (hm : call.message here.site = some m) (hid : m.threadId = t.threadId)
    (hlate : (mirrorRun sch canonicalize tasks schedule).world.own i = []) (later : List Nat) :
    (∀ s' m' a, ran s' i (.appendConsultMessage m') a ∉
      ((mirrorRun sch canonicalize tasks schedule).run later).world.log) ∧
    ∀ a, ((mirrorRun sch canonicalize tasks schedule).run later).Answered i a →
      ∃ r, a = some (.refused r) := by
  have hstart : Late i s (onSide s (call.prog sch canonicalize here.site))
      (mirrorRun sch canonicalize tasks schedule) :=
    .waiting (Config.task_of_own_nil (mirrorStart_task ht) hlate) hlate
  have hrun := @Config.run_induction _ _ _ _ _ (fun _ _ => True)
    (fun c => c.world.db.ClosedAt s t ∧
      Late i s (onSide s (call.prog sch canonicalize here.site)) c)
    (fun c j h _ => ⟨h.1.run [j], h.2.step hm hid h.1 j⟩) _ ⟨hclosed, hstart⟩ later
    (Config.meets_true _ later)
  obtain ⟨-, hrun⟩ := hrun
  constructor
  · intro s' m' a hin
    have hown := World.mem_own.mpr ⟨hin, rfl⟩
    cases hrun with
    | waiting hp hnil =>
        rw [hnil] at hown
        exact List.not_mem_nil hown
    | refused r q b hanswered hquiet honly =>
        rw [honly] at hown
        injection List.mem_singleton.mp hown with _ hstmt
        injection hstmt with _ hstmt
        exact hquiet.append m' hstmt.symm
  · intro a ha
    cases hrun with
    | waiting hp hnil =>
        obtain ⟨q, k, hprog, -, -⟩ := @refused_of_closed sch canonicalize here.site call m hm
        rw [hprog] at hp
        cases hp.symm.trans ha
    | refused r q b hanswered hquiet honly =>
        cases hanswered.symm.trans ha
        exact ⟨r, rfl⟩

end Runs

/-- **The two copies of a consult.** A copy that is closed stays as it is, and was closed by
a request of a user's at its own side; a request for it that begins afterwards adds nothing
and is refused. Between two L2s of one Enterprise, once all has been done about the consult,
both copies have the same messages. -/
theorem mirrors_agree (sch : SignatureScheme) (canonicalize : Canonicalize) (x : Sides)
    (tasks : List (MirrorTask x)) (schedule : List Nat) :
    let c := mirrorRun sch canonicalize tasks schedule
    (∀ s t, c.world.db.ClosedAt s t →
      (∀ later, (c.run later).world.db.ClosedAt s t) ∧
      (∃ i here call isLocal closedAt summary a,
        tasks[i]? = some (.serve s here call isLocal) ∧
          ran s i (.closeConsult t.threadId closedAt summary) a ∈ c.world.log) ∧
      ∀ i here call isLocal m, tasks[i]? = some (.serve s here call isLocal) →
        call.message here.site = some m → m.threadId = t.threadId → c.world.own i = [] →
          ∀ later, (∀ s' m' a, ran s' i (.appendConsultMessage m') a ∉ (c.run later).world.log) ∧
            ∀ a, (c.run later).Answered i a → ∃ r, a = some (.refused r)) ∧
    (x.Siblings → FreshIds tasks → ∀ threadId, Settled tasks threadId c →
      ∀ m : Message, m.threadId = threadId →
        (m ∈ (c.world.db.l2 .left).messages ↔ m ∈ (c.world.db.l2 .right).messages)) := by
  intro c
  refine ⟨fun s t hclosed => ⟨hclosed.run, closer hclosed, ?_⟩, ?_⟩
  · intro i here call isLocal m ht hm hid hlate later
    exact no_post_after_close hclosed ht hm hid hlate later
  · intro hsiblings hfresh threadId hsettled m hid
    constructor
    · exact stored_at_other hsiblings hfresh hsettled hid
    · exact stored_at_other hsiblings hfresh hsettled hid

/-! ## A consult of acme's eng with acme's sales -/

/-- A group of acme's in the AIGRP table of another. -/
def acmePeer (group : String) : PeerRow :=
  { globexPeer with l2Id := "acme/" ++ group, enterprise := "acme", group }

def acmeId : Side → String
  | .left => "acme/eng"
  | .right => "acme/sales"

theorem acmeId_ne : acmeId .left ≠ acmeId .right := by decide

theorem enterprise_acmeId (s : Side) : enterpriseOf (acmeId s) = some "acme" := by
  cases s with
  | left => decide +kernel
  | right => decide +kernel

def acmeSides : Sides where
  id := acmeId
  enterprise _ := "acme"
  id_ne := acmeId_ne
  id_enterprise := enterprise_acmeId

/-- acme's eng, which knows its sales. -/
def engSide : SideSite acmeSides .left where
  site := acmeSite "eng" ⟨[acmePeer "sales"], List.nodup_singleton _⟩
  env := by decide +kernel

/-- acme's sales, which knows its eng. -/
def salesSide : SideSite acmeSides .right where
  site := acmeSite "sales" ⟨[acmePeer "eng"], List.nodup_singleton _⟩
  env := by decide +kernel

/-- Alice asks bob. -/
def siblingOpening : ConsultRequest :=
  { sampleOpening with toL2Id := "acme/sales", toL2Id_ne := by decide }

/-- The thread that she opens. -/
def siblingThread : Thread :=
  (siblingOpening.head engSide.site "acme/eng" "alice" ⟨"th_1", "msg_1"⟩).row

/-- It goes to sales. -/
def openingForward : Forward :=
  let payload := Payload.request
    (siblingOpening.payload engSide.site "acme/eng" "alice" ⟨"th_1", "msg_1"⟩)
  ⟨"acme/sales", buildForwardHeaders engSide.site "acme/sales" payload, payload⟩

/-- Bob's reply goes to eng. -/
def replyForward : Forward :=
  let payload := Payload.message
    (sampleReply.payload salesSide.site "acme/sales" "bob" siblingThread "th_1")
  ⟨"acme/eng", buildForwardHeaders salesSide.site "acme/eng" payload, payload⟩

/-- Alice opens a consult, bob replies, alice closes it and adds a last message. -/
def acmeTasks : List (MirrorTask acmeSides) :=
  [.serve .left engSide (.request "alice" ⟨"th_1", "msg_1"⟩ siblingOpening) rfl,
    .deliver .right salesSide openingForward,
    .serve .right salesSide (.reply "bob" "th_1" sampleReply) rfl,
    .deliver .left engSide replyForward,
    .serve .left engSide (.close "alice" "th_1" none) rfl,
    .serve .left engSide (.reply "alice" "th_1" { sampleReply with messageId := "msg_3" }) rfl]

abbrev acmeRun (schedule : List Nat) : Config Net NetStmt.Answer (Option ConsultResponse) :=
  mirrorRun .transparent sampleCanonicalize acmeTasks schedule

/-- The thread as she closes it. -/
def closedThread : Thread := siblingThread.close oneOClock.isoformat none

/-- What there is to check of a run in which all has been done. -/
structure AcmeDone (c : Config Net NetStmt.Answer (Option ConsultResponse)) : Prop where
  ended : ∀ i < 6, ∃ a ∈ c.tasks[i]?.bind Prog.result, a ≠ some (.refused .noRouting)
  sent : c.world.db.sent = [(.left, openingForward), (.right, replyForward)]
  opening : c.tasks[1]?.bind Prog.result = some (some (.mirrored "th_1" none))
  reply : c.tasks[3]?.bind Prog.result = some (some (.mirrored "th_1" none))
  left : (c.world.db.l2 .left).threads.find "th_1" = some closedThread
  right : (c.world.db.l2 .right).threads.find "th_1" = some siblingThread

theorem AcmeDone.settled {c : Config Net NetStmt.Answer (Option ConsultResponse)}
    (h : AcmeDone c) : Settled acmeTasks "th_1" c where
  between := by
    intro s t ht
    cases s with
    | left =>
        cases h.left.symm.trans ht
        exact ⟨.left, rfl, rfl⟩
    | right =>
        cases h.right.symm.trans ht
        exact ⟨.left, rfl, rfl⟩
  ended := by
    intro i s here call isLocal ht
    obtain ⟨a, ha, hne⟩ := h.ended i (List.getElem?_eq_some_iff.mp ht).1
    exact ⟨a, hne, Config.answered_iff_result.mpr ha⟩
  delivered := by
    intro s f m hmem hf hid
    rw [h.sent] at hmem
    rcases List.mem_cons.mp hmem with heq | hmem
    · cases heq
      exact ⟨1, salesSide, "th_1", none, rfl, Config.answered_iff_result.mpr h.opening⟩
    · cases List.mem_singleton.mp hmem
      exact ⟨3, engSide, "th_1", none, rfl, Config.answered_iff_result.mpr h.reply⟩

instance (c : Config Net NetStmt.Answer (Option ConsultResponse)) : Decidable (AcmeDone c) :=
  decidable_of_iff
    ((∀ i < 6, ∃ a ∈ c.tasks[i]?.bind Prog.result, a ≠ some (.refused .noRouting)) ∧
      c.world.db.sent = [(.left, openingForward), (.right, replyForward)] ∧
      c.tasks[1]?.bind Prog.result = some (some (.mirrored "th_1" none)) ∧
      c.tasks[3]?.bind Prog.result = some (some (.mirrored "th_1" none)) ∧
      (c.world.db.l2 .left).threads.find "th_1" = some closedThread ∧
      (c.world.db.l2 .right).threads.find "th_1" = some siblingThread)
    ⟨fun ⟨h₁, h₂, h₃, h₄, h₅, h₆⟩ => ⟨h₁, h₂, h₃, h₄, h₅, h₆⟩,
      fun h => ⟨h.ended, h.sent, h.opening, h.reply, h.left, h.right⟩⟩

/-- One after the other. -/
def inTurn : List Nat := [0, 0, 0, 0, 1, 1, 1, 1, 2, 2, 2, 3, 3, 3, 4, 4, 4, 5]

/-- Both copies have both messages once all is done; the copy that alice has closed is
closed for good, and her last message is refused. -/
theorem mirrors_agree_sample :
    (∀ m : Message, m.threadId = "th_1" →
      (m ∈ ((acmeRun inTurn).world.db.l2 .left).messages ↔
        m ∈ ((acmeRun inTurn).world.db.l2 .right).messages)) ∧
    (∀ later, ((acmeRun [0, 0, 0, 0, 4, 4]).run later).world.db.ClosedAt .left closedThread) ∧
    ∀ later a, ((acmeRun [0, 0, 0, 0, 4, 4]).run later).Answered 5 a →
      ∃ r, a = some (.refused r) := by
  obtain ⟨hclosing, -⟩ := mirrors_agree .transparent sampleCanonicalize acmeSides acmeTasks
    [0, 0, 0, 0, 4, 4]
  obtain ⟨-, hagree⟩ := mirrors_agree .transparent sampleCanonicalize acmeSides acmeTasks inTurn
  obtain ⟨hstays, -, hlate⟩ := hclosing .left closedThread ⟨by decide +kernel, rfl⟩
  have hdone : AcmeDone (acmeRun inTurn) := by decide +kernel
  refine ⟨hagree (fun _ => rfl) (by unfold FreshIds; decide +kernel) "th_1" hdone.settled, hstays,
    fun later => ?_⟩
  exact (hlate 5 engSide _ rfl _ rfl rfl rfl (by decide +kernel) later).2

/-! ## A consult of acme's with globex, under two policies -/

def globexSides : Sides where
  id
    | .left => "acme/eng"
    | .right => "globex/sales"
  enterprise
    | .left => "acme"
    | .right => "globex"
  id_ne := by decide
  id_enterprise := by
    intro s
    cases s with
    | left => decide +kernel
    | right => decide +kernel

/-- The peering as acme has it: what is said is logged on both sides. -/
def mutualPeering : DirectoryPeering :=
  { globexPeering with consultLoggingPolicy := "mutual_log_required" }

/-- acme's eng, with its copy of the peering. -/
def acmeAcross : SideSite globexSides .left where
  site := { acmeSite "eng" noPeers with peerings := ⟨[mutualPeering], List.nodup_singleton _⟩ }
  env := by decide +kernel

/-- globex's sales, with its own. -/
def globexAcross : SideSite globexSides .right where
  site :=
    { acmeSite "sales" noPeers with
      env := ⟨fun name => [("CQ_ENTERPRISE", "globex"), ("CQ_GROUP", "sales")].lookup name⟩
      users := fun _ => some ⟨some "globex", some "sales"⟩
      peerings := globexPeerings }
  env := by decide +kernel

/-- What alice's opening posts. -/
def acrossForward : Forward :=
  let payload := Payload.xEnterpriseRequest
    (sampleOpening.payload acmeAcross.site "acme/eng" "alice" ⟨"th_1", "msg_1"⟩)
  let request := xEnterpriseForwardRequest acmeAcross.site.env mutualPeering
    ⟨some "globex/sales", some "https://sales.globex.example"⟩ none
  ⟨"globex/sales", (request.map Prod.snd).getD ⟨[]⟩, payload⟩

/-- Alice opens a consult, and globex receives it. -/
def globexTasks : List (MirrorTask globexSides) :=
  [.serve .left acmeAcross (.request "alice" ⟨"th_1", "msg_1"⟩ sampleOpening) rfl,
    .deliver .right globexAcross acrossForward]

/-- The run in which all has been done. -/
def globexDone : Config Net NetStmt.Answer (Option ConsultResponse) :=
  mirrorRun .transparent sampleCanonicalize globexTasks [0, 0, 0, 0, 1, 1, 1, 1]

/-- Alice's message as acme stores it. -/
def acrossMessage : Message :=
  sampleOpening.message acmeAcross.site "acme/eng" "alice" ⟨"th_1", "msg_1"⟩ "mutual_log_required"

/-- It is announced, mirrored, and stored in two ways. -/
theorem globexDone_checks :
    (∀ i < 2, ∃ a ∈ globexDone.tasks[i]?.bind Prog.result, a ≠ some (.refused .noRouting)) ∧
    globexDone.world.db.sent = [(.left, acrossForward)] ∧
    globexDone.tasks[1]?.bind Prog.result =
      some (some (.mirrored "th_1" (some "summary_only_log"))) ∧
    (∀ s ∈ [Side.left, .right], ((globexDone.world.db.l2 s).threads.find "th_1").map
      (fun t => (t.fromL2Id, t.toL2Id)) = some ("acme/eng", "globex/sales")) ∧
    acrossMessage ∈ (globexDone.world.db.l2 .left).messages.rows ∧
    acrossMessage ∉ (globexDone.world.db.l2 .right).messages.rows := by
  decide +kernel

theorem settled_globexDone : Settled globexTasks "th_1" globexDone where
  between := by
    intro s t ht
    obtain ⟨-, -, -, hheads, -⟩ := globexDone_checks
    have hs : s ∈ [Side.left, .right] := by
      cases s with
      | left => exact .head _
      | right => exact .tail _ (.head _)
    have hhead := hheads s hs
    rw [ht] at hhead
    injection hhead with hhead
    injection hhead with hfrom hto
    exact ⟨.left, hfrom, hto⟩
  ended := by
    intro i s here call isLocal ht
    obtain ⟨hended, -⟩ := globexDone_checks
    obtain ⟨a, ha, hne⟩ := hended i (List.getElem?_eq_some_iff.mp ht).1
    exact ⟨a, hne, Config.answered_iff_result.mpr ha⟩
  delivered := by
    intro s f m hmem hf hid
    obtain ⟨-, hsent, -⟩ := globexDone_checks
    rw [hsent] at hmem
    cases List.mem_singleton.mp hmem
    cases hf

/-- Bob's reply has been posted, and alice closes the consult before it arrives. -/
def closedBefore : List Nat := [0, 0, 0, 0, 1, 1, 1, 1, 2, 2, 2, 4, 4, 4]

/-- Bob's reply reaches alice's side after she has closed the consult there, and is added;
all is done then, and the two copies differ in their status. Between two Enterprises, whose
copies of the peering differ, they differ in their messages. -/
theorem message_after_close :
    (acmeRun closedBefore).world.db.ClosedAt .left closedThread ∧
    (∃ m : Message, m.threadId = closedThread.threadId ∧
      m ∉ ((acmeRun closedBefore).world.db.l2 .left).messages ∧
      m ∈ ((acmeRun (closedBefore ++ [3, 3, 3, 5])).world.db.l2 .left).messages) ∧
    Settled acmeTasks "th_1" (acmeRun (closedBefore ++ [3, 3, 3, 5])) ∧
    ((acmeRun (closedBefore ++ [3, 3, 3, 5])).world.db.l2 .left).threads.find "th_1" =
      some closedThread ∧
    ((acmeRun (closedBefore ++ [3, 3, 3, 5])).world.db.l2 .right).threads.find "th_1" =
      some siblingThread ∧
    closedThread.status ≠ siblingThread.status ∧
    Settled globexTasks "th_1" globexDone ∧
    globexDone.Answered 1 (some (.mirrored "th_1" (some "summary_only_log"))) ∧
    ∃ m : Message, m.threadId = "th_1" ∧ m ∈ (globexDone.world.db.l2 .left).messages ∧
      m ∉ (globexDone.world.db.l2 .right).messages := by
  have hdone : AcmeDone (acmeRun (closedBefore ++ [3, 3, 3, 5])) := by decide +kernel
  obtain ⟨-, -, hmirrored, -, hleft, hright⟩ := globexDone_checks
  refine ⟨⟨by decide +kernel, rfl⟩,
    ⟨sampleReply.message salesSide.site "acme/sales" "bob" "th_1", rfl, ?_, ?_⟩, hdone.settled,
    hdone.left, hdone.right, nofun, settled_globexDone, Config.answered_iff_result.mpr hmirrored,
    acrossMessage, rfl, hleft, hright⟩
  · rw [Table.mem_def]
    decide +kernel
  · rw [Table.mem_def]
    decide +kernel

end EighthLayer.Consults
