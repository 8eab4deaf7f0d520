import EighthLayer.CrosstalkMcp.Server

/-!
# EighthLayer.CrosstalkMcp.Threads

The states of a thread, when several servers work on it at once.

Each tool reads the row of its thread and later writes the whole row back. A row that is written
over one that has been closed in between opens the thread again, a close of a thread that is
closed gives it another closer, and of two claims that have both found no claimer the later one
wins. Where a write meets none of this, a closed thread stays as it is, and its claimer is the one
who was told so (`thread_machine`).
-/

namespace EighthLayer.CrosstalkMcp

open Lib

/-! ## Calls -/

/-- The tools that work on a thread. -/
inductive ThreadTool where
  | reply (threadId content : String) (tag : Option String)
  | claim (helpId commitment : String)
  | closeThread (threadId : String) (reason : Option String) (resolution : Option ResolutionArg)
  | rejectRouting (threadId reason : String)
  | reap (stale : String → Bool)

/-- A call of one of them, by a session. -/
structure ThreadCall where
  me : String
  host : Host
  tool : ThreadTool

/-- The program of a call. -/
def ThreadCall.prog (call : ThreadCall) : ToolProg :=
  match call.tool with
  | .reply threadId content tag => CrosstalkMcp.reply call.me call.host threadId content tag
  | .claim helpId commitment => CrosstalkMcp.claim call.me call.host helpId commitment
  | .closeThread threadId reason resolution =>
      CrosstalkMcp.closeThread call.me call.host threadId reason resolution
  | .rejectRouting threadId reason => CrosstalkMcp.rejectRouting call.me call.host threadId reason
  | .reap stale => reapStaleThreads call.host stale

/-- Whom the call records as the closer of a thread. -/
def ThreadCall.closer (call : ThreadCall) : Option String :=
  match call.tool with
  | .closeThread .. | .rejectRouting .. => some call.me
  | .reap _ => some "auto-reaper"
  | .reply .. | .claim .. => none

/-- Whether the call is a claim. -/
def ThreadCall.isClaim (call : ThreadCall) : Bool :=
  match call.tool with
  | .claim .. => true
  | .reply .. | .closeThread .. | .rejectRouting .. | .reap _ => false

/-- Calls that are about to start. -/
def threadStart (s : McpStore) (calls : List ThreadCall) :
    Config McpStore McpStmt.Answer McpAnswer :=
  Config.start s (calls.map ThreadCall.prog)

/-! ## The condition -/

/-- Call `i` has read the thread and found no claimer. -/
def foundUnclaimed (i : Nat) (k : String) : Event McpStmt.Answer → Bool
  | ⟨j, .getThread k', some t⟩ => j = i && k' = k && t.claimedBy.isNone
  | _ => false

/-- What call `i` writes back is still true of the thread: it has not been closed, and if a claim
has found no claimer it has none. -/
def Current (calls : List ThreadCall) (i : Nat) : McpStmt → McpWorld → Prop
  | .upsertThread t, w => ∀ cur ∈ w.db.threads.find t.id, cur.status ≠ .closed ∧
      ((calls[i]?.any ThreadCall.isClaim && w.log.any (foundUnclaimed i t.id)) = true →
        cur.claimedBy = none)
  | _, _ => True

instance (calls : List ThreadCall) (i : Nat) :
    (q : McpStmt) → (w : McpWorld) → Decidable (Current calls i q w)
  | .upsertThread t, w =>
    inferInstanceAs (Decidable (∀ cur ∈ w.db.threads.find t.id, cur.status ≠ .closed ∧
      ((calls[i]?.any ThreadCall.isClaim && w.log.any (foundUnclaimed i t.id)) = true →
        cur.claimedBy = none)))
  | .getThread _, _ | .lastIncomingTag _ _, _ | .getMessages _, _ | .insertMessage _, _
  | .insertDelivery _ _, _ | .appendInbox _ _, _ | .readInbox _ _, _ | .pending _ _ _, _
  | .pendingRoutings _ _, _ | .listInbox _ _ _, _ | .markDelivery _ _ _, _ | .markMessage _ _, _
  | .decline _ _ _, _ | .rejectRoutings _ _ _, _ | .adoptThread _ _ _ _, _
  | .adoptMessages _ _ _ _, _ | .reap _ _ _, _ | .seed, _ | .notify _ _, _ | .respond _, _ =>
    isTrue trivial

/-! ## What becomes of a thread -/

/-- What may become of a thread: once closed it stays so, and once claimed it is not claimed by
another session. -/
structure Moves (t t' : Thread) : Prop where
  closed : t.status = .closed →
    t'.status = .closed ∧ t'.closedBy = t.closedBy ∧ t'.claimedBy = t.claimedBy
  claimed : ∀ a, t.claimedBy = some a →
    t'.claimedBy = some a ∨ (t'.status = .closed ∧ t'.claimedBy = none)

theorem Moves.refl (t : Thread) : Moves t t := ⟨fun h => ⟨h, rfl, rfl⟩, fun _ h => .inl h⟩

theorem Moves.trans {t t' t'' : Thread} (h : Moves t t') (h' : Moves t' t'') : Moves t t'' where
  closed := by
    intro hclosed
    obtain ⟨hclosed', hcloser, hclaimer⟩ := h.closed hclosed
    obtain ⟨hclosed'', hcloser', hclaimer'⟩ := h'.closed hclosed'
    exact ⟨hclosed'', hcloser'.trans hcloser, hclaimer'.trans hclaimer⟩
  claimed := by
    intro a ha
    rcases h.claimed a ha with hkept | ⟨hclosed, hnone⟩
    · exact h'.claimed a hkept
    · obtain ⟨hclosed', -, hclaimer⟩ := h'.closed hclosed
      exact .inr ⟨hclosed', hclaimer.trans hnone⟩

/-- A thread that is closed or claimed stays one or the other. -/
theorem Moves.closed_or_claimed {t t' : Thread} (h : Moves t t')
    (ht : t.status = .closed ∨ t.claimedBy ≠ none) :
    t'.status = .closed ∨ t'.claimedBy ≠ none := by
  rcases ht with hclosed | hclaimed
  · exact .inl (h.closed hclosed).1
  · obtain ⟨a, ha⟩ := Option.ne_none_iff_exists'.mp hclaimed
    rcases h.claimed a ha with hkept | ⟨hclosed, -⟩
    · exact .inr (by rw [hkept]; exact Option.some_ne_none a)
    · exact .inl hclosed

/-- The threads of one store, and what has become of them in another. -/
def ThreadsMove (s s' : McpStore) : Prop :=
  ∀ k t, s.threads.find k = some t → ∃ t', s'.threads.find k = some t' ∧ Moves t t'

theorem ThreadsMove.refl (s : McpStore) : ThreadsMove s s := fun _ t ht => ⟨t, ht, .refl t⟩

theorem ThreadsMove.trans {s s' s'' : McpStore} (h : ThreadsMove s s') (h' : ThreadsMove s' s'') :
    ThreadsMove s s'' := by
  intro k t ht
  obtain ⟨t', ht', hmoves⟩ := h k t ht
  obtain ⟨t'', ht'', hmoves'⟩ := h' k t' ht'
  exact ⟨t'', ht'', hmoves.trans hmoves'⟩

/-- The resolution of a thread that is not closed is a claim. -/
def Thread.Sane (t : Thread) : Prop :=
  t.status ≠ .closed → ∀ r, t.resolution = some r → r.claimedBy ≠ none

/-- A thread that has just been opened has none. -/
theorem mkThread_sane {me : String} {host : Host} {id : String} {participants : List String}
    {kind : ThreadKind} {fromTag toTag : Option String} :
    (mkThread me host id participants kind fromTag toTag).Sane := by
  intro _ r hr
  cases hr

/-- The statements that leave the threads alone. -/
def McpStmt.quiet : McpStmt → Bool
  | .upsertThread _ | .adoptThread _ _ _ _ | .reap _ _ _ => false
  | _ => true

theorem threads_exec_of_quiet {q : McpStmt} (h : q.quiet = true) (s : McpStore) :
    (q.exec s).2.threads = s.threads := by
  cases q with
  | upsertThread t => cases h
  | adoptThread threadId initiator newTag now => cases h
  | reap stale reason now => cases h
  | _ => rfl

/-- The row that `upsertThread` leaves. -/
theorem find_upsertThread (s : McpStore) (t : Thread) (k : String) :
    (s.upsertThread t).threads.find k =
      if t.id = k then some (((s.threads.find k).map fun old => old.merge t).getD t)
      else s.threads.find k := by
  unfold McpStore.upsertThread
  cases hold : s.threads.find t.id with
  | none =>
      dsimp only
      rw [Table.find_insertOrIgnore]
      split
      · rename_i hk
        rw [← hk, hold]
        rfl
      · rw [Option.or_none]
  | some old =>
      dsimp only
      rw [@Table.find_update _ _ _ s.threads _ (fun old => old.merge t)
        (fun old => old.merge_id t) _ k]
      split
      · rename_i hk
        rw [← hk, hold]
        simp [(Table.find_eq_some_iff.mp hold).2]
      · rename_i hk
        cases hfind : s.threads.find k with
        | none => rfl
        | some t' =>
            have hid : t'.id ≠ t.id := by
              rw [(Table.find_eq_some_iff.mp hfind).2]
              exact fun heq => hk heq.symm
            simp [hid]

theorem find_reap (s : McpStore) (stale : String → Bool) (reason now k : String) :
    ((McpStmt.reap stale reason now).exec s).2.threads.find k =
      (s.threads.find k).map fun t =>
        if (t.status = .opened && stale t.updated) = true then t.reap reason now else t :=
  @Table.find_update _ _ _ s.threads _ (fun t => t.reap reason now) (fun _ => rfl) _ k

theorem find_adoptThread (s : McpStore) (threadId : String) (initiator : Bool)
    (newTag : Option String) (now k : String) :
    ((McpStmt.adoptThread threadId initiator newTag now).exec s).2.threads.find k =
      (s.threads.find k).map fun t =>
        if decide (t.id = threadId) = true then
          if initiator then { t with fromTag := newTag, updated := now }
          else { t with toTag := newTag, updated := now }
        else t :=
  @Table.find_update _ _ _ s.threads _ _ (fun t => by split <;> rfl) _ k

/-- The reaper closes threads that are open, and leaves the others. -/
theorem moves_reap {t : Thread} (stale : String → Bool) (reason now : String) :
    Moves t (if (t.status = .opened && stale t.updated) = true then t.reap reason now else t) := by
  split
  · rename_i hopen
    have hopen : t.status = .opened := by
      simp only [Bool.and_eq_true, decide_eq_true_eq] at hopen
      exact hopen.1
    refine ⟨fun hclosed => ?_, fun a ha => .inl ha⟩
    rw [hopen] at hclosed
    cases hclosed
  · exact .refl t

/-! ## Claims and closes -/

/-- Call `i`, a claim of thread `k`, has found no claimer and has written its row. -/
def WroteFirst (calls : List ThreadCall) (log : List (Event McpStmt.Answer)) (i : Nat)
    (k : String) : Prop :=
  calls[i]?.any ThreadCall.isClaim = true ∧ ∃ later row earlier,
    log = later ++ ⟨i, .upsertThread row, ()⟩ :: earlier ∧ row.id = k ∧
      earlier.any (foundUnclaimed i k) = true

theorem WroteFirst.mono {calls : List ThreadCall} {log log' : List (Event McpStmt.Answer)} {i : Nat}
    {k : String} (h : WroteFirst calls log i k) (hlog : log <:+ log') :
    WroteFirst calls log' i k := by
  obtain ⟨hclaim, later, row, earlier, rfl, hrow, hfound⟩ := h
  obtain ⟨newer, rfl⟩ := hlog
  exact ⟨hclaim, newer ++ later, row, earlier, by rw [List.append_assoc], hrow, hfound⟩

theorem WroteFirst.of_cons {calls : List ThreadCall} {log : List (Event McpStmt.Answer)}
    {e : Event McpStmt.Answer} {i : Nat} {k : String} (h : WroteFirst calls (e :: log) i k) :
    WroteFirst calls log i k ∨ ∃ row, e = ⟨i, .upsertThread row, ()⟩ ∧ row.id = k ∧
      calls[i]?.any ThreadCall.isClaim = true ∧ log.any (foundUnclaimed i k) = true := by
  obtain ⟨hclaim, later, row, earlier, hlog, hrow, hfound⟩ := h
  cases later with
  | nil =>
      obtain ⟨rfl, rfl⟩ := List.cons.inj hlog
      exact .inr ⟨row, rfl, hrow, hclaim, hfound⟩
  | cons e' later =>
      obtain ⟨-, rfl⟩ := List.cons.inj hlog
      exact .inl ⟨hclaim, later, row, earlier, rfl, hrow, hfound⟩

/-- A statement that closes threads records the closer of its call. -/
def ClosesAs (calls : List ThreadCall) : Event McpStmt.Answer → Prop
  | ⟨i, .upsertThread row, _⟩ => row.status = .closed →
      row.closedBy ≠ none ∧ calls[i]?.bind ThreadCall.closer = row.closedBy
  | ⟨i, .reap _ _ _, _⟩ => calls[i]?.bind ThreadCall.closer = some "auto-reaper"
  | _ => True

/-- What holds of the threads at all times. -/
structure Orderly (calls : List ThreadCall) (w : McpWorld) : Prop where
  sane : ∀ k t, w.db.threads.find k = some t → t.Sane
  closes : ∀ e ∈ w.log, ClosesAs calls e
  /-- A thread that a claim has found without a claimer, and written, has one or is closed. -/
  first : ∀ i k, WroteFirst calls w.log i k →
    ∃ t, w.db.threads.find k = some t ∧ (t.status = .closed ∨ t.claimedBy ≠ none)
  unique : ∀ i j k, WroteFirst calls w.log i k → WroteFirst calls w.log j k → i = j

/-- What the calls promise each other. -/
def promise (calls : List ThreadCall) : Contract McpStore McpStmt.Answer where
  inv := Orderly calls
  rel := fun w w' => ThreadsMove w.db w'.db ∧ w.log <:+ w'.log
  ok := Current calls
  refl := fun w => ⟨.refl w.db, List.suffix_refl w.log⟩
  trans := fun h h' => ⟨h.1.trans h'.1, h.2.trans h'.2⟩

/-- A claim that reports to be the first has found no claimer, and has written its row. -/
def FirstWrote (calls : List ThreadCall) (i : Nat) (a : McpAnswer) (w : McpWorld) : Prop :=
  ∀ k, a = .claimed k true → WroteFirst calls w.log i k

/-! ## What the statements keep -/

section Statements

variable {calls : List ThreadCall} {α : Type} {post : α → McpWorld → Prop} {i : Nat}

theorem Orderly.quiet {w : McpWorld} (h : Orderly calls w) {q : McpStmt} (hq : q.quiet = true) :
    Orderly calls (w.exec i q) := by
  have hthreads : (w.exec i q).db.threads = w.db.threads := threads_exec_of_quiet hq w.db
  have hfirst : ∀ j k, WroteFirst calls (w.exec i q).log j k → WroteFirst calls w.log j k := by
    intro j k hwrote
    rcases hwrote.of_cons with hwrote | ⟨row, hevent, -⟩
    · exact hwrote
    · cases hevent
      cases hq
  refine ⟨?_, ?_, ?_, fun j j' k hj hj' => h.unique j j' k (hfirst j k hj) (hfirst j' k hj')⟩
  · intro k t ht
    rw [hthreads] at ht
    exact h.sane k t ht
  · intro e he
    rcases List.mem_cons.mp he with rfl | he
    · cases q with
      | upsertThread t => cases hq
      | reap stale reason now => cases hq
      | _ => trivial
    · exact h.closes e he
  · intro j k hwrote
    rw [hthreads]
    exact h.first j k (hfirst j k hwrote)

theorem rel_quiet (w : McpWorld) {q : McpStmt} (hq : q.quiet = true) :
    (promise calls).rel w (w.exec i q) := by
  refine ⟨fun k t ht => ⟨t, ?_, .refl t⟩, List.suffix_cons _ _⟩
  have hthreads : (w.exec i q).db.threads = w.db.threads := threads_exec_of_quiet hq w.db
  rw [hthreads]
  exact ht

/-- A statement that leaves the threads alone, and what comes after it. -/
theorem keeps_quiet {w : McpWorld} {q : McpStmt} {f : McpStmt.Answer q → McpProg α}
    (hq : q.quiet = true)
    (h : ∀ a w', (promise calls).rel w w' → (f a).Keeps (promise calls) post i w') :
    (Prog.call q f).Keeps (promise calls) post i w := by
  intro w' hinv hrel _
  exact ⟨⟨hinv.quiet hq, rel_quiet w' hq⟩,
    h _ _ ((promise calls).trans hrel (rel_quiet w' hq))⟩

theorem keeps_insertDeliveries {messageId : String} {recipients : List String} {next : McpProg α}
    {w : McpWorld} (h : ∀ w', (promise calls).rel w w' → next.Keeps (promise calls) post i w') :
    (insertDeliveries messageId recipients next).Keeps (promise calls) post i w := by
  induction recipients generalizing w with
  | nil => exact h w ((promise calls).refl w)
  | cons r rest ih =>
      refine keeps_quiet rfl fun _ w' hrel => ih fun w'' hrel' => ?_
      exact h w'' ((promise calls).trans hrel hrel')

theorem keeps_insertMessage {m : Message} {extra : List String} {next : McpProg α}
    {w : McpWorld} (h : ∀ w', (promise calls).rel w w' → next.Keeps (promise calls) post i w') :
    (insertMessage m extra next).Keeps (promise calls) post i w := by
  refine keeps_quiet rfl fun _ w' hrel => keeps_insertDeliveries fun w'' hrel' => ?_
  exact h w'' ((promise calls).trans hrel hrel')

theorem keeps_appendToInboxFiles {m : Message} {recipients : List String} {next : McpProg α}
    {w : McpWorld} (h : ∀ w', (promise calls).rel w w' → next.Keeps (promise calls) post i w') :
    (appendToInboxFiles m recipients next).Keeps (promise calls) post i w := by
  induction recipients generalizing w with
  | nil => exact h w ((promise calls).refl w)
  | cons r rest ih =>
      refine keeps_quiet rfl fun _ w' hrel => ih fun w'' hrel' => ?_
      exact h w'' ((promise calls).trans hrel hrel')

theorem keeps_fanOut {m : String → Message} {recipients : List String} {next : McpProg α}
    {w : McpWorld} (h : ∀ w', (promise calls).rel w w' → next.Keeps (promise calls) post i w') :
    (fanOut m recipients next).Keeps (promise calls) post i w := by
  cases recipients with
  | nil => exact h w ((promise calls).refl w)
  | cons r rest =>
      refine keeps_insertMessage fun w' hrel => keeps_appendToInboxFiles fun w'' hrel' => ?_
      exact h w'' ((promise calls).trans hrel hrel')

theorem keeps_announce {host : Host} {m : String → String → Message} {n : Nat}
    {targets : List String} {next : McpProg α} {w : McpWorld}
    (h : ∀ w', (promise calls).rel w w' → next.Keeps (promise calls) post i w') :
    (announce host m n targets next).Keeps (promise calls) post i w := by
  induction targets generalizing n w with
  | nil => exact h w ((promise calls).refl w)
  | cons target rest ih =>
      refine keeps_insertMessage fun w' hrel => keeps_appendToInboxFiles fun w'' hrel' => ?_
      exact ih fun w₃ hrel₃ =>
        h w₃ ((promise calls).trans hrel ((promise calls).trans hrel' hrel₃))

/-- Reading a thread: it is one of the store, sane, and if it has no claimer it is on record that
the call has found none. -/
theorem keeps_getThread {k : String} {f : Option Thread → McpProg α} {w : McpWorld}
    (hnone : ∀ w', (f none).Keeps (promise calls) post i w')
    (hsome : ∀ t w', t.id = k → t.Sane → w'.db.threads.find k = some t →
      (t.claimedBy = none → w'.log.any (foundUnclaimed i k) = true) →
        (f (some t)).Keeps (promise calls) post i w') :
    (Prog.call (.getThread k) f).Keeps (promise calls) post i w := by
  intro w' hinv _ _
  refine ⟨⟨hinv.quiet rfl, rel_quiet w' rfl⟩, ?_⟩
  have hanswer : (Database.exec (A := McpStmt.Answer) (.getThread k) w'.db).1 =
      w'.db.threads.find k := rfl
  cases ht : w'.db.threads.find k with
  | none =>
      rw [hanswer, ht]
      exact hnone _
  | some t =>
      rw [hanswer, ht]
      refine hsome t _ (Table.find_eq_some_iff.mp ht).2 (hinv.sane k t ht) ht fun hunclaimed => ?_
      refine List.any_eq_true.mpr ⟨⟨i, .getThread k, some t⟩, ?_, ?_⟩
      · rw [World.exec_log, hanswer, ht]
        exact List.mem_cons_self
      · simp [foundUnclaimed, hunclaimed]

end Statements

/-! ## Writes -/

/-- What a row may do to the one it is written over. -/
structure GoodWrite (isClaim : Bool) (cur row : Thread) : Prop where
  sane : (cur.merge row).Sane
  moves : Moves cur (cur.merge row)
  claims : isClaim = true → (cur.merge row).claimedBy ≠ none

/-- A row written over one that has been read: it has to be a good write over any row that may
stand there by then. -/
theorem keeps_upsert {calls : List ThreadCall} {α : Type} {post : α → McpWorld → Prop} {i : Nat}
    {row : Thread} {f : Unit → McpProg α} {w : McpWorld} (old : Thread)
    (hold : w.db.threads.find row.id = some old)
    (hgood : ∀ cur, Moves old cur → cur.Sane → cur.status ≠ .closed →
      (calls[i]?.any ThreadCall.isClaim = true → w.log.any (foundUnclaimed i row.id) = true →
        cur.claimedBy = none) → GoodWrite (calls[i]?.any ThreadCall.isClaim) cur row)
    (hcloses : row.status = .closed →
      row.closedBy ≠ none ∧ calls[i]?.bind ThreadCall.closer = row.closedBy)
    (h : ∀ w' w'', (promise calls).rel w w' →
      (promise calls).rel (w'.exec i (.upsertThread row)) w'' →
        (f ()).Keeps (promise calls) post i w'') :
    (Prog.call (.upsertThread row) f).Keeps (promise calls) post i w := by
  intro w' hinv hrel hok
  obtain ⟨cur, hcur, hmoves⟩ := hrel.1 row.id old hold
  obtain ⟨hopen, hunclaimed⟩ := hok cur hcur
  have hfound : w.log.any (foundUnclaimed i row.id) = true →
      w'.log.any (foundUnclaimed i row.id) = true := by
    intro hany
    obtain ⟨e, he, htrue⟩ := List.any_eq_true.mp hany
    exact List.any_eq_true.mpr ⟨e, hrel.2.mem he, htrue⟩
  have hclaimer : calls[i]?.any ThreadCall.isClaim = true →
      w'.log.any (foundUnclaimed i row.id) = true → cur.claimedBy = none := by
    intro hclaim hany
    exact hunclaimed (by rw [hclaim, hany]; rfl)
  have hwrite := hgood cur hmoves (hinv.sane row.id cur hcur) hopen
    fun hclaim hany => hclaimer hclaim (hfound hany)
  have hfind : ∀ k, (w'.exec i (.upsertThread row)).db.threads.find k =
      if row.id = k then some (cur.merge row) else w'.db.threads.find k := by
    intro k
    have hupsert := find_upsertThread w'.db row k
    split at hupsert
    · rename_i hk
      rw [if_pos hk]
      rw [← hk, hcur] at hupsert
      rw [← hk]
      exact hupsert
    · rename_i hk
      rw [if_neg hk]
      exact hupsert
  have hrel' : (promise calls).rel w' (w'.exec i (.upsertThread row)) := by
    refine ⟨fun k t ht => ?_, List.suffix_cons _ _⟩
    rw [hfind]
    split
    · rename_i hk
      subst hk
      cases hcur.symm.trans ht
      exact ⟨_, rfl, hwrite.moves⟩
    · exact ⟨t, ht, .refl t⟩
  -- whoever has written before had found the thread unclaimed, and then it is claimed by now
  have hnew : ∀ j k, WroteFirst calls (w'.exec i (.upsertThread row)).log j k →
      WroteFirst calls w'.log j k ∨ (j = i ∧ k = row.id ∧ calls[i]?.any ThreadCall.isClaim = true ∧
        cur.claimedBy = none) := by
    intro j k hwrote
    rcases hwrote.of_cons with hwrote | ⟨row', hevent, hk, hclaim, hany⟩
    · exact .inl hwrote
    · injection hevent with htask hstmt
      injection hstmt with hrow
      subst htask hrow hk
      exact .inr ⟨rfl, rfl, hclaim, hclaimer hclaim hany⟩
  have hlate : ∀ j, WroteFirst calls w'.log j row.id → cur.claimedBy ≠ none := by
    intro j hwrote
    obtain ⟨t, ht, hclaimed⟩ := hinv.first j row.id hwrote
    cases hcur.symm.trans ht
    exact hclaimed.resolve_left hopen
  refine ⟨⟨⟨?_, ?_, ?_, ?_⟩, hrel'⟩, h w' _ hrel ((promise calls).refl _)⟩
  · intro k t ht
    rw [hfind] at ht
    split at ht
    · cases ht
      exact hwrite.sane
    · exact hinv.sane k t ht
  · intro e he
    rcases List.mem_cons.mp he with rfl | he
    · exact hcloses
    · exact hinv.closes e he
  · intro j k hwrote
    rcases hnew j k hwrote with hwrote | ⟨-, rfl, hclaim, -⟩
    · obtain ⟨t, ht, hclaimed⟩ := hinv.first j k hwrote
      obtain ⟨t', ht', hmoves'⟩ := hrel'.1 k t ht
      exact ⟨t', ht', hmoves'.closed_or_claimed hclaimed⟩
    · exact ⟨cur.merge row, by rw [hfind, if_pos rfl], .inr (hwrite.claims hclaim)⟩
  · intro j j' k hj hj'
    rcases hnew j k hj with hj | ⟨rfl, rfl, -, hnone⟩
    · rcases hnew j' k hj' with hj' | ⟨-, rfl, -, hnone⟩
      · exact hinv.unique j j' k hj hj'
      · exact absurd hnone (hlate j hj)
    · rcases hnew j' _ hj' with hj' | ⟨rfl, -⟩
      · exact absurd hnone (hlate j' hj')
      · rfl

/-- The claimer that a row which has been read brings along is still the claimer. -/
theorem claimedBy_of_moves {old cur : Thread} (hmoves : Moves old cur) (hcur : cur.status ≠ .closed)
    {a b : String} (ha : cur.claimedBy = some a) (hb : old.claimedBy = some b) : a = b := by
  rcases hmoves.claimed b hb with hkept | ⟨hclosed, -⟩
  · exact Option.some.inj (ha.symm.trans hkept)
  · exact absurd hclosed hcur

/-- A row that leaves the resolution as it has been read keeps the claimer. -/
theorem moves_merge {old cur row : Thread} (hmoves : Moves old cur) (hcur : cur.status ≠ .closed)
    (hold : ∀ r, old.resolution = some r → r.claimedBy ≠ none)
    (hresolution : row.resolution = old.resolution) : Moves cur (cur.merge row) := by
  refine ⟨fun h => absurd h hcur, fun a ha => .inl ?_⟩
  unfold Thread.claimedBy Thread.merge
  rw [hresolution]
  cases hr : old.resolution with
  | none => exact ha
  | some r =>
      obtain ⟨b, hb⟩ := Option.ne_none_iff_exists'.mp (hold r hr)
      have hclaimed : old.claimedBy = some b := by
        unfold Thread.claimedBy
        rw [hr]
        exact hb
      rw [claimedBy_of_moves hmoves hcur ha hclaimed]
      exact hb

/-- The row of a reply. -/
theorem goodWrite_reply {t cur : Thread} {now : String} (ht : t.Sane) (hopen : t.status ≠ .closed)
    (hmoves : Moves t cur) (hsane : cur.Sane) (hcur : cur.status ≠ .closed) :
    GoodWrite false cur { t with updated := now } := by
  refine ⟨fun _ r hr => ?_, moves_merge hmoves hcur (ht hopen) rfl, nofun⟩
  change (t.resolution <|> cur.resolution) = some r at hr
  cases hres : t.resolution with
  | none =>
      rw [hres] at hr
      exact hsane hcur r hr
  | some r' =>
      rw [hres] at hr
      cases hr
      exact ht hopen r hres

theorem claimResolution_claimedBy (me : String) (host : Host) (existing : Option Resolution) :
    (claimResolution me host existing).claimedBy =
      some (((existing.bind Resolution.claimedBy)).getD me) := by
  unfold claimResolution
  cases existing with
  | none => rfl
  | some r =>
      cases hclaimed : r.claimedBy with
      | none => simp [hclaimed]
      | some a => simp [hclaimed]

/-- The row of a claim. -/
theorem goodWrite_claim {t cur : Thread} {me : String} {host : Host} (hmoves : Moves t cur)
    (hcur : cur.status ≠ .closed) (hunclaimed : t.claimedBy = none → cur.claimedBy = none) :
    GoodWrite true cur { t with
      updated := host.now, status := .claimed,
      resolution := some (claimResolution me host t.resolution) } := by
  have hclaimer := claimResolution_claimedBy me host t.resolution
  refine ⟨fun _ r hr => ?_, ⟨fun h => absurd h hcur, fun a ha => .inl ?_⟩, fun _ => ?_⟩
  · cases hr
    rw [hclaimer]
    exact Option.some_ne_none _
  · change (claimResolution me host t.resolution).claimedBy = some a
    rw [hclaimer]
    cases hb : t.claimedBy with
    | none =>
        rw [hunclaimed hb] at ha
        cases ha
    | some b =>
        rw [claimedBy_of_moves hmoves hcur ha hb]
        change some ((t.claimedBy).getD me) = some b
        rw [hb]
        rfl
  · change (claimResolution me host t.resolution).claimedBy ≠ none
    rw [hclaimer]
    exact Option.some_ne_none _

/-- A row that closes the thread, with the resolution as it has been read or with one of its
own. -/
theorem goodWrite_close {t cur row : Thread} (ht : t.Sane) (hmoves : Moves t cur)
    (hcur : cur.status ≠ .closed) (hclosed : row.status = .closed)
    (hresolution : row.resolution = t.resolution ∨
      ∃ r, row.resolution = some r ∧ r.claimedBy = none) : GoodWrite false cur row := by
  have hopen : t.status ≠ .closed := fun h => hcur (hmoves.closed h).1
  refine ⟨fun h => absurd hclosed h, ?_, nofun⟩
  rcases hresolution with hkept | ⟨r, hr, hnone⟩
  · exact moves_merge hmoves hcur (ht hopen) hkept
  · refine ⟨fun h => absurd h hcur, fun a _ => .inr ⟨hclosed, ?_⟩⟩
    unfold Thread.claimedBy Thread.merge
    rw [hr]
    exact hnone

/-! ## The tools -/

section Tools

variable {calls : List ThreadCall} {i : Nat} {me : String} {host : Host}

theorem keeps_reply {threadId content : String} {tag : Option String} (w : McpWorld)
    (hi : calls[i]? = some ⟨me, host, .reply threadId content tag⟩) :
    (reply me host threadId content tag).Keeps (promise calls) (FirstWrote calls i) i w := by
  have hclaim : calls[i]?.any ThreadCall.isClaim = false := by
    rw [hi]
    rfl
  refine keeps_getThread (fun w' => nofun) fun t w' hid hsane ht _ => ?_
  dsimp only
  split
  · exact nofun
  · rename_i hopen
    refine keeps_upsert t (by rw [hid]; exact ht)
      (fun cur hmoves hcur hcuropen _ => ?_) (fun h => absurd h hopen) fun _ w'' _ _ => ?_
    · rw [hclaim]
      exact goodWrite_reply hsane hopen hmoves hcur hcuropen
    · refine keeps_quiet rfl fun routeToTag w₃ _ => ?_
      split
      · exact keeps_fanOut fun w₄ _ => nofun
      · split
        · exact nofun
        · split
          · exact nofun
          · exact keeps_insertMessage fun w₄ _ => keeps_appendToInboxFiles fun w₅ _ => nofun

theorem keeps_closeThread {threadId : String} {reason : Option String}
    {resolution : Option ResolutionArg} (w : McpWorld)
    (hi : calls[i]? = some ⟨me, host, .closeThread threadId reason resolution⟩) :
    (closeThread me host threadId reason resolution).Keeps (promise calls) (FirstWrote calls i)
      i w := by
  have hclaim : calls[i]?.any ThreadCall.isClaim = false := by
    rw [hi]
    rfl
  refine keeps_getThread (fun w' => nofun) fun t w' hid hsane ht _ => ?_
  refine keeps_upsert t (by rw [hid]; exact ht)
    (fun cur hmoves _ hcuropen _ => ?_) (fun _ => ⟨Option.some_ne_none _, ?_⟩) fun _ w'' _ _ => ?_
  · rw [hclaim]
    refine goodWrite_close hsane hmoves hcuropen rfl ?_
    cases resolution with
    | none => exact .inl rfl
    | some r => exact .inr ⟨_, rfl, rfl⟩
  · rw [hi]
    rfl
  · exact keeps_announce fun w₃ _ => nofun

theorem keeps_claim {helpId commitment : String} (w : McpWorld)
    (hi : calls[i]? = some ⟨me, host, .claim helpId commitment⟩) :
    (claim me host helpId commitment).Keeps (promise calls) (FirstWrote calls i) i w := by
  have hclaim : calls[i]?.any ThreadCall.isClaim = true := by
    rw [hi]
    rfl
  refine keeps_getThread (fun w' => nofun) fun t w' hid hsane ht hfound => ?_
  dsimp only
  split
  · exact nofun
  · split
    · exact nofun
    · rename_i hopen
      refine keeps_upsert t (by rw [hid]; exact ht)
        (fun cur hmoves _ hcuropen hunclaimed => ?_) (fun h => by cases h)
        fun w₂ w₃ hrel hrel' => ?_
      · rw [hclaim]
        refine goodWrite_claim hmoves hcuropen fun hnone => ?_
        refine hunclaimed hclaim ?_
        rw [hid]
        exact hfound hnone
      · refine keeps_announce fun w₄ hrel'' k hfirst => ?_
        injection hfirst with hk hnone
        subst hk
        -- what it has found is on record, and its row after it
        obtain ⟨e, he, htrue⟩ := List.any_eq_true.mp
          (hfound (by rwa [Option.isNone_iff_eq_none] at hnone))
        refine WroteFirst.mono ?_ ((promise calls).trans hrel' hrel'').2
        exact ⟨hclaim, [], _, w₂.log, rfl, hid,
          List.any_eq_true.mpr ⟨e, hrel.2.mem he, htrue⟩⟩

theorem keeps_rejectRouting {threadId reason : String} (w : McpWorld)
    (hi : calls[i]? = some ⟨me, host, .rejectRouting threadId reason⟩) :
    (rejectRouting me host threadId reason).Keeps (promise calls) (FirstWrote calls i) i w := by
  have hclaim : calls[i]?.any ThreadCall.isClaim = false := by
    rw [hi]
    rfl
  refine keeps_getThread (fun w' => nofun) fun t w' hid hsane ht _ => ?_
  dsimp only
  split
  · exact nofun
  · refine keeps_quiet rfl fun msgs w₂ hrel₂ => ?_
    split
    · exact nofun
    · refine keeps_quiet rfl fun _ w₃ hrel₃ => ?_
      refine keeps_insertMessage fun w₄ hrel₄ => keeps_appendToInboxFiles fun w₅ hrel₅ => ?_
      have hrel : (promise calls).rel w' w₅ :=
        (promise calls).trans hrel₂ ((promise calls).trans hrel₃
          ((promise calls).trans hrel₄ hrel₅))
      obtain ⟨old, hold, hmoved⟩ := hrel.1 threadId t ht
      refine keeps_upsert old (by rw [hid]; exact hold)
        (fun cur hmoves _ hcuropen _ => ?_) (fun _ => ⟨Option.some_ne_none _, ?_⟩)
        fun _ w₆ _ _ => nofun
      · rw [hclaim]
        exact goodWrite_close hsane (hmoved.trans hmoves) hcuropen rfl (.inl rfl)
      · rw [hi]
        rfl

theorem keeps_reap {stale : String → Bool} (w : McpWorld)
    (hi : calls[i]? = some ⟨me, host, .reap stale⟩) :
    (reapStaleThreads host stale).Keeps (promise calls) (FirstWrote calls i) i w := by
  intro w' hinv _ _
  have hfirst : ∀ j k, WroteFirst calls (w'.exec i
      (.reap stale "auto-reaped: no activity in 7+ days" host.now)).log j k →
      WroteFirst calls w'.log j k := by
    intro j k hwrote
    rcases hwrote.of_cons with hwrote | ⟨row, hevent, -⟩
    · exact hwrote
    · injection hevent with _ hstmt
      cases hstmt
  have hmove : ThreadsMove w'.db (w'.exec i
      (.reap stale "auto-reaped: no activity in 7+ days" host.now)).db := by
    intro k t ht
    have hfind := find_reap w'.db stale "auto-reaped: no activity in 7+ days" host.now k
    rw [ht] at hfind
    exact ⟨_, hfind, moves_reap stale _ _⟩
  refine ⟨⟨⟨?_, ?_, ?_, fun j j' k hj hj' =>
    hinv.unique j j' k (hfirst j k hj) (hfirst j' k hj')⟩, hmove, List.suffix_cons _ _⟩, nofun⟩
  · intro k t ht
    have hfind := (find_reap w'.db stale "auto-reaped: no activity in 7+ days" host.now k).symm.trans
      ht
    obtain ⟨old, hold, rfl⟩ := Option.map_eq_some_iff.mp hfind
    split
    · exact fun hopen => absurd rfl hopen
    · exact hinv.sane k old hold
  · intro e he
    rcases List.mem_cons.mp he with rfl | he
    · change calls[i]?.bind ThreadCall.closer = some "auto-reaper"
      rw [hi]
      rfl
    · exact hinv.closes e he
  · intro j k hwrote
    obtain ⟨t, ht, hclaimed⟩ := hinv.first j k (hfirst j k hwrote)
    obtain ⟨t', ht', hmoves⟩ := hmove k t ht
    exact ⟨t', ht', hmoves.closed_or_claimed hclaimed⟩

theorem ThreadCall.keeps (call : ThreadCall) (w : McpWorld) (hi : calls[i]? = some call) :
    call.prog.Keeps (promise calls) (FirstWrote calls i) i w := by
  obtain ⟨me, host, tool⟩ := call
  cases tool with
  | reply threadId content tag => exact keeps_reply w hi
  | claim helpId commitment => exact keeps_claim w hi
  | closeThread threadId reason resolution => exact keeps_closeThread w hi
  | rejectRouting threadId reason => exact keeps_rejectRouting w hi
  | reap stale => exact keeps_reap w hi

end Tools

/-! ## Runs -/

theorem allows_of_current {calls : List ThreadCall}
    (c : Config McpStore McpStmt.Answer McpAnswer) (i : Nat)
    (h : c.NextIn (Current calls) i) : (promise calls).Allows c i :=
  fun _ _ htask => Config.NextIn.ok h htask

/-- The promise holds all along a run whose writes are current. -/
theorem promise_holds {calls : List ThreadCall} {s : McpStore}
    (hsane : ∀ k t, s.threads.find k = some t → t.Sane) {schedule : List Nat}
    (hmeets : (threadStart s calls).Meets (Config.NextIn (Current calls)) schedule) :
    (promise calls).Holds (FirstWrote calls) ((threadStart s calls).run schedule) := by
  have hnever : ∀ i k, ¬ WroteFirst calls [] i k := by
    rintro i k ⟨-, later, row, earlier, hlog, -⟩
    cases later <;> cases hlog
  have hinv : Orderly calls ⟨s, []⟩ :=
    ⟨hsane, fun e he => (List.not_mem_nil he).elim, fun i k h => (hnever i k h).elim,
      fun i _ k h _ => (hnever i k h).elim⟩
  have hstart : (promise calls).Holds (FirstWrote calls) (threadStart s calls) := by
    refine Contract.Holds.start hinv fun i p hp => ?_
    rw [List.getElem?_map] at hp
    obtain ⟨call, hcall, rfl⟩ := Option.map_eq_some_iff.mp hp
    exact call.keeps _ hcall
  exact (Contract.run hstart (hmeets.imp allows_of_current)).1

/-- What may become of the threads in the rest of such a run. -/
theorem threads_move {calls : List ThreadCall} {s : McpStore}
    (hsane : ∀ k t, s.threads.find k = some t → t.Sane) {s₁ s₂ : List Nat}
    (hmeets : (threadStart s calls).Meets (Config.NextIn (Current calls)) (s₁ ++ s₂)) :
    ThreadsMove ((threadStart s calls).run s₁).world.db
      ((threadStart s calls).run (s₁ ++ s₂)).world.db := by
  obtain ⟨hmeets₁, hmeets₂⟩ := Config.meets_append.mp hmeets
  rw [Config.run_append]
  exact (Contract.run (promise_holds hsane hmeets₁) (hmeets₂.imp allows_of_current)).2.1

/-- A statement that closes a thread is one whose call closes threads, and its closer is
recorded. -/
theorem closedBy_of_closes {calls : List ThreadCall} {i : Nat} {q : McpStmt} {w : McpWorld}
    (hcloses : ClosesAs calls ⟨i, q, (Database.exec (A := McpStmt.Answer) q w.db).1⟩) {k : String}
    {t t' : Thread} (ht : w.db.threads.find k = some t) (hopen : t.status ≠ .closed)
    (ht' : (w.exec i q).db.threads.find k = some t') (hclosed : t'.status = .closed) :
    ∃ a, calls[i]?.bind ThreadCall.closer = some a ∧ t'.closedBy = some a := by
  have hsame : ∀ u, w.db.threads.find k = some u → t' = u → False := by
    intro u hu heq
    cases ht.symm.trans hu
    exact hopen (heq ▸ hclosed)
  cases q with
  | upsertThread row =>
      have hfind := (find_upsertThread w.db row k).symm.trans ht'
      split at hfind
      · rw [ht] at hfind
        cases hfind
        obtain ⟨hcloser, hcall⟩ := hcloses hclosed
        obtain ⟨a, ha⟩ := Option.ne_none_iff_exists'.mp hcloser
        refine ⟨a, hcall.trans ha, ?_⟩
        simp [Thread.merge, ha]
      · exact (hsame t' hfind rfl).elim
  | reap stale reason now =>
      have hfind := (find_reap w.db stale reason now k).symm.trans ht'
      rw [ht] at hfind
      have hrow := Option.some.inj hfind
      dsimp only at hrow
      split at hrow
      · subst hrow
        exact ⟨_, hcloses, rfl⟩
      · exact absurd hclosed (hrow ▸ hopen)
  | adoptThread threadId initiator newTag now =>
      have hfind := (find_adoptThread w.db threadId initiator newTag now k).symm.trans ht'
      rw [ht] at hfind
      have hrow := Option.some.inj hfind
      dsimp only at hrow
      split at hrow
      · rename_i hadopted
        subst hrow
        split at hclosed
        · exact absurd hclosed hopen
        · exact absurd hclosed hopen
      · exact absurd hclosed (hrow ▸ hopen)
  | _ => exact (hsame t' ht' rfl).elim

/-- What is said of the threads of a run. -/
structure Machine (calls : List ThreadCall) (s : McpStore) (schedule : List Nat) : Prop where
  /-- A thread that is closed stays closed, with its closer. -/
  absorbing : ∀ s₁ s₂, schedule = s₁ ++ s₂ → ∀ k t,
    ((threadStart s calls).run s₁).world.db.threads.find k = some t → t.status = .closed →
      ∃ t', ((threadStart s calls).run schedule).world.db.threads.find k = some t' ∧
        t'.status = .closed ∧ t'.closedBy = t.closedBy
  /-- The call whose step has closed a thread is recorded as its closer. -/
  closer : ∀ s₁ i s₂, schedule = s₁ ++ i :: s₂ → ∀ k t t',
    ((threadStart s calls).run s₁).world.db.threads.find k = some t → t.status ≠ .closed →
    ((threadStart s calls).run (s₁ ++ [i])).world.db.threads.find k = some t' →
      t'.status = .closed →
        ∃ a, calls[i]?.bind ThreadCall.closer = some a ∧ t'.closedBy = some a
  /-- A thread that has been claimed by one session is never claimed by another. -/
  claimer : ∀ s₁ s₂, schedule = s₁ ++ s₂ → ∀ k t t' a b,
    ((threadStart s calls).run s₁).world.db.threads.find k = some t → t.claimedBy = some a →
    ((threadStart s calls).run schedule).world.db.threads.find k = some t' →
      t'.claimedBy = some b → b = a
  /-- At most one claim of a thread reports to be the first. -/
  first : ∀ i j k, ((threadStart s calls).run schedule).Answered i (.claimed k true) →
    ((threadStart s calls).run schedule).Answered j (.claimed k true) → i = j

/-- **The states of a thread.** However the servers interleave, as long as every row that is
written is current: a closed thread stays as it is, its closer is the one whose step has closed
it, its claimer does not change, and one claim at most is told to be the first. -/
theorem thread_machine {calls : List ThreadCall} {s : McpStore}
    (hsane : ∀ k t, s.threads.find k = some t → t.Sane) {schedule : List Nat}
    (hmeets : (threadStart s calls).Meets (Config.NextIn (Current calls)) schedule) :
    Machine calls s schedule where
  absorbing := by
    rintro s₁ s₂ rfl k t ht hclosed
    obtain ⟨t', ht', hmoves⟩ := threads_move hsane hmeets k t ht
    obtain ⟨hclosed', hcloser, -⟩ := hmoves.closed hclosed
    exact ⟨t', ht', hclosed', hcloser⟩
  closer := by
    rintro s₁ i s₂ rfl k t t' ht hopen ht' hclosed
    have hmeets' : (threadStart s calls).Meets (Config.NextIn (Current calls)) (s₁ ++ [i]) := by
      rw [List.append_cons] at hmeets
      exact (Config.meets_append.mp hmeets).1
    have hinv := (promise_holds hsane hmeets').inv
    rw [Config.run_append, Config.run_cons, Config.run_nil] at hinv ht'
    rcases ((threadStart s calls).run s₁).step_cases i with heq | ⟨q, f, -, heq⟩
    · rw [heq] at ht'
      cases ht.symm.trans ht'
      exact absurd hclosed hopen
    · rw [heq] at hinv ht'
      exact closedBy_of_closes (hinv.closes _ List.mem_cons_self) ht hopen ht' hclosed
  claimer := by
    rintro s₁ s₂ rfl k t t' a b ht ha ht' hb
    obtain ⟨t'', ht'', hmoves⟩ := threads_move hsane hmeets k t ht
    cases ht'.symm.trans ht''
    rcases hmoves.claimed a ha with hkept | ⟨-, hnone⟩
    · exact Option.some.inj (hb.symm.trans hkept)
    · cases hb.symm.trans hnone
  first := by
    intro i j k hi hj
    have hholds := promise_holds hsane hmeets
    obtain ⟨w, hrel, hfirst⟩ := hholds.answered hi
    obtain ⟨w', hrel', hfirst'⟩ := hholds.answered hj
    exact hholds.inv.unique i j k ((hfirst k rfl).mono hrel.2) ((hfirst' k rfl).mono hrel'.2)

/-- A help thread that has been opened by one session, to two others. -/
def sampleHelp : McpStore :=
  { McpStore.empty with
    threads := .single (mkThread "anna" (Host.numbered "a" "10:00") "t" ["anna", "bert", "cleo"]
      .help none none) }

/-- Two claims, a reply, and a close. -/
def sampleCalls : List ThreadCall :=
  [⟨"bert", Host.numbered "b" "10:01", .claim "t" "on it"⟩,
   ⟨"cleo", Host.numbered "c" "10:02", .claim "t" "me too"⟩,
   ⟨"anna", Host.numbered "d" "10:03", .reply "t" "thanks" none⟩,
   ⟨"anna", Host.numbered "e" "10:04", .closeThread "t" none none⟩]

/-- One after the other, they meet the condition. -/
theorem thread_machine_sample :
    Machine sampleCalls sampleHelp
      (List.replicate 8 0 ++ List.replicate 8 1 ++ List.replicate 8 2 ++ List.replicate 8 3) :=
  thread_machine
    (fun k t ht => by
      cases List.mem_singleton.mp (Table.find_eq_some_iff.mp ht).1
      exact mkThread_sane)
    (by decide +kernel)

/-- The reply has read the thread before it is closed, and writes it afterwards: the thread is
open again. -/
theorem sampleCalls_reopened : ¬ Machine sampleCalls sampleHelp [2, 3, 3, 2] := by
  intro h
  have hclosed : (((threadStart sampleHelp sampleCalls).run [2, 3, 3]).world.db.threads.find
      "t").map Thread.status = some .closed := by decide +kernel
  have hopen : (((threadStart sampleHelp sampleCalls).run [2, 3, 3, 2]).world.db.threads.find
      "t").map Thread.status = some .opened := by decide +kernel
  obtain ⟨t, ht, hstatus⟩ := Option.map_eq_some_iff.mp hclosed
  obtain ⟨t', ht', hstatus', -⟩ := h.absorbing [2, 3, 3] [2] rfl "t" t ht hstatus
  rw [ht', Option.map_some, hstatus'] at hopen
  cases hopen

end EighthLayer.CrosstalkMcp
