import EighthLayer.CrosstalkMcp.Adoption
import EighthLayer.CrosstalkMcp.Help
import EighthLayer.CrosstalkMcp.Threads

/-!
# EighthLayer.CrosstalkMcp.HelpThreads

Help threads, the broadcasts they were opened by, and what sessions have learned from them.

Three tables say when help has been given: `threads`, `help_broadcasts` and
`session_expertise_learned`. Only `close_thread` writes all three, and it does so whenever it is called.
They agree in every run in which a help thread is closed once, by `close_thread` and in no other way,
and in which the tags of its topic are read off the subject line one by one (`help_threads_agree`).
-/

namespace EighthLayer.CrosstalkMcp

open Lib

/-! ## The tables -/

/-- A row of `help_broadcasts`. -/
structure HelpBroadcast where
  id : String
  topic : String
  sender : String
  openedAt : String
  resolvedAt : Option String
  resolver : Option String
  resolutionSummary : Option String
deriving DecidableEq

/-- A row of `session_expertise_learned`. -/
structure LearnedExpertise where
  session : String
  topicTag : String
  resolutionCount : Nat
deriving DecidableEq

/-- The primary key of `session_expertise_learned`. -/
def LearnedExpertise.key (e : LearnedExpertise) : String × String := (e.session, e.topicTag)

/-- The row after one more resolution. -/
def LearnedExpertise.again (e : LearnedExpertise) : LearnedExpertise :=
  { e with resolutionCount := e.resolutionCount + 1 }

theorem LearnedExpertise.again_key (e : LearnedExpertise) : e.again.key = e.key := rfl

/-- The broadcast once it is resolved. -/
def HelpBroadcast.resolve (b : HelpBroadcast) (resolver : String) (summary : Option String)
    (resolvedAt : String) : HelpBroadcast :=
  { b with
    resolvedAt := some resolvedAt
    resolver := orNull (some resolver)
    resolutionSummary := orNull summary }

theorem HelpBroadcast.resolve_id (b : HelpBroadcast) (resolver : String) (summary : Option String)
    (resolvedAt : String) : (b.resolve resolver summary resolvedAt).id = b.id := rfl

/-- What the servers share, with the tables that are about help; `subject` is the column of
`threads`. -/
structure HelpStore where
  mcp : McpStore
  subject : String → String
  broadcasts : Table HelpBroadcast.id
  learned : Table LearnedExpertise.key

namespace HelpStore

/-- `insertHelpBroadcast`, for a thread of this subject. Ids are drawn at random. -/
def insertHelpBroadcast (s : HelpStore) (b : HelpBroadcast) : HelpStore :=
  { s with
    subject := fun id => if id = b.id then "[help] " ++ b.topic else s.subject id
    broadcasts := s.broadcasts.insertOrIgnore b }

/-- `resolveHelpBroadcast`. -/
def resolveHelpBroadcast (s : HelpStore) (id resolver : String) (summary : Option String)
    (resolvedAt : String) : HelpStore :=
  { s with
    broadcasts := s.broadcasts.update (fun b => b.id = id)
      (fun b => b.resolve resolver summary resolvedAt)
      fun b => b.resolve_id resolver summary resolvedAt }

/-- `upsertLearnedExpertise`. -/
def upsertLearnedExpertise (s : HelpStore) (session topicTag : String) : HelpStore :=
  { s with
    learned := match s.learned.find (session, topicTag) with
      | none => s.learned.insertOrIgnore ⟨session, topicTag, 1⟩
      | some _ => s.learned.update (fun e => e.key = (session, topicTag)) .again
          LearnedExpertise.again_key }

/-- How often a session has resolved a topic with the tag, by its row. -/
def resolutionCount (s : HelpStore) (session topicTag : String) : Nat :=
  ((s.learned.find (session, topicTag)).map LearnedExpertise.resolutionCount).getD 0

end HelpStore

/-! ## Calls -/

/-- What the `.` of a regular expression does not match. -/
def lineTerminator (c : Char) : Bool :=
  c == '\n' || c == '\r' || c.toNat == 0x2028 || c.toNat == 0x2029

/-- The group of `/^\[help\]\s+(.+)$/`. The white space is taken as far as it goes; where nothing is
left of the subject the last of it is given back. -/
def topicMatch (subject : String) : Option String :=
  match subject.toList with
  | '[' :: 'h' :: 'e' :: 'l' :: 'p' :: ']' :: c :: rest =>
    if !jsSpace c then none
    else
      match rest.dropWhile jsSpace with
      | [] => (rest.getLast?.filter fun d => !lineTerminator d).map String.singleton
      | topic => if topic.any lineTerminator then none else some (String.ofList topic)
  | _ => none

/-- A call of `help`, or one of a tool that works on a thread. -/
inductive HelpCall where
  | help (me : String) (host : Host) (routed : List String) (topic question : String)
  | onThread (call : ThreadCall)

/-- Who resolves a help thread that is closed. -/
def resolverOf (me : String) (resolution : Option ResolutionArg) : String :=
  match resolution with
  | some r => (orNull r.resolvedBy).getD me
  | none => me

/-- What `close_thread` does to the tables about help, before it closes the thread. -/
def HelpStore.close (lower : String → String) (s : HelpStore) (me : String) (host : Host)
    (threadId : String) (reason : Option String) (resolution : Option ResolutionArg) : HelpStore :=
  match s.mcp.threads.find threadId with
  | some t =>
    if t.kind = .help then
      let resolver := resolverOf me resolution
      let summary := match resolution with
        | some r => r.summary
        | none => reason
      (((topicMatch (s.subject threadId)).map (topicTokens lower)).getD []).foldl
        (fun s tag => s.upsertLearnedExpertise resolver tag)
        (s.resolveHelpBroadcast threadId resolver summary host.now)
    else s
  | none => s

/-- A call: its answer, and what it makes of the store. -/
def HelpStore.perform (lower : String → String) (s : HelpStore) : HelpCall → McpAnswer × HelpStore
  | .help me host routed topic question =>
    if topic = "" ∨ question = "" then (.refused .badArguments, s)
    else
      let r := (help me host routed topic question).alone s.mcp
      match r.1 with
      | .sent id =>
        (r.1, { s with mcp := r.2 }.insertHelpBroadcast ⟨id, topic, me, host.now, none, none, none⟩)
      | _ => (r.1, { s with mcp := r.2 })
  | .onThread call =>
    let s := match call.tool with
      | .closeThread threadId reason resolution =>
        s.close lower call.me call.host threadId reason resolution
      | _ => s
    let r := call.prog.alone s.mcp
    (r.1, { s with mcp := r.2 })

/-- The help thread that a call closes by `close_thread`, and who resolves it. -/
def HelpStore.closeOf (s : HelpStore) : HelpCall → List (String × String)
  | .onThread ⟨me, _, .closeThread threadId _ resolution⟩ =>
    match s.mcp.threads.find threadId with
    | some t => if t.kind = .help then [(threadId, resolverOf me resolution)] else []
    | none => []
  | _ => []

/-- The store after some calls, and the closes that there were. -/
def HelpStore.run (lower : String → String) :
    HelpStore × List (String × String) → List HelpCall → HelpStore × List (String × String)
  | s, [] => s
  | (s, closes), c :: calls =>
    HelpStore.run lower ((s.perform lower c).2, closes ++ s.closeOf c) calls

/-! ## Agreement -/

/-- Of a help thread whether it is closed. -/
def helpStatus (s : McpStore) (threadId : String) : Option Bool :=
  (s.threads.find threadId).bind fun t => if t.kind = .help then some (t.status = .closed) else none

/-- The three tables agree with each other and with the closes that there were. -/
structure Agree (lower : String → String) (s : HelpStore) (closes : List (String × String)) : Prop where
  /-- A broadcast is resolved exactly when its thread is closed. -/
  resolved : ∀ b ∈ s.broadcasts, helpStatus s.mcp b.id = some b.resolvedAt.isSome
  /-- Its resolver is that of the first close. -/
  resolver : ∀ b ∈ s.broadcasts,
    b.resolver = orNull ((closes.find? fun c => c.1 = b.id).map Prod.snd)
  /-- What a session has learned is how many threads were closed with it as the resolver. -/
  counts : ∀ session tag, s.resolutionCount session tag = s.broadcasts.rows.countP fun b =>
    tag ∈ topicTokens lower b.topic ∧ (b.id, session) ∈ closes

/-- What holds besides, in the runs in which they do. -/
structure AgreeAll (lower : String → String) (s : HelpStore) (closes : List (String × String)) : Prop
    extends Agree lower s closes where
  /-- A help thread has a broadcast. -/
  opened : ∀ id, (helpStatus s.mcp id).isSome = true → ∃ b ∈ s.broadcasts, b.id = id
  subject : ∀ b ∈ s.broadcasts, s.subject b.id = "[help] " ++ b.topic ∧ b.topic ≠ ""
  closed : ∀ c ∈ closes, helpStatus s.mcp c.1 = some true

/-! ### Threads -/

/-- The help threads of two stores, and whether they are closed. -/
def SameHelp (s s' : McpStore) : Prop := ∀ id, helpStatus s' id = helpStatus s id

theorem helpStatus_congr {s s' : McpStore} (h : s'.threads = s.threads) : SameHelp s s' := by
  intro id
  unfold helpStatus
  rw [h]

/-- What an upsert of a thread that is there says of its status. -/
theorem helpStatus_upsertThread {s : McpStore} {t t' : Thread} (ht : s.threads.find t.id = some t)
    (hid : t'.id = t.id) (id : String) :
    helpStatus (s.upsertThread t') id =
      if id = t.id then if t.kind = .help then some (decide (t'.status = .closed)) else none
      else helpStatus s id := by
  have hthreads : (s.upsertThread t').threads = s.threads.update (fun old => old.id = t'.id)
      (fun old => old.merge t') fun old => old.merge_id t' := by
    unfold McpStore.upsertThread
    rw [hid, ht]
  unfold helpStatus
  rw [hthreads, Table.find_update]
  by_cases hsame : id = t.id
  · subst hsame
    rw [ht, if_pos rfl, Option.map_some, Option.bind_some, if_pos (decide_eq_true hid.symm)]
    rfl
  · rw [if_neg hsame]
    cases hfind : s.threads.find id with
    | none => rfl
    | some old =>
        have hold := (Table.find_eq_some_iff.mp hfind).2
        have hne : ¬ old.id = t'.id := by
          rw [hold, hid]
          exact hsame
        have hfalse : ¬ decide (old.id = t'.id) = true := fun h => hne (of_decide_eq_true h)
        rw [Option.map_some, Option.bind_some, Option.bind_some, if_neg hfalse]

/-- A help thread that is new is open. -/
theorem helpStatus_newThread {s : McpStore} {t : Thread} (hnew : s.threads.find t.id = none)
    (hkind : t.kind = .help) (hstatus : t.status = .opened) (id : String) :
    helpStatus (s.upsertThread t) id = if id = t.id then some false else helpStatus s id := by
  have hthreads : (s.upsertThread t).threads = s.threads.insertOrIgnore t := by
    unfold McpStore.upsertThread
    rw [hnew]
  unfold helpStatus
  rw [hthreads, Table.find_insertOrIgnore]
  by_cases hsame : id = t.id
  · subst hsame
    rw [hnew, if_pos rfl, if_pos rfl, Option.none_or, Option.bind_some, if_pos hkind, hstatus]
    rfl
  · rw [if_neg hsame, if_neg (Ne.symm hsame), Option.or_none]

/-- A thread that is written back as closed or not closed as it was is the same. -/
theorem sameHelp_upsertThread {s : McpStore} {t u : Thread} (ht : s.threads.find t.id = some t)
    (hid : u.id = t.id) (hstatus : u.status = .closed ↔ t.status = .closed) :
    SameHelp s (s.upsertThread u) := by
  intro id
  rw [helpStatus_upsertThread ht hid]
  split
  · rename_i hsame
    subst hsame
    unfold helpStatus
    rw [ht, Option.bind_some, decide_eq_decide.mpr hstatus]
  · rfl

/-! ### Tools -/

/-- A program that goes on with another one once it has done what leaves the threads as they are. -/
def LeadsTo {α : Type} (p next : McpProg α) : Prop :=
  ∀ s : McpStore, ∃ s', s'.threads = s.threads ∧ p.alone s = next.alone s'

theorem LeadsTo.refl {α : Type} (p : McpProg α) : LeadsTo p p := fun s => ⟨s, rfl, rfl⟩

theorem LeadsTo.trans {α : Type} {p q r : McpProg α} (h : LeadsTo p q) (h' : LeadsTo q r) :
    LeadsTo p r := by
  intro s
  obtain ⟨s₁, hthreads, halone⟩ := h s
  obtain ⟨s₂, hthreads', halone'⟩ := h' s₁
  exact ⟨s₂, hthreads'.trans hthreads, halone.trans halone'⟩

/-- What it does to the threads is what the other does. -/
theorem LeadsTo.threads {α : Type} {p : McpProg α} {a : α} (h : LeadsTo p (.done a)) (s : McpStore) :
    (p.alone s).1 = a ∧ SameHelp s (p.alone s).2 := by
  obtain ⟨s', hthreads, halone⟩ := h s
  rw [halone]
  exact ⟨rfl, helpStatus_congr hthreads⟩

theorem insertMessage_leadsTo {α : Type} (m : Message) (sessions : List String)
    (next : McpProg α) : LeadsTo (insertMessage m sessions next) next := by
  intro s
  obtain ⟨s', -, hthreads, halone⟩ := insertMessage_alone m sessions next s
  exact ⟨s', hthreads, halone⟩

theorem appendToInboxFiles_leadsTo {α : Type} (m : Message) (sessions : List String)
    (next : McpProg α) : LeadsTo (appendToInboxFiles m sessions next) next := by
  intro s
  obtain ⟨s', -, hthreads, halone⟩ := appendToInboxFiles_alone m sessions next s
  exact ⟨s', hthreads, halone⟩

/-- A message to one session. -/
theorem tell_leadsTo {α : Type} (m : Message) (target : String) (next : McpProg α) :
    LeadsTo (insertMessage m [] (appendToInboxFiles m [target] next)) next :=
  (insertMessage_leadsTo _ _ _).trans (appendToInboxFiles_leadsTo _ _ _)

theorem fanOut_leadsTo {α : Type} (m : String → Message) (recipients : List String)
    (next : McpProg α) : LeadsTo (fanOut m recipients next) next := by
  cases recipients with
  | nil => exact .refl next
  | cons r rest =>
      exact (insertMessage_leadsTo _ _ _).trans (appendToInboxFiles_leadsTo _ _ _)

theorem announce_leadsTo {α : Type} (host : Host) (m : String → String → Message) (n : Nat)
    (targets : List String) (next : McpProg α) : LeadsTo (announce host m n targets next) next := by
  induction targets generalizing n with
  | nil => exact .refl next
  | cons target rest ih =>
      exact (tell_leadsTo _ _ _).trans (ih (n + 1))

/-- A tool that reads a thread, and refuses where there is none. -/
theorem alone_getThread {α : Type} {s : McpStore} {threadId : String} {x : Option Thread}
    (h : s.threads.find threadId = x) (k : Option Thread → McpProg α) :
    (Prog.call (A := McpStmt.Answer) (.getThread threadId) k).alone s = (k x).alone s := by
  subst h
  rfl

/-- The messages of a reply leave the threads as they are. -/
theorem sendReply_leadsTo (me : String) (host : Host) (t : Thread) (m : String → Message) :
    ∃ a, LeadsTo (
      if t.participants.length > 2 then
        fanOut m (t.participants.filter (· ≠ me)) (.done (McpAnswer.replied t.id))
      else
        match t.participants.find? (· ≠ me) with
        | none => .done (.refused .noOther)
        | some target =>
          if host.gone target then .done (.refused .notDelivered)
          else
            insertMessage (m target) []
              (appendToInboxFiles (m target) [target] (.done (.replied t.id)))) (.done a) := by
  by_cases hmany : t.participants.length > 2
  · rw [if_pos hmany]
    exact ⟨_, fanOut_leadsTo _ _ _⟩
  · rw [if_neg hmany]
    cases t.participants.find? (· ≠ me) with
    | none => exact ⟨_, .refl _⟩
    | some target =>
        dsimp only
        by_cases hgone : host.gone target = true
        · rw [if_pos hgone]
          exact ⟨_, .refl _⟩
        · rw [if_neg hgone]
          exact ⟨_, tell_leadsTo _ _ _⟩

/-- A reply closes nothing, and neither does it open what is closed. -/
theorem reply_sameHelp (s : McpStore) (me : String) (host : Host) (threadId content : String)
    (tag : Option String) : SameHelp s ((reply me host threadId content tag).alone s).2 := by
  unfold reply
  cases hfind : s.threads.find threadId with
  | none =>
      rw [alone_getThread hfind]
      exact helpStatus_congr rfl
  | some t =>
      obtain rfl := (Table.find_eq_some_iff.mp hfind).2
      rw [alone_getThread hfind]
      dsimp only
      by_cases hclosed : t.status = .closed
      · rw [if_pos hclosed]
        exact helpStatus_congr rfl
      · have hwritten : SameHelp s (s.upsertThread { t with updated := host.now }) :=
          sameHelp_upsertThread hfind rfl Iff.rfl
        rw [if_neg hclosed]
        intro id
        obtain ⟨a, hdone⟩ := sendReply_leadsTo me host t
          (mkMessage me host t.id (host.fresh 0) .reply content tag (s.lastIncomingTag t.id me))
        rw [← hwritten id]
        exact (hdone.threads (s.upsertThread { t with updated := host.now })).2 id

/-- A claim neither. -/
theorem claim_sameHelp (s : McpStore) (me : String) (host : Host) (helpId commitment : String) :
    SameHelp s ((claim me host helpId commitment).alone s).2 := by
  unfold claim
  cases hfind : s.threads.find helpId with
  | none =>
      rw [alone_getThread hfind]
      exact helpStatus_congr rfl
  | some t =>
      obtain rfl := (Table.find_eq_some_iff.mp hfind).2
      rw [alone_getThread hfind]
      dsimp only
      by_cases hkind : t.kind ≠ .help
      · rw [if_pos hkind]
        exact helpStatus_congr rfl
      · by_cases hclosed : t.status = .closed
        · rw [if_neg hkind, if_pos hclosed]
          exact helpStatus_congr rfl
        · rw [if_neg hkind, if_neg hclosed]
          intro id
          rw [← sameHelp_upsertThread hfind (u := { t with
              updated := host.now, status := .claimed,
              resolution := some (claimResolution me host t.resolution) }) rfl
            (iff_of_false (by simp) hclosed) id]
          exact ((announce_leadsTo host _ 0 _ (.done _)).threads _).2 id

/-- What `close_thread` closes. -/
theorem closeThread_helpStatus (s : McpStore) (me : String) (host : Host) (threadId : String)
    (reason : Option String) (resolution : Option ResolutionArg) (id : String) :
    helpStatus ((closeThread me host threadId reason resolution).alone s).2 id =
      if id = threadId then (helpStatus s threadId).map fun _ => true else helpStatus s id := by
  unfold closeThread
  cases hfind : s.threads.find threadId with
  | none =>
      rw [alone_getThread hfind]
      dsimp only [Prog.alone_done]
      split
      · rename_i hsame
        subst hsame
        unfold helpStatus
        rw [hfind]
        rfl
      · rfl
  | some t =>
      obtain rfl := (Table.find_eq_some_iff.mp hfind).2
      rw [alone_getThread hfind]
      refine (((announce_leadsTo host _ 0 _ (.done _)).threads _).2 id).trans ?_
      refine (helpStatus_upsertThread hfind ?_ id).trans ?_
      · rfl
      · split
        · unfold helpStatus
          rw [hfind, Option.bind_some]
          split
          · rfl
          · rfl
        · rfl

/-- A session has a message in a thread that it can reject the routing of. -/
def HasRouted (s : McpStore) (me threadId : String) : Prop :=
  (∃ t, s.threads.find threadId = some t ∧ me ∈ t.participants) ∧
    ∃ m ∈ s.getMessages threadId, m.toSession = me ∧ (orNull m.toTag).isSome = true

/-- A rejection closes no help thread that has no routed message. -/
theorem rejectRouting_sameHelp {s : McpStore} {me threadId : String} (host : Host) (reason : String)
    (h : helpStatus s threadId = some false → ¬ HasRouted s me threadId) :
    SameHelp s ((rejectRouting me host threadId reason).alone s).2 := by
  unfold rejectRouting
  cases hfind : s.threads.find threadId with
  | none =>
      rw [alone_getThread hfind]
      exact helpStatus_congr rfl
  | some t =>
      rw [alone_getThread hfind]
      dsimp only
      by_cases hme : me ∉ t.participants
      · rw [if_pos hme]
        exact helpStatus_congr rfl
      · rw [if_neg hme, Prog.alone_call]
        cases hrouted : (s.getMessages threadId).reverse.find? fun m =>
            decide (m.toSession = me) && (orNull m.toTag).isSome with
        | none =>
            have hanswer : (Database.exec (A := McpStmt.Answer) (.getMessages threadId) s).1 =
                s.getMessages threadId := rfl
            rw [hanswer, hrouted]
            exact helpStatus_congr rfl
        | some routed =>
            have hanswer : (Database.exec (A := McpStmt.Answer) (.getMessages threadId) s).1 =
                s.getMessages threadId := rfl
            rw [hanswer, hrouted]
            dsimp only
            rw [Prog.alone_call]
            have hfound := List.find?_some hrouted
            obtain ⟨hto, htag⟩ := Bool.and_eq_true_iff.mp hfound
            have hopen : helpStatus s threadId ≠ some false := fun hopen =>
              h hopen ⟨⟨t, hfind, not_not.mp hme⟩, routed,
                List.mem_reverse.mp (List.mem_of_find?_eq_some hrouted), of_decide_eq_true hto, htag⟩
            obtain rfl := (Table.find_eq_some_iff.mp hfind).2
            obtain ⟨s', hthreads, halone⟩ := tell_leadsTo
              (mkMessage me host t.id (host.fresh 0) .routingRejected
                ("[routing rejected by " ++ me ++ "] " ++ reason) none routed.fromTag
                routed.fromSession) routed.fromSession
              (.call (.upsertThread { t with
                  updated := host.now, status := .closed, closedBy := some me,
                  closeReason := some ("routing_rejected: " ++ reason) }) fun _ =>
                .done (McpAnswer.rejected t.id))
              (McpStmt.exec (.rejectRoutings t.id me host.now) s).2
            intro id
            refine (congrArg (fun r => helpStatus r.2 id) halone).trans ?_
            have hfind' : s'.threads.find t.id = some t := by
              rw [hthreads]
              exact hfind
            refine (helpStatus_upsertThread hfind' ?_ id).trans ?_
            · rfl
            · split
              · -- a help thread that is rejected is one that is closed already
                rename_i hsame
                subst hsame
                unfold helpStatus at hopen ⊢
                rw [hfind, Option.bind_some] at hopen ⊢
                split
                · rename_i hkind
                  rw [if_pos hkind] at hopen
                  by_cases hclosed : t.status = .closed
                  · simp [hclosed]
                  · simp [hclosed] at hopen
                · rfl
              · exact helpStatus_congr hthreads id

/-- The reaper closes no help thread where none is stale. -/
theorem reap_sameHelp {s : McpStore} (host : Host) {stale : String → Bool}
    (h : ∀ t ∈ s.threads, t.kind = .help → t.status = .opened → stale t.updated = false) :
    SameHelp s ((reapStaleThreads host stale).alone s).2 := by
  intro id
  show helpStatus ((McpStmt.reap stale "auto-reaped: no activity in 7+ days" host.now).exec s).2 id =
    helpStatus s id
  unfold helpStatus
  rw [find_reap]
  cases hfind : s.threads.find id with
  | none => rfl
  | some t =>
      rw [Option.map_some, Option.bind_some, Option.bind_some]
      split
      · rename_i hreap
        obtain ⟨hopen, hstale⟩ := Bool.and_eq_true_iff.mp hreap
        by_cases hkind : t.kind = .help
        · rw [h t (Table.find_eq_some_iff.mp hfind).1 hkind (of_decide_eq_true hopen)] at hstale
          cases hstale
        · have hkind' : ¬ (t.reap "auto-reaped: no activity in 7+ days" host.now).kind = .help := hkind
          rw [if_neg hkind, if_neg hkind']
      · rfl

/-- What `help` opens. -/
theorem help_helpStatus {s : McpStore} {host : Host} (hnew : s.threads.find (host.fresh 0) = none)
    (me : String) (routed : List String) (topic question : String) :
    (((help me host routed topic question).alone s).1 = .unmatched ∧
      SameHelp s ((help me host routed topic question).alone s).2) ∨
    (((help me host routed topic question).alone s).1 = .sent (host.fresh 0) ∧
      ∀ id, helpStatus ((help me host routed topic question).alone s).2 id =
        if id = host.fresh 0 then some false else helpStatus s id) := by
  unfold help
  split
  · exact .inl ⟨rfl, helpStatus_congr rfl⟩
  · refine .inr ?_
    unfold openThread
    obtain ⟨hanswer, hsame⟩ := (fanOut_leadsTo
      (mkMessage me host (host.fresh 0) (host.fresh 1) .help
        ("[help/" ++ topic ++ "] " ++ question) none none)
      (routed.filter (· ≠ me)) (.done (McpAnswer.sent (host.fresh 0)))).threads
      (s.upsertThread (mkThread me host (host.fresh 0) (me :: routed.filter (· ≠ me)) .help none none))
    refine ⟨hanswer, fun id => (hsame id).trans ?_⟩
    exact helpStatus_newThread hnew rfl rfl id

/-! ### Topics and tags -/

/-- Topics have the same tags where they are the same but for white space around them. -/
theorem topicTokens_congr (lower : String → String) {topic topic' : String}
    (h : trim jsSpace topic.toList = trim jsSpace topic'.toList) :
    topicTokens lower topic = topicTokens lower topic' := by
  unfold topicTokens
  rw [h]

theorem trim_dropWhile (p : Char → Bool) (l : List Char) : trim p (l.dropWhile p) = trim p l := by
  unfold trim
  rw [List.dropWhile_idempotent]

/-- The tags of a subject line are those of the topic, if that is one line. -/
theorem topicMatch_subject (lower : String → String) {topic : String} (hne : topic ≠ "")
    (hline : ∀ c ∈ topic.toList, lineTerminator c = false) :
    (topicMatch ("[help] " ++ topic)).map (topicTokens lower) = some (topicTokens lower topic) := by
  have hchars : ("[help] " ++ topic).toList =
      '[' :: 'h' :: 'e' :: 'l' :: 'p' :: ']' :: ' ' :: topic.toList := by
    rw [String.toList_append]
    rfl
  have hmatch : topicMatch ("[help] " ++ topic) =
      match topic.toList.dropWhile jsSpace with
      | [] => (topic.toList.getLast?.filter fun d => !lineTerminator d).map String.singleton
      | rest => if rest.any lineTerminator then none else some (String.ofList rest) := by
    unfold topicMatch
    rw [hchars]
    rfl
  rw [hmatch]
  cases hrest : topic.toList.dropWhile jsSpace with
  | nil =>
      -- a topic of white space has no tags, and neither has its last character
      dsimp only
      have hnil : topic.toList ≠ [] := fun h => hne (String.toList_eq_nil_iff.mp h)
      have hspace : ∀ c ∈ topic.toList, jsSpace c = true := List.dropWhile_eq_nil_iff.mp hrest
      have hlast : topic.toList.getLast? = some (topic.toList.getLast hnil) :=
        List.getLast?_eq_some_getLast hnil
      have hmem := List.getLast_mem hnil
      rw [hlast, Option.filter_some, hline _ hmem, Bool.not_false, if_pos rfl, Option.map_some,
        Option.map_some]
      refine congrArg some (topicTokens_congr lower ?_)
      rw [String.toList_singleton, trim, trim, hrest, List.dropWhile_cons, hspace _ hmem]
      rfl
  | cons c rest =>
      have hall : (c :: rest).any lineTerminator = false := by
        rw [List.any_eq_false, ← hrest]
        intro d hd
        rw [hline d ((List.dropWhile_suffix _).subset hd)]
        exact Bool.false_ne_true
      dsimp only
      rw [hall, if_neg Bool.false_ne_true, Option.map_some]
      refine congrArg some (topicTokens_congr lower ?_)
      rw [String.toList_ofList, ← hrest, trim_dropWhile]

namespace HelpStore

/-- **One more resolution.** -/
theorem resolutionCount_upsert (s : HelpStore) (session tag session' tag' : String) :
    (s.upsertLearnedExpertise session tag).resolutionCount session' tag' =
      s.resolutionCount session' tag' + if session' = session ∧ tag' = tag then 1 else 0 := by
  unfold resolutionCount upsertLearnedExpertise
  dsimp only
  by_cases hsame : session' = session ∧ tag' = tag
  · obtain ⟨rfl, rfl⟩ := hsame
    rw [if_pos ⟨rfl, rfl⟩]
    cases hfind : s.learned.find (session', tag') with
    | none =>
        dsimp only
        rw [Table.find_insertOrIgnore, hfind]
        simp [LearnedExpertise.key]
    | some e =>
        have hkey := (Table.find_eq_some_iff.mp hfind).2
        dsimp only
        rw [Table.find_update, hfind]
        simp [hkey, LearnedExpertise.again]
  · rw [if_neg hsame]
    have hkey : ¬ (session, tag) = (session', tag') := fun h => by
      cases h
      exact hsame ⟨rfl, rfl⟩
    cases hfind : s.learned.find (session, tag) with
    | none =>
        dsimp only
        rw [Table.find_insertOrIgnore]
        simp [LearnedExpertise.key, hkey]
    | some e =>
        dsimp only
        rw [Table.find_update]
        cases hfind' : s.learned.find (session', tag') with
        | none => rfl
        | some e' =>
            have hkey' := (Table.find_eq_some_iff.mp hfind').2
            simp [hkey', Ne.symm hkey]

/-- As many as there are tags. -/
theorem resolutionCount_foldl {tags : List String} (hnodup : tags.Nodup) (s : HelpStore)
    (session session' tag' : String) :
    (tags.foldl (fun s tag => s.upsertLearnedExpertise session tag) s).resolutionCount session' tag' =
      s.resolutionCount session' tag' + if session' = session ∧ tag' ∈ tags then 1 else 0 := by
  induction tags generalizing s with
  | nil => simp
  | cons tag tags ih =>
      obtain ⟨hnotin, hrest⟩ := List.nodup_cons.mp hnodup
      rw [List.foldl_cons, ih hrest, resolutionCount_upsert, Nat.add_assoc]
      congr 1
      by_cases hsession : session' = session
      · by_cases htag : tag' = tag
        · subst htag
          simp [hsession, hnotin]
        · simp [hsession, htag]
      · simp [hsession]

/-- What is learned changes nothing else. -/
theorem foldl_upsertLearnedExpertise (tags : List String) (session : String) (s : HelpStore) :
    ∃ learned, tags.foldl (fun s tag => s.upsertLearnedExpertise session tag) s =
      { s with learned } := by
  induction tags generalizing s with
  | nil => exact ⟨s.learned, rfl⟩
  | cons tag tags ih =>
      obtain ⟨learned, h⟩ := ih (s.upsertLearnedExpertise session tag)
      exact ⟨learned, h⟩

end HelpStore

/-! ### Runs -/

/-- A call that does not make the tables differ: a help thread is opened under a new id, is not
closed again, is closed neither by a rejection nor by the reaper, and its topic is one line of
distinct tags when it is closed. -/
def Careful (lower : String → String) (s : HelpStore) : HelpCall → Prop
  | .help _ host _ _ _ => s.mcp.threads.find (host.fresh 0) = none
  | .onThread ⟨me, _, tool⟩ =>
    match tool with
    | .reply .. | .claim .. => True
    | .closeThread threadId _ _ => helpStatus s.mcp threadId ≠ some true ∧
        ∀ b ∈ s.broadcasts, b.id = threadId → (topicTokens lower b.topic).Nodup ∧
          ∀ c ∈ b.topic.toList, lineTerminator c = false
    | .rejectRouting threadId _ => helpStatus s.mcp threadId = some false →
        ¬ HasRouted s.mcp me threadId
    | .reap stale => ∀ t ∈ s.mcp.threads, t.kind = .help → t.status = .opened →
        stale t.updated = false

/-- Every call of a run is one. -/
def CarefulRun (lower : String → String) (s : HelpStore) : List HelpCall → Prop
  | [] => True
  | c :: calls => Careful lower s c ∧ CarefulRun lower (s.perform lower c).2 calls

variable {lower : String → String} {s : HelpStore} {closes : List (String × String)}

/-- What leaves the help threads as they are. -/
theorem AgreeAll.of_sameHelp (h : AgreeAll lower s closes) {mcp : McpStore}
    (hsame : SameHelp s.mcp mcp) : AgreeAll lower { s with mcp } closes where
  resolved := fun b hb => (hsame b.id).trans (h.resolved b hb)
  resolver := h.resolver
  counts := h.counts
  opened := fun id hid => h.opened id ((hsame id) ▸ hid)
  subject := h.subject
  closed := fun c hc => (hsame c.1).trans (h.closed c hc)

theorem rows_insertOrIgnore_of_none {κ ρ : Type} {key : ρ → κ} [DecidableEq κ] {t : Table key}
    {r : ρ} (h : t.find (key r) = none) : (t.insertOrIgnore r).rows = t.rows ++ [r] := by
  unfold Table.insertOrIgnore
  cases hinsert : t.insert r with
  | none =>
      obtain ⟨r', hr', hkey⟩ := Table.insert_eq_none_iff.mp hinsert
      exact absurd hkey (Table.find_eq_none_iff.mp h r' hr')
  | some t' => exact (Table.insert_eq_some_iff.mp hinsert).2

/-- A help thread that is opened. -/
theorem AgreeAll.insert (h : AgreeAll lower s closes) {mcp : McpStore} {b : HelpBroadcast}
    (hnew : helpStatus s.mcp b.id = none)
    (hopened : ∀ id, helpStatus mcp id = if id = b.id then some false else helpStatus s.mcp id)
    (hb : b.resolvedAt = none ∧ b.resolver = none) (htopic : b.topic ≠ "") :
    AgreeAll lower ({ s with mcp }.insertHelpBroadcast b) closes := by
  have hfresh : s.broadcasts.find b.id = none := by
    refine Table.find_eq_none_iff.mpr fun b' hb' hid => ?_
    have hstatus := h.resolved b' hb'
    rw [hid, hnew] at hstatus
    cases hstatus
  have hunclosed : ∀ c ∈ closes, c.1 ≠ b.id := fun c hc heq => by
    have hclosed := h.closed c hc
    rw [heq, hnew] at hclosed
    cases hclosed
  have hold : ∀ b' ∈ s.broadcasts, b'.id ≠ b.id := Table.find_eq_none_iff.mp hfresh
  have hrows : ({ s with mcp }.insertHelpBroadcast b).broadcasts.rows = s.broadcasts.rows ++ [b] :=
    rows_insertOrIgnore_of_none hfresh
  have hmem : ∀ b', b' ∈ ({ s with mcp }.insertHelpBroadcast b).broadcasts →
      b' ∈ s.broadcasts ∨ b' = b := by
    intro b' hb'
    rcases Table.mem_insertOrIgnore.mp hb' with hb' | ⟨hb', -⟩
    · exact .inl hb'
    · exact .inr hb'
  refine ⟨⟨?_, ?_, ?_⟩, ?_, ?_, ?_⟩
  · intro b' hb'
    refine (hopened b'.id).trans ?_
    rcases hmem b' hb' with hb' | rfl
    · rw [if_neg (hold b' hb'), h.resolved b' hb']
    · rw [if_pos rfl, hb.1]
      rfl
  · intro b' hb'
    rcases hmem b' hb' with hb' | rfl
    · exact h.resolver b' hb'
    · rw [hb.2, List.find?_eq_none.mpr fun c hc => by simpa using hunclosed c hc]
      rfl
  · intro session tag
    refine (h.counts session tag).trans ?_
    rw [hrows, List.countP_append, List.countP_singleton, if_neg ?_, Nat.add_zero]
    intro hcounted
    exact hunclosed _ (of_decide_eq_true hcounted).2 rfl
  · intro id hid
    have hid : (helpStatus mcp id).isSome = true := hid
    rw [hopened id] at hid
    by_cases hsame : id = b.id
    · exact ⟨b, Table.mem_insertOrIgnore.mpr (.inr ⟨rfl, hfresh⟩), hsame.symm⟩
    · rw [if_neg hsame] at hid
      obtain ⟨b', hb', hid'⟩ := h.opened id hid
      exact ⟨b', Table.mem_insertOrIgnore.mpr (.inl hb'), hid'⟩
  · intro b' hb'
    unfold HelpStore.insertHelpBroadcast
    dsimp only
    rcases hmem b' hb' with hb' | rfl
    · rw [if_neg (hold b' hb')]
      exact h.subject b' hb'
    · rw [if_pos rfl]
      exact ⟨rfl, htopic⟩
  · intro c hc
    exact (hopened c.1).trans ((if_neg (hunclosed c hc)).trans (h.closed c hc))

/-- What `close_thread` does to the tables about help, where the thread is open and its topic one line
of distinct tags. -/
theorem AgreeAll.close_eq (h : AgreeAll lower s closes) {b : HelpBroadcast} (hb : b ∈ s.broadcasts)
    (htags : (topicTokens lower b.topic).Nodup)
    (hline : ∀ c ∈ b.topic.toList, lineTerminator c = false) (me : String) (host : Host)
    (reason : Option String) (resolution : Option ResolutionArg) :
    ∃ summary learned, s.close lower me host b.id reason resolution =
        { s.resolveHelpBroadcast b.id (resolverOf me resolution) summary host.now with learned } ∧
      ∀ session tag, (s.close lower me host b.id reason resolution).resolutionCount session tag =
        s.resolutionCount session tag +
          if session = resolverOf me resolution ∧ tag ∈ topicTokens lower b.topic then 1 else 0 := by
  have hstatus := h.resolved b hb
  obtain ⟨hsubject, hne⟩ := h.subject b hb
  unfold HelpStore.close
  cases hfind : s.mcp.threads.find b.id with
  | none =>
      unfold helpStatus at hstatus
      rw [hfind] at hstatus
      cases hstatus
  | some t =>
      have hkind : t.kind = .help := by
        by_contra hkind
        unfold helpStatus at hstatus
        rw [hfind, Option.bind_some, if_neg hkind] at hstatus
        cases hstatus
      dsimp only
      rw [if_pos hkind, hsubject, topicMatch_subject lower hne hline, Option.getD_some]
      obtain ⟨learned, hlearned⟩ := HelpStore.foldl_upsertLearnedExpertise
        (topicTokens lower b.topic) (resolverOf me resolution) (s.resolveHelpBroadcast b.id
          (resolverOf me resolution) (match resolution with | some r => r.summary | none => reason)
          host.now)
      refine ⟨_, learned, hlearned, fun session tag => ?_⟩
      rw [HelpStore.resolutionCount_foldl htags]
      rfl

/-- The threads that count, once one more is closed. -/
theorem countP_closed (b : HelpBroadcast) (hb : b ∈ s.broadcasts)
    (hopen : ∀ c ∈ closes, c.1 ≠ b.id) (resolver session tag : String)
    {f : HelpBroadcast → HelpBroadcast} (hf : ∀ r, (f r).id = r.id ∧ (f r).topic = r.topic) :
    ((s.broadcasts.rows.map f).countP fun r =>
        tag ∈ topicTokens lower r.topic ∧ (r.id, session) ∈ closes ++ [(b.id, resolver)]) =
      (s.broadcasts.rows.countP fun r =>
        tag ∈ topicTokens lower r.topic ∧ (r.id, session) ∈ closes) +
        if session = resolver ∧ tag ∈ topicTokens lower b.topic then 1 else 0 := by
  have hperm := Table.perm_of_find (Table.find_key hb)
  have hothers : ((s.broadcasts.delete fun x => x.id = b.id).rows.countP ((fun r : HelpBroadcast =>
        decide (tag ∈ topicTokens lower r.topic ∧ (r.id, session) ∈ closes ++ [(b.id, resolver)])) ∘
          f)) =
      (s.broadcasts.delete fun x => x.id = b.id).rows.countP fun r =>
        tag ∈ topicTokens lower r.topic ∧ (r.id, session) ∈ closes := by
    refine List.countP_congr fun r hr => ?_
    have hne : r.id ≠ b.id := of_decide_eq_false (Table.mem_delete.mp hr).2
    simp [hf r, hne]
  have hself : (b.id, session) ∉ closes := fun hc => hopen _ hc rfl
  rw [List.countP_map, hperm.countP_eq, hperm.countP_eq, List.countP_cons, List.countP_cons, hothers,
    Nat.add_assoc]
  congr 1
  simp [hf b, hself, and_comm]

/-- **A help thread that is closed.** -/
theorem AgreeAll.close (h : AgreeAll lower s closes) {b : HelpBroadcast} (hb : b ∈ s.broadcasts)
    (hopen : helpStatus s.mcp b.id ≠ some true) (htags : (topicTokens lower b.topic).Nodup)
    (hline : ∀ c ∈ b.topic.toList, lineTerminator c = false) (me : String) (host : Host)
    (reason : Option String) (resolution : Option ResolutionArg) {mcp : McpStore}
    (hmcp : ∀ id, helpStatus mcp id =
      if id = b.id then (helpStatus s.mcp b.id).map fun _ => true else helpStatus s.mcp id) :
    AgreeAll lower { s.close lower me host b.id reason resolution with mcp }
      (closes ++ [(b.id, resolverOf me resolution)]) := by
  have hunclosed : ∀ c ∈ closes, c.1 ≠ b.id := fun c hc heq => hopen (heq ▸ h.closed c hc)
  have hclosed : helpStatus mcp b.id = some true := by
    rw [hmcp, if_pos rfl, h.resolved b hb]
    rfl
  obtain ⟨summary, learned, heq, hcounts⟩ :=
    h.close_eq hb htags hline me host reason resolution
  -- a row of the new table is one of the old, resolved if it is that of the thread
  have hrow : ∀ b' ∈ (s.close lower me host b.id reason resolution).broadcasts,
      ∃ r ∈ s.broadcasts, b' = if r.id = b.id
        then r.resolve (resolverOf me resolution) summary host.now else r := by
    intro b' hb'
    rw [heq] at hb'
    obtain ⟨r, hr, hrb⟩ := (@Table.mem_update _ _ _ s.broadcasts _ _ (fun r =>
      r.resolve_id (resolverOf me resolution) summary host.now) b').mp hb'
    refine ⟨r, hr, ?_⟩
    rw [← hrb]
    simp
  refine ⟨⟨?_, ?_, ?_⟩, ?_, ?_, ?_⟩
  · intro b' hb'
    obtain ⟨r, hr, rfl⟩ := hrow b' hb'
    show helpStatus mcp _ = _
    by_cases hid : r.id = b.id
    · rw [if_pos hid, HelpBroadcast.resolve_id, hid, hclosed]
      rfl
    · rw [if_neg hid, hmcp, if_neg hid, h.resolved r hr]
  · intro b' hb'
    obtain ⟨r, hr, rfl⟩ := hrow b' hb'
    by_cases hid : r.id = b.id
    · rw [if_pos hid, HelpBroadcast.resolve_id, List.find?_append,
        List.find?_eq_none.mpr fun c hc => by simpa [hid] using hunclosed c hc]
      simp [hid, HelpBroadcast.resolve]
    · rw [if_neg hid, List.find?_append, List.find?_cons_of_neg (by simpa using Ne.symm hid),
        List.find?_nil, Option.or_none]
      exact h.resolver r hr
  · intro session tag
    refine (hcounts session tag).trans ?_
    rw [h.counts, heq]
    exact (countP_closed b hb hunclosed (resolverOf me resolution) session tag fun r => by
      split
      · exact ⟨rfl, rfl⟩
      · exact ⟨rfl, rfl⟩).symm
  · intro id hid
    have hid : (helpStatus mcp id).isSome = true := hid
    have hold : (helpStatus s.mcp id).isSome = true := by
      rw [hmcp] at hid
      split at hid
      · rename_i hsame
        rw [Option.isSome_map] at hid
        exact hsame ▸ hid
      · exact hid
    obtain ⟨r, hr, hrid⟩ := h.opened id hold
    rw [heq]
    refine ⟨_, (@Table.mem_update _ _ _ s.broadcasts _ _ (fun r =>
      r.resolve_id (resolverOf me resolution) summary host.now) _).mpr ⟨r, hr, rfl⟩, ?_⟩
    split
    · exact hrid
    · exact hrid
  · intro b' hb'
    obtain ⟨r, hr, rfl⟩ := hrow b' hb'
    rw [heq]
    split
    · exact h.subject r hr
    · exact h.subject r hr
  · intro c hc
    show helpStatus mcp c.1 = some true
    rcases List.mem_append.mp hc with hc | hc
    · rw [hmcp, if_neg (hunclosed c hc)]
      exact h.closed c hc
    · cases List.mem_singleton.mp hc
      exact hclosed

/-- What is closed is not a help thread. -/
theorem close_of_none {threadId : String} (h : helpStatus s.mcp threadId = none)
    (lower : String → String) (me : String) (host : Host) (reason : Option String)
    (resolution : Option ResolutionArg) :
    s.close lower me host threadId reason resolution = s ∧
      s.closeOf (.onThread ⟨me, host, .closeThread threadId reason resolution⟩) = [] := by
  unfold HelpStore.close HelpStore.closeOf
  unfold helpStatus at h
  dsimp only
  cases hfind : s.mcp.threads.find threadId with
  | none => exact ⟨rfl, rfl⟩
  | some t =>
      by_cases hkind : t.kind = .help
      · rw [hfind, Option.bind_some, if_pos hkind] at h
        cases h
      · exact ⟨if_neg hkind, if_neg hkind⟩

/-- It is one. -/
theorem closeOf_of_some {threadId : String} {closed : Bool}
    (h : helpStatus s.mcp threadId = some closed) (me : String) (host : Host)
    (reason : Option String) (resolution : Option ResolutionArg) :
    s.closeOf (.onThread ⟨me, host, .closeThread threadId reason resolution⟩) =
      [(threadId, resolverOf me resolution)] := by
  unfold HelpStore.closeOf
  unfold helpStatus at h
  dsimp only
  cases hfind : s.mcp.threads.find threadId with
  | none =>
      rw [hfind] at h
      cases h
  | some t =>
      by_cases hkind : t.kind = .help
      · exact if_pos hkind
      · rw [hfind, Option.bind_some, if_neg hkind] at h
        cases h

/-- The tables about help are not those that the tools on threads work on. -/
theorem mcp_close (lower : String → String) (s : HelpStore) (me : String) (host : Host)
    (threadId : String) (reason : Option String) (resolution : Option ResolutionArg) :
    (s.close lower me host threadId reason resolution).mcp = s.mcp := by
  unfold HelpStore.close
  split
  · split
    · obtain ⟨learned, heq⟩ := HelpStore.foldl_upsertLearnedExpertise
        (((topicMatch (s.subject threadId)).map (topicTokens lower)).getD [])
        (resolverOf me resolution) (s.resolveHelpBroadcast threadId (resolverOf me resolution)
          (match resolution with | some r => r.summary | none => reason) host.now)
      have hmcp := congrArg HelpStore.mcp heq
      exact hmcp
    · rfl
  · rfl

/-- **Step lemma.** -/
theorem AgreeAll.perform (h : AgreeAll lower s closes) {c : HelpCall} (hc : Careful lower s c) :
    AgreeAll lower (s.perform lower c).2 (closes ++ s.closeOf c) := by
  cases c with
  | help me host routed topic question =>
      rw [show s.closeOf (.help me host routed topic question) = [] from rfl, List.append_nil]
      have hnew : s.mcp.threads.find (host.fresh 0) = none := hc
      unfold HelpStore.perform
      dsimp only
      by_cases hempty : topic = "" ∨ question = ""
      · rw [if_pos hempty]
        exact h
      · rw [if_neg hempty]
        rcases help_helpStatus hnew me routed topic question with ⟨hanswer, hsame⟩ | ⟨hanswer, hstatus⟩
        · rw [hanswer]
          exact h.of_sameHelp hsame
        · rw [hanswer]
          refine h.insert ?_ hstatus ⟨rfl, rfl⟩ fun htopic => hempty (.inl htopic)
          unfold helpStatus
          rw [hnew]
          rfl
  | onThread call =>
      obtain ⟨me, host, tool⟩ := call
      cases tool with
      | reply threadId content tag =>
          rw [show s.closeOf (.onThread ⟨me, host, .reply threadId content tag⟩) = [] from rfl,
            List.append_nil]
          exact h.of_sameHelp (reply_sameHelp s.mcp me host threadId content tag)
      | claim helpId commitment =>
          rw [show s.closeOf (.onThread ⟨me, host, .claim helpId commitment⟩) = [] from rfl,
            List.append_nil]
          exact h.of_sameHelp (claim_sameHelp s.mcp me host helpId commitment)
      | rejectRouting threadId reason =>
          rw [show s.closeOf (.onThread ⟨me, host, .rejectRouting threadId reason⟩) = [] from rfl,
            List.append_nil]
          exact h.of_sameHelp (rejectRouting_sameHelp host reason hc)
      | reap stale =>
          rw [show s.closeOf (.onThread ⟨me, host, .reap stale⟩) = [] from rfl, List.append_nil]
          exact h.of_sameHelp (reap_sameHelp host hc)
      | closeThread threadId reason resolution =>
          obtain ⟨hopen, htopic⟩ := hc
          have hstatus := closeThread_helpStatus s.mcp me host threadId reason resolution
          have hperform : (s.perform lower (.onThread ⟨me, host, .closeThread threadId reason
              resolution⟩)).2 = { s.close lower me host threadId reason resolution with
                mcp := ((closeThread me host threadId reason resolution).alone s.mcp).2 } := by
            unfold HelpStore.perform ThreadCall.prog
            dsimp only
            rw [mcp_close]
          rw [hperform]
          cases hhelp : helpStatus s.mcp threadId with
          | none =>
              obtain ⟨hclose, hcloseOf⟩ := close_of_none hhelp lower me host reason resolution
              rw [hclose, hcloseOf, List.append_nil]
              refine h.of_sameHelp fun id => (hstatus id).trans ?_
              split
              · rename_i hsame
                rw [hsame, hhelp]
                rfl
              · rfl
          | some closed =>
              obtain ⟨b, hb, rfl⟩ := h.opened threadId (by rw [hhelp]; rfl)
              obtain ⟨htags, hline⟩ := htopic b hb rfl
              rw [closeOf_of_some hhelp]
              exact h.close hb hopen htags hline me host reason resolution hstatus

/-- **Run lemma.** -/
theorem AgreeAll.run (h : AgreeAll lower s closes) {calls : List HelpCall}
    (hcareful : CarefulRun lower s calls) :
    AgreeAll lower (HelpStore.run lower (s, closes) calls).1
      (HelpStore.run lower (s, closes) calls).2 := by
  induction calls generalizing s closes with
  | nil => exact h
  | cons c calls ih => exact ih (h.perform hcareful.1) hcareful.2

/-- A store in which nobody has asked for help. -/
structure Unasked (s : HelpStore) : Prop where
  threads : ∀ t ∈ s.mcp.threads, t.kind ≠ .help
  broadcasts : s.broadcasts = .empty
  learned : s.learned = .empty

theorem Unasked.agreeAll (h : Unasked s) (lower : String → String) : AgreeAll lower s [] := by
  have hstatus : ∀ id, helpStatus s.mcp id = none := by
    intro id
    unfold helpStatus
    cases hfind : s.mcp.threads.find id with
    | none => rfl
    | some t =>
        rw [Option.bind_some, if_neg (h.threads t (Table.find_eq_some_iff.mp hfind).1)]
  have hnone : ∀ b, b ∉ s.broadcasts := by
    intro b
    rw [h.broadcasts]
    exact Table.not_mem_empty b
  refine ⟨⟨?_, ?_, ?_⟩, ?_, ?_, ?_⟩
  · exact fun b hb => absurd hb (hnone b)
  · exact fun b hb => absurd hb (hnone b)
  · intro session tag
    unfold HelpStore.resolutionCount
    rw [h.broadcasts, h.learned]
    rfl
  · intro id hid
    rw [hstatus] at hid
    cases hid
  · exact fun b hb => absurd hb (hnone b)
  · exact fun c hc => absurd hc List.not_mem_nil

/-- **Help threads and broadcasts.** From a store in which nobody has asked for help, after any run of
careful calls a broadcast is resolved exactly when its thread is closed, by the resolver of the first
close, and sessions have learned as much as they have resolved. -/
theorem help_threads_agree (hs : Unasked s) {calls : List HelpCall}
    (hcareful : CarefulRun lower s calls) :
    Agree lower (HelpStore.run lower (s, []) calls).1 (HelpStore.run lower (s, []) calls).2 :=
  ((hs.agreeAll lower).run hcareful).toAgree

/-! ### Anna asks -/

/-- Nobody has asked for anything. -/
def unasked : HelpStore := ⟨.empty, fun _ => "", .empty, .empty⟩

theorem unasked_unasked : Unasked unasked where
  threads := fun t ht => absurd ht (Table.not_mem_empty t)
  broadcasts := rfl
  learned := rfl

/-- Anna asks Bert and Cleo. -/
def askHelp : HelpCall := .help "anna" (.numbered "a" "10:00") ["bert", "cleo"] "lean" "why?"

/-- A session closes the thread. -/
def closeHelp (me now : String) : HelpCall :=
  .onThread ⟨me, .numbered me now, .closeThread "a0" (some "done") none⟩

/-- Bert has helped. -/
theorem help_threads_sample :
    Agree id (HelpStore.run id (unasked, []) [askHelp, closeHelp "bert" "10:05"]).1
        (HelpStore.run id (unasked, []) [askHelp, closeHelp "bert" "10:05"]).2 ∧
      (HelpStore.run id (unasked, []) [askHelp, closeHelp "bert" "10:05"]).1.resolutionCount "bert"
        "lean" = 1 := by
  refine ⟨help_threads_agree unasked_unasked ⟨rfl, ⟨?_, ?_⟩, trivial⟩, by decide +kernel⟩
  · decide +kernel
  · show ∀ b ∈ (unasked.perform id askHelp).2.broadcasts.rows, b.id = "a0" →
      (topicTokens id b.topic).Nodup ∧ ∀ c ∈ b.topic.toList, lineTerminator c = false
    have hall : ∀ b ∈ (unasked.perform id askHelp).2.broadcasts.rows, b.id = "a0" →
        (topicTokens id b.topic).Nodup ∧
          (b.topic.toList.all fun c => !lineTerminator c) = true := by decide +kernel
    intro b hb hid
    refine ⟨(hall b hb hid).1, fun c hc => ?_⟩
    simpa using List.all_eq_true.mp (hall b hb hid).2 c hc

/-- Where Cleo closes the thread too, it is she who has resolved it, and both have learned from it;
where the reaper closes it, the broadcast is open still. -/
theorem help_threads_differ :
    ¬ Agree id
        (HelpStore.run id (unasked, []) [askHelp, closeHelp "bert" "10:05", closeHelp "cleo" "10:06"]).1
        (HelpStore.run id (unasked, [])
          [askHelp, closeHelp "bert" "10:05", closeHelp "cleo" "10:06"]).2 ∧
      ¬ Agree id
        (HelpStore.run id (unasked, [])
          [askHelp, .onThread ⟨"bert", .numbered "b" "18:00", .reap fun _ => true⟩]).1
        (HelpStore.run id (unasked, [])
          [askHelp, .onThread ⟨"bert", .numbered "b" "18:00", .reap fun _ => true⟩]).2 := by
  constructor
  · intro h
    have hresolver : ∃ b ∈ (HelpStore.run id (unasked, [])
        [askHelp, closeHelp "bert" "10:05", closeHelp "cleo" "10:06"]).1.broadcasts.rows,
        b.resolver ≠ orNull (((HelpStore.run id (unasked, [])
          [askHelp, closeHelp "bert" "10:05", closeHelp "cleo" "10:06"]).2.find? fun c =>
            c.1 = b.id).map Prod.snd) := by
      decide +kernel
    obtain ⟨b, hb, hne⟩ := hresolver
    exact hne (h.resolver b hb)
  · intro h
    have hresolved : ∃ b ∈ (HelpStore.run id (unasked, [])
        [askHelp, .onThread ⟨"bert", .numbered "b" "18:00", .reap fun _ => true⟩]).1.broadcasts.rows,
        helpStatus (HelpStore.run id (unasked, [])
          [askHelp, .onThread ⟨"bert", .numbered "b" "18:00", .reap fun _ => true⟩]).1.mcp b.id ≠
            some b.resolvedAt.isSome := by
      decide +kernel
    obtain ⟨b, hb, hne⟩ := hresolved
    exact hne (h.resolved b hb)

end EighthLayer.CrosstalkMcp
