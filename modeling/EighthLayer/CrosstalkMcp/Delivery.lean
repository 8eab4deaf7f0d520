import EighthLayer.CrosstalkMcp.Recipients

/-!
# EighthLayer.CrosstalkMcp.Delivery

Each message is notified exactly once to each of its recipients that keeps polling, and to nobody
else (`delivered_exactly_once`), however the servers interleave, statement by statement, and
whenever one of them starts again.

What a server does to the database is what the others count on (`serve_serves`), so that what holds
of deliveries at every statement (`Sound`) holds in every run. What a poll has been given it has
notified by the time it is asked again (`serve_traces`). The two together bound how many polls it
takes until a message has its turn.
-/

namespace EighthLayer.CrosstalkMcp

open Lib

/-! ## What a server knows -/

/-- The ids that the server is going to draw are new: from draw `k` of action `a` on. -/
structure Fresh (s : Server) (a k : Nat) (w : McpWorld) : Prop where
  messages : ∀ b act n, s.actions[b]? = some act → a < b ∨ (a = b ∧ k ≤ n) →
    ∀ m ∈ w.db.messages, m.id ≠ act.1.fresh n
  threads : ∀ b act n, s.actions[b]? = some act → a < b ∨ (a = b ∧ k ≤ n) →
    w.db.threads.find (act.1.fresh n) = none

/-- What the session has been notified of is marked, apart from message `but`. -/
def Marked (s : Server) (but : Option String) (w : McpWorld) : Prop :=
  ∀ id, (s.me, id) ∈ w.db.shown → but ≠ some id →
    ∃ d ∈ w.db.deliveries, d.messageId = id ∧ d.session = s.me ∧ d.deliveredAt ≠ none

/-- What server `i` knows when it is not in the middle of something. -/
structure Ease (s : Server) (i a k : Nat) (w : McpWorld) : Prop where
  fresh : Fresh s a k w
  marked : Marked s none w
  full : AllFull i w

section Knows

variable {s : Server} {i a k : Nat} {w w' : McpWorld}

theorem Fresh.mono (h : Fresh s a k w) {k' : Nat} (hk : k ≤ k') : Fresh s a k' w where
  messages := fun b act n hact hn => h.messages b act n hact (by omega)
  threads := fun b act n hact hn => h.threads b act n hact (by omega)

theorem Fresh.next (h : Fresh s a k w) : Fresh s (a + 1) 0 w where
  messages := fun b act n hact hn => h.messages b act n hact (by omega)
  threads := fun b act n hact hn => h.threads b act n hact (by omega)

theorem Ease.mono (h : Ease s i a k w) {k' : Nat} (hk : k ≤ k') : Ease s i a k' w :=
  ⟨h.fresh.mono hk, h.marked, h.full⟩

theorem Ease.next (h : Ease s i a k w) : Ease s i (a + 1) 0 w := ⟨h.fresh.next, h.marked, h.full⟩

theorem Fresh.unmoved (h : Fresh s a k w) (hmove : Unmoved s i w w') : Fresh s a k w' where
  messages := fun b act n hact hn =>
    hmove.messages _ ⟨b, act, n, hact, rfl⟩ (h.messages b act n hact hn)
  threads := fun b act n hact hn =>
    hmove.threads _ ⟨b, act, n, hact, rfl⟩ (h.threads b act n hact hn)

theorem Marked.unmoved {but : Option String} (h : Marked s but w) (hmove : Unmoved s i w w') :
    Marked s but w' := by
  intro id hid hbut
  obtain ⟨d, hd, hdid, hme, hmarked⟩ := h id (hmove.shown id hid) hbut
  exact ⟨d, hmove.deliveries d hd hme, hdid, hme, hmarked⟩

theorem AllFull.unmoved (h : AllFull i w) (hmove : Unmoved s i w w')
    (hgrows : Grows w.db w'.db) : AllFull i w' :=
  fun e he htask m hm => (h e (hmove.inserted e he htask m hm) htask m hm).grows hgrows

theorem Ease.rel {ss : List Server} (hs : ss[i]? = some s) (h : Ease s i a k w)
    (hrel : (service ss).rel i w w') : Ease s i a k w' :=
  have hmove := hrel.2 s hs
  ⟨h.fresh.unmoved hmove, h.marked.unmoved hmove, h.full.unmoved hmove hrel.1⟩

/-- A server's own statement, other than an insert, that leaves messages and threads alone. -/
theorem Fresh.exec (h : Fresh s a k w) {q : McpStmt}
    (hmessages : (w.exec i q).db.messages = w.db.messages)
    (hthreads : (w.exec i q).db.threads = w.db.threads) : Fresh s a k (w.exec i q) where
  messages := fun b act n hact hn m hm => h.messages b act n hact hn m (hmessages ▸ hm)
  threads := fun b act n hact hn => hthreads ▸ h.threads b act n hact hn

theorem AllFull.exec (h : AllFull i w) {q : McpStmt} (hq : ∀ m, q ≠ .insertMessage m) :
    AllFull i (w.exec i q) := by
  intro e he htask m hm
  rcases List.mem_cons.mp he with rfl | he
  · exact absurd hm (hq m)
  · exact (h e he htask m hm).grows (grows_exec q w.db)

end Knows

/-! ## Serving -/

section Serving

variable {ss : List Server} {i : Nat} {s : Server} {α : Type} {post : α → McpWorld → Prop}
  {w : McpWorld}

/-- A statement that leaves the server what it has to itself, and what comes after it. -/
theorem serves_call (hdistinct : Distinct ss) (hs : ss[i]? = some s) {q : McpStmt}
    {f : McpStmt.Answer q → McpProg α}
    (hfit : ∀ w', Sound w' → (service ss).rel i w w' → Fit s i w' q ∧ Spares s True w' q)
    (h : ∀ w', Sound w' → (service ss).rel i w w' → (service ss).rel i w (w'.exec i q) →
      (f (Database.exec (A := McpStmt.Answer) q w'.db).1).Serves (service ss) post i
        (w'.exec i q)) :
    (Prog.call q f).Serves (service ss) post i w := by
  intro w' hsound hrel
  obtain ⟨hfits, hspares⟩ := hfit w' hsound hrel
  refine ⟨service_exec hdistinct hs hsound hfits, h w' hsound hrel ?_⟩
  refine (service ss).trans hrel ⟨grows_exec q w'.db, fun s' hs' => unmoved_exec ?_⟩
  cases hs.symm.trans hs'
  rwa [eq_self]

/-- A statement that only reads, or is about none of this. -/
theorem serves_quiet (hdistinct : Distinct ss) (hs : ss[i]? = some s) {q : McpStmt}
    {f : McpStmt.Answer q → McpProg α} (hfit : ∀ w', Fit s i w' q)
    (hspares : ∀ w', Spares s True w' q)
    (h : ∀ a w', (service ss).rel i w w' → (f a).Serves (service ss) post i w') :
    (Prog.call q f).Serves (service ss) post i w :=
  serves_call hdistinct hs (fun w' _ _ => ⟨hfit w', hspares w'⟩) fun _ _ _ hrel => h _ _ hrel

/-- The deliveries of a message that is in the store. -/
theorem serves_insertDeliveries (hdistinct : Distinct ss) (hs : ss[i]? = some s) {id : String}
    (to_ : String) {recipients : List String} {next : McpProg α}
    (hrow : ∀ r ∈ recipients, ∃ m ∈ w.db.messages, m.id = id ∧ m.toSession = to_ ∧ IsFor w.db m r)
    (hfirst : recipients.head? = some to_ ∨ HasDelivery w.db id to_)
    (h : ∀ w', (service ss).rel i w w' → (∀ r ∈ recipients, HasDelivery w'.db id r) →
      next.Serves (service ss) post i w') :
    (insertDeliveries id recipients next).Serves (service ss) post i w := by
  induction recipients generalizing w with
  | nil => exact h w ((service ss).refl i w) fun r hr => absurd hr List.not_mem_nil
  | cons r rest ih =>
      have hthere : ∀ w', (service ss).rel i w w' → ∀ r' ∈ r :: rest, ∃ m ∈ w'.db.messages,
          m.id = id ∧ m.toSession = to_ ∧ IsFor w'.db m r' := by
        intro w' hrel r' hr'
        obtain ⟨m, hm, hid, hto, hfor⟩ := hrow r' hr'
        obtain ⟨m', hm', hlike⟩ := hrel.1.messages m hm
        exact ⟨m', hm', hlike.id.trans hid, hlike.toSession.trans hto, hfor.grows hrel.1 hlike⟩
      have hhas : r = to_ ∨ HasDelivery w.db id to_ := hfirst.imp_left Option.some.inj
      refine serves_call hdistinct hs (fun w' _ hrel => ⟨?_, trivial⟩) fun w' _ _ hrel => ?_
      · obtain ⟨m, hm, hid, hto, hfor⟩ := hthere w' hrel r List.mem_cons_self
        refine ⟨m, hm, hid, hfor, ?_⟩
        rw [hto]
        exact hhas.imp_right (hrel.1.deliveries _ _)
      · have hinserted : HasDelivery (w'.exec i (.insertDelivery id r)).db id r :=
          HasDelivery.insert w'.db ⟨id, r, none⟩
        refine ih (fun r' hr' => hthere _ hrel r' (List.mem_cons_of_mem _ hr')) (.inr ?_)
          fun w'' hrel' hall => ?_
        · rcases hhas with rfl | hold
          · exact hinserted
          · exact hrel.1.deliveries _ _ hold
        · refine h w'' ((service ss).trans hrel hrel') fun r' hr' => ?_
          rcases List.mem_cons.mp hr' with rfl | hr'
          · exact hrel'.1.deliveries _ _ hinserted
          · exact hall r' hr'

/-- A new message, to those it is for. -/
theorem serves_insertMessage (hdistinct : Distinct ss) (hs : ss[i]? = some s) {a k n : Nat}
    {act : Host × Action} (hact : s.actions[a]? = some act) {m : Message} {extra : List String}
    {next : McpProg α} (hid : m.id = act.1.fresh n) (hk : k ≤ n) (hnone : m.deliveredAt = none)
    (hease : Ease s i a k w)
    (hthread : ∃ t, w.db.threads.find m.threadId = some t ∧
      ∀ r, r ∈ m.toSession :: extra ↔ r ∈ m.recipients t)
    (h : ∀ w', Grows w.db w'.db → Ease s i a (n + 1) w' → Full w'.db m.id →
      (∀ r ∈ m.toSession :: extra, HasDelivery w'.db m.id r) →
        next.Serves (service ss) post i w') :
    (insertMessage m extra next).Serves (service ss) post i w := by
  intro w₁ hsound hrel
  obtain ⟨t, ht, hrecipients⟩ := hthread
  obtain ⟨t₁, ht₁, hparticipants, hkind⟩ := hrel.1.threads _ t ht
  have hrecipients₁ : ∀ r, r ∈ m.toSession :: extra ↔ r ∈ m.recipients t₁ := by
    intro r
    rw [(Message.Like.refl m).recipients hparticipants hkind]
    exact hrecipients r
  have hease₁ := hease.rel hs hrel
  have hfor : IsFor w₁.db m m.toSession :=
    ⟨t₁, ht₁, (hrecipients₁ _).mp List.mem_cons_self⟩
  have hfit : Fit s i w₁ (.insertMessage m) := .inr ⟨⟨a, act, n, hact, hid.symm⟩, hnone, hfor⟩
  refine ⟨service_exec hdistinct hs hsound hfit, ?_⟩
  have hgrows₁ := grows_exec (.insertMessage m) w₁.db
  -- it is the row, as its id is new
  have habsent : w₁.db.messages.find m.id = none := by
    refine Table.find_eq_none_iff.mpr fun m' hm' => ?_
    rw [hid]
    exact hease₁.fresh.messages a act n hact (.inr ⟨rfl, hk⟩) m' hm'
  have hmem : ∀ m', m' ∈ (w₁.exec i (.insertMessage m)).db.messages ↔
      m' ∈ w₁.db.messages ∨ m' = m := by
    intro m'
    refine Table.mem_insertOrIgnore.trans (or_congr_right ⟨And.left, fun heq => ⟨heq, habsent⟩⟩)
  have hfresh : Fresh s a (n + 1) (w₁.exec i (.insertMessage m)) := by
    refine ⟨fun b act' n' hact' hn' m' hm' => ?_, (hease₁.fresh.mono (by omega)).threads⟩
    rcases (hmem m').mp hm' with hm' | rfl
    · exact hease₁.fresh.messages b act' n' hact' (by omega) m' hm'
    · intro heq
      obtain ⟨-, rfl, rfl⟩ := hdistinct.ids i i a b n n' s s act act' hs hs hact hact'
        (hid.symm.trans heq)
      omega
  refine serves_insertDeliveries hdistinct hs m.toSession (fun r hr => ?_) (.inl ?_)
    fun w₂ hrel₂ hall => ?_
  · refine ⟨m, (hmem m).mpr (.inr rfl), rfl, rfl, ?_⟩
    have hr' : r ∈ m.recipients t₁ := (hrecipients₁ r).mp (List.mem_eraseDups.mp hr)
    exact IsFor.grows ⟨t₁, ht₁, hr'⟩ hgrows₁ (.refl m)
  · rw [List.eraseDups_cons, List.head?_cons]
  · have hall' : ∀ r ∈ m.toSession :: extra, HasDelivery w₂.db m.id r := fun r hr =>
      hall r (List.mem_eraseDups.mpr hr)
    have hgrows : Grows w.db w₂.db := hrel.1.trans (hgrows₁.trans hrel₂.1)
    have hfull : Full w₂.db m.id := by
      obtain ⟨m', hm', hlike⟩ := hrel₂.1.messages m ((hmem m).mpr (.inr rfl))
      obtain ⟨t₂, ht₂, hparticipants₂, hkind₂⟩ := hgrows.threads _ t ht
      refine ⟨m', hm', hlike.id, t₂, by rw [hlike.threadId]; exact ht₂, fun r hr => hall' r ?_⟩
      rw [hlike.recipients hparticipants₂ hkind₂] at hr
      exact (hrecipients r).mpr hr
    have hmove := hrel₂.2 s hs
    have hmarked : Marked s none (w₁.exec i (.insertMessage m)) := hease₁.marked
    refine h w₂ hgrows ⟨hfresh.unmoved hmove, hmarked.unmoved hmove, ?_⟩ hfull hall'
    intro e he htask m' hm'
    rcases List.mem_cons.mp (hmove.inserted e he htask m' hm') with rfl | he
    · cases hm'
      exact hfull
    · exact (hease₁.full e he htask m' hm').grows (hgrows₁.trans hrel₂.1)

/-- A line in the inbox file of each recipient, once the deliveries are there. -/
theorem serves_appendToInboxFiles (hdistinct : Distinct ss) (hs : ss[i]? = some s) {m : Message}
    {recipients : List String} {next : McpProg α} (hfull : Full w.db m.id)
    (hall : ∀ r ∈ recipients, HasDelivery w.db m.id r)
    (h : ∀ w', (service ss).rel i w w' → next.Serves (service ss) post i w') :
    (appendToInboxFiles m recipients next).Serves (service ss) post i w := by
  induction recipients generalizing w with
  | nil => exact h w ((service ss).refl i w)
  | cons r rest ih =>
      refine serves_call hdistinct hs (fun w' _ hrel => ⟨⟨hfull.grows hrel.1, rfl, ?_⟩, trivial⟩)
        fun w' _ _ hrel => ?_
      · exact hrel.1.deliveries _ _ (hall r List.mem_cons_self)
      · refine ih (hfull.grows hrel.1) (fun r' hr' => ?_) fun w'' hrel' =>
          h w'' ((service ss).trans hrel hrel')
        exact hrel.1.deliveries _ _ (hall r' (List.mem_cons_of_mem _ hr'))

/-- A new message, to those it is for, and in their inbox files. -/
theorem serves_send (hdistinct : Distinct ss) (hs : ss[i]? = some s) {a k n : Nat}
    {act : Host × Action} (hact : s.actions[a]? = some act) {m : Message} {extra lines : List String}
    {next : McpProg α} (hid : m.id = act.1.fresh n) (hk : k ≤ n) (hnone : m.deliveredAt = none)
    (hease : Ease s i a k w)
    (hthread : ∃ t, w.db.threads.find m.threadId = some t ∧
      ∀ r, r ∈ m.toSession :: extra ↔ r ∈ m.recipients t)
    (hlines : ∀ r ∈ lines, r ∈ m.toSession :: extra)
    (h : ∀ w', Grows w.db w'.db → Ease s i a (n + 1) w' → next.Serves (service ss) post i w') :
    (insertMessage m extra (appendToInboxFiles m lines next)).Serves (service ss) post i w := by
  refine serves_insertMessage hdistinct hs hact hid hk hnone hease hthread
    fun w' hgrows hease' hfull hall => ?_
  refine serves_appendToInboxFiles hdistinct hs hfull (fun r hr => hall r (hlines r hr))
    fun w'' hrel => h w'' (hgrows.trans hrel.1) (hease'.rel hs hrel)

/-- A message to all the participants but the sender. -/
theorem serves_fanOut (hdistinct : Distinct ss) (hs : ss[i]? = some s) {a k n : Nat}
    {act : Host × Action} (hact : s.actions[a]? = some act) {m : String → Message}
    {recipients : List String} {next : McpProg α} (hid : ∀ r, (m r).id = act.1.fresh n)
    (hk : k ≤ n) (hnone : ∀ r, (m r).deliveredAt = none) (hto : ∀ r, (m r).toSession = r)
    (hease : Ease s i a k w)
    (hthread : ∃ t, ∀ r, w.db.threads.find (m r).threadId = some t ∧
      (m r).recipients t = recipients)
    (h : ∀ w', Ease s i a (n + 1) w' → next.Serves (service ss) post i w') :
    (fanOut m recipients next).Serves (service ss) post i w := by
  cases recipients with
  | nil => exact h w (hease.mono (by omega))
  | cons r rest =>
      obtain ⟨t, ht⟩ := hthread
      refine serves_send hdistinct hs hact (hid r) hk (hnone r) hease ⟨t, (ht r).1, fun r' => ?_⟩
        (fun r' hr' => List.mem_cons_of_mem _ hr') fun w' _ => h w'
      rw [(ht r).2, hto r]
      simp

/-- A message to each of the others, for that one only. -/
theorem serves_announce (hdistinct : Distinct ss) (hs : ss[i]? = some s) {a n : Nat}
    {act : Host × Action} (hact : s.actions[a]? = some act) {m : String → String → Message}
    {targets : List String} {next : McpProg α} {threadId : String}
    (hid : ∀ id r, (m id r).id = id) (hnone : ∀ id r, (m id r).deliveredAt = none)
    (hthreadId : ∀ id r, (m id r).threadId = threadId)
    (hrecipients : ∀ id r t, (m id r).recipients t = [(m id r).toSession])
    (hto : ∀ id r, (m id r).toSession = r)
    (hease : Ease s i a n w) (hthread : ∃ t, w.db.threads.find threadId = some t)
    (h : ∀ w' n', Ease s i a n' w' → next.Serves (service ss) post i w') :
    (announce act.1 m n targets next).Serves (service ss) post i w := by
  induction targets generalizing n w with
  | nil => exact h w n hease
  | cons target rest ih =>
      obtain ⟨t, ht⟩ := hthread
      refine serves_send hdistinct hs hact (hid _ _) le_rfl (hnone _ _) hease ⟨t, ?_, fun r => ?_⟩
        (fun r hr => ?_) fun w' hgrows hease' => ih hease' ?_
      · rw [hthreadId]
        exact ht
      · rw [hrecipients]
      · rw [hto]
        exact hr
      · obtain ⟨t', ht', -⟩ := hgrows.threads _ t ht
        exact ⟨t', ht'⟩

/-- A line of the inbox file that is ingested changes nothing: its message is there, with its
deliveries. -/
theorem serves_insertLines (hdistinct : Distinct ss) (hs : ss[i]? = some s) {a k : Nat}
    {lines : List Message} {next : McpProg α} (hease : Ease s i a k w)
    (hlines : ∀ l ∈ lines, Full w.db l.id ∧ HasDelivery w.db l.id l.toSession)
    (h : ∀ w', Ease s i a k w' → next.Serves (service ss) post i w') :
    (insertLines lines next).Serves (service ss) post i w := by
  induction lines generalizing w with
  | nil => exact h w hease
  | cons l rest ih =>
      obtain ⟨hfull, hhas⟩ := hlines l List.mem_cons_self
      intro w₁ hsound hrel
      have hfull₁ := hfull.grows hrel.1
      have hease₁ := hease.rel hs hrel
      obtain ⟨m, hm, hid, -⟩ := hfull₁
      refine ⟨service_exec hdistinct hs hsound (.inl ⟨m, hm, hid⟩), ?_⟩
      have hthere : (w₁.db.messages.find l.ingested.id).isSome := by
        rw [show l.ingested.id = m.id from hid.symm, Table.find_key hm]
        rfl
      have hmessages : (w₁.exec i (.insertMessage l.ingested)).db.messages = w₁.db.messages :=
        Table.insertOrIgnore_eq_self hthere
      have hgrows₁ := grows_exec (.insertMessage l.ingested) w₁.db
      have hease₂ : Ease s i a k (w₁.exec i (.insertMessage l.ingested)) := by
        refine ⟨hease₁.fresh.exec hmessages rfl, hease₁.marked, fun e he htask m' hm' => ?_⟩
        rcases List.mem_cons.mp he with rfl | he
        · cases hm'
          exact (hfull.grows hrel.1).grows hgrows₁
        · exact (hease₁.full e he htask m' hm').grows hgrows₁
      have hhas₂ := hgrows₁.deliveries _ _ (hrel.1.deliveries _ _ hhas)
      -- the delivery to the addressee
      refine serves_call hdistinct hs (fun w₃ hsound₃ hrel₃ => ⟨?_, trivial⟩)
        fun w₃ _ _ hrel₃ => ?_
      · obtain ⟨d, hd, hdid, hdsession⟩ := hrel₃.1.deliveries _ _ hhas₂
        obtain ⟨m', hm', hid', hfor, hfirst⟩ := hsound₃.recipient d hd
        refine ⟨m', hm', hid'.trans hdid, ?_, .inr ?_⟩
        · have hto : l.ingested.toSession = d.session := hdsession.symm
          rw [hto]
          exact hfor
        · have hl : l.ingested.id = m'.id := (hid'.trans hdid).symm
          rw [hl]
          exact hfirst
      · refine ih (hease₂.rel hs hrel₃) fun l' hl' => ?_
        obtain ⟨hfull', hhas'⟩ := hlines l' (List.mem_cons_of_mem _ hl')
        have hgrows := (hrel.1.trans hgrows₁).trans hrel₃.1
        exact ⟨hfull'.grows hgrows, hgrows.deliveries _ _ hhas'⟩

theorem serves_ingestInboxFile (hdistinct : Distinct ss) (hs : ss[i]? = some s) {a k : Nat}
    {offset : Nat} {next : Nat → McpProg α} (hease : Ease s i a k w)
    (h : ∀ offset' w', Ease s i a k w' → (next offset').Serves (service ss) post i w') :
    (ingestInboxFile s.me offset next).Serves (service ss) post i w := by
  refine serves_call hdistinct hs (fun _ _ _ => ⟨trivial, trivial⟩) fun w' hsound _ hrel => ?_
  have hease' := hease.rel hs hrel
  split
  · exact h _ _ hease'
  · refine serves_insertLines hdistinct hs hease' (fun l hl => ?_) (h _)
    obtain ⟨hfull, hto, hhas⟩ := hsound.line s.me l (List.mem_of_mem_drop hl)
    rw [hto]
    exact ⟨hfull, hhas⟩

/-- The loop of a poll: what the batch has is delivered to the session, and not yet notified. -/
theorem serves_notifyAll (hdistinct : Distinct ss) (hs : ss[i]? = some s) {a k : Nat}
    {host : Host} {batch : List Message} {next : McpProg α} (hease : Ease s i a k w)
    (hbatch : ∀ m ∈ batch, HasDelivery w.db m.id s.me ∧ (s.me, m.id) ∉ w.db.shown)
    (hnodup : (batch.map Message.id).Nodup)
    (h : ∀ w', Ease s i a k w' → next.Serves (service ss) post i w') :
    (notifyAll s.me host batch next).Serves (service ss) post i w := by
  induction batch generalizing w with
  | nil => exact h w hease
  | cons m rest ih =>
      rw [List.map_cons, List.nodup_cons] at hnodup
      obtain ⟨hhas, hunseen⟩ := hbatch m List.mem_cons_self
      -- the notification
      intro w₁ hsound₁ hrel₁
      have hmove₁ := hrel₁.2 s hs
      have hease₁ := hease.rel hs hrel₁
      have hfit₁ : Fit s i w₁ (.notify s.me m.id) :=
        ⟨rfl, hrel₁.1.deliveries _ _ hhas, fun hseen => hunseen (hmove₁.shown _ hseen)⟩
      refine ⟨service_exec hdistinct hs hsound₁ hfit₁, ?_⟩
      have hgrows₁ := grows_exec (.notify s.me m.id) w₁.db
      have hmarked₂ : Marked s (some m.id) (w₁.exec i (.notify s.me m.id)) := by
        intro id hid hbut
        rcases List.mem_append.mp hid with hid | hid
        · exact hease₁.marked id hid (Option.some_ne_none id).symm
        · cases List.mem_singleton.mp hid
          exact absurd rfl hbut
      -- its mark
      intro w₃ hsound₃ hrel₃
      have hmove₃ := hrel₃.2 s hs
      have hseen₃ : (s.me, m.id) ∈ w₃.db.shown :=
        hrel₃.1.shown _ (List.mem_append_right _ (List.mem_singleton_self _))
      refine ⟨service_exec hdistinct hs hsound₃ ⟨rfl, hseen₃⟩, ?_⟩
      have hgrows₃ := grows_exec (.markDelivery m.id s.me host.now) w₃.db
      have hmarked₄ : Marked s none (w₃.exec i (.markDelivery m.id s.me host.now)) := by
        intro id hid _
        have hmark : ∀ d ∈ w₃.db.deliveries,
            (if (decide (d.messageId = m.id) && decide (d.session = s.me)) = true
              then { d with deliveredAt := some host.now } else d) ∈
                (w₃.exec i (.markDelivery m.id s.me host.now)).db.deliveries := fun d hd =>
          McpStore.mem_deliver.mpr ⟨d, hd, rfl⟩
        by_cases hbut : some m.id = some id
        · cases hbut
          obtain ⟨d, hd, hdid, hme⟩ := hsound₃.seen _ hseen₃
          have hwhich : (decide (d.messageId = m.id) && decide (d.session = s.me)) = true := by
            simp [hdid, hme]
          have hmem := hmark d hd
          rw [if_pos hwhich] at hmem
          exact ⟨_, hmem, hdid, hme, Option.some_ne_none _⟩
        · obtain ⟨d, hd, hdid, hme, hmarked⟩ := hmarked₂.unmoved hmove₃ id hid hbut
          have hwhich : ¬ (decide (d.messageId = m.id) && decide (d.session = s.me)) = true := by
            simp only [Bool.and_eq_true, decide_eq_true_eq]
            rintro ⟨heq, -⟩
            exact hbut (by rw [← heq, hdid])
          have hmem := hmark d hd
          rw [if_neg hwhich] at hmem
          exact ⟨d, hmem, hdid, hme, hmarked⟩
      have hease₄ : Ease s i a k (w₃.exec i (.markDelivery m.id s.me host.now)) := by
        have hfresh₂ : Fresh s a k (w₁.exec i (.notify s.me m.id)) := hease₁.fresh.exec rfl rfl
        have hfull₂ : AllFull i (w₁.exec i (.notify s.me m.id)) := hease₁.full.exec fun _ => nofun
        exact ⟨(hfresh₂.unmoved hmove₃).exec rfl rfl, hmarked₄,
          (hfull₂.unmoved hmove₃ hrel₃.1).exec fun _ => nofun⟩
      -- the legacy mark
      refine serves_call hdistinct hs (fun w₅ hsound₅ hrel₅ => ⟨⟨s.me, ?_⟩, trivial⟩)
        fun w₅ _ _ hrel₅ => ?_
      · exact hsound₅.seen _ (hrel₅.1.shown _ (hgrows₃.shown _ hseen₃))
      · refine ih (hease₄.rel hs hrel₅) (fun m' hm' => ?_) hnodup.2
        obtain ⟨hhas', hunseen'⟩ := hbatch m' (List.mem_cons_of_mem _ hm')
        have hgrows := hrel₁.1.trans (hgrows₁.trans (hrel₃.1.trans (hgrows₃.trans hrel₅.1)))
        refine ⟨hgrows.deliveries _ _ hhas', fun hseen => ?_⟩
        -- nobody else has notified the session, and this was about another message
        have hseen₂ := hmove₃.shown _ ((hrel₅.2 s hs).shown _ hseen)
        rcases List.mem_append.mp hseen₂ with hold | hnew
        · exact hunseen' (hmove₁.shown _ hold)
        · obtain ⟨-, heq⟩ := Prod.mk.inj (List.mem_singleton.mp hnew)
          exact hnodup.1 (heq ▸ List.mem_map_of_mem hm')

theorem serves_pollInbox (hdistinct : Distinct ss) (hs : ss[i]? = some s) {a k offset : Nat}
    {host : Host} {next : Nat → McpProg α} (hease : Ease s i a k w)
    (h : ∀ offset' w', Ease s i a k w' → (next offset').Serves (service ss) post i w') :
    (pollInbox s.me host offset next).Serves (service ss) post i w := by
  refine serves_ingestInboxFile hdistinct hs hease fun offset' w₁ hease₁ => ?_
  refine serves_call hdistinct hs (fun _ _ _ => ⟨trivial, trivial⟩) fun w₂ hsound hrel hrel' => ?_
  have hease₂ := hease₁.rel hs hrel
  refine serves_notifyAll hdistinct hs (hease₁.rel hs hrel') (fun m hm => ?_) ?_ (h offset')
  · have hmem : m ∈ w₂.db.undelivered s.me := List.mem_of_mem_filter (List.mem_of_mem_take hm)
    obtain ⟨d, hd, hme, hnone, hfind⟩ := McpStore.mem_undelivered.mp hmem
    have hid : m.id = d.messageId := (Table.find_eq_some_iff.mp hfind).2
    refine ⟨⟨d, hd, hid.symm, hme⟩, fun hseen => ?_⟩
    obtain ⟨d', hd', hid', hme', hmarked⟩ := hease₂.marked _ hseen nofun
    refine hmarked ?_
    rw [Table.eq_of_key_eq hd' hd (Prod.ext (hid'.trans hid) (hme'.trans hme.symm))]
    exact hnone
  · have hsub : (w₂.db.pendingForSession s.me pollLimit none).Sublist (w₂.db.undelivered s.me) :=
      (List.take_sublist _ _).trans List.filter_sublist
    exact (hsub.map _).nodup (w₂.db.nodup_undelivered s.me)

/-! ## The tools -/

/-- A new thread, of which its first message is to be sent. -/
theorem serves_newThread (hdistinct : Distinct ss) (hs : ss[i]? = some s) {a : Nat}
    {act : Host × Action} (hact : s.actions[a]? = some act) {t : Thread} {next : McpProg α}
    (hid : t.id = act.1.fresh 0) (hease : Ease s i a 0 w)
    (h : ∀ w', Ease s i a 1 w' → w'.db.threads.find t.id = some t →
      next.Serves (service ss) post i w') :
    (Prog.call (.upsertThread t) fun _ => next).Serves (service ss) post i w := by
  intro w' hsound hrel
  have hease' := hease.rel hs hrel
  have habsent : w'.db.threads.find t.id = none := by
    rw [hid]
    exact hease'.fresh.threads a act 0 hact (.inr ⟨rfl, le_rfl⟩)
  refine ⟨service_exec hdistinct hs hsound (.inr ⟨a, act, 0, hact, hid.symm⟩), ?_⟩
  have hfind : ∀ k, (w'.exec i (.upsertThread t)).db.threads.find k =
      (w'.db.threads.find k).or (if t.id = k then some t else none) := by
    intro k
    change (w'.db.upsertThread t).threads.find k = _
    unfold McpStore.upsertThread
    rw [habsent]
    exact Table.find_insertOrIgnore _ _ _
  refine h _ ⟨⟨?_, fun b act' n hact' hn => ?_⟩, hease'.marked, hease'.full.exec fun _ => nofun⟩ ?_
  · exact (hease'.fresh.mono (Nat.zero_le 1)).messages
  · rw [hfind, hease'.fresh.threads b act' n hact' (by omega), Option.none_or, if_neg]
    rw [hid]
    intro heq
    obtain ⟨-, rfl, rfl⟩ := hdistinct.ids i i a b 0 n s s act act' hs hs hact hact' heq
    omega
  · rw [hfind, habsent, if_pos rfl]
    rfl

/-- A row of a thread that is there is written back. -/
theorem serves_writeBack (hdistinct : Distinct ss) (hs : ss[i]? = some s) {t row : Thread}
    {next : McpProg α} (ht : w.db.threads.find row.id = some t)
    (h : ∀ w', (service ss).rel i w w' → next.Serves (service ss) post i w') :
    (Prog.call (.upsertThread row) fun _ => next).Serves (service ss) post i w := by
  have hthere : ∀ w' : McpWorld, Grows w.db w'.db → w'.db.threads.find row.id ≠ none := by
    intro w' hgrows
    obtain ⟨t', ht', -⟩ := hgrows.threads _ t ht
    rw [ht']
    exact Option.some_ne_none t'
  exact serves_call hdistinct hs (fun w' _ hrel =>
    ⟨.inl (hthere w' hrel.1), .inl (hthere w' hrel.1)⟩) fun w' _ _ hrel => h _ hrel

/-- What holds when an action is over. -/
def Over (s : Server) (i a : Nat) {β : Type} (_ : β) (w : McpWorld) : Prop := Ease s i (a + 1) 0 w

section Tools

variable (hdistinct : Distinct ss) (hs : ss[i]? = some s) {a : Nat} {act : Host × Action}
  (hact : s.actions[a]? = some act) (hease : Ease s i a 0 w)

include hdistinct hs hact hease

theorem serves_sendMessage (to_ content : String) (tag toTag : Option String) (reachable : Bool) :
    (sendMessage s.me act.1 to_ content tag toTag reachable).Serves (service ss) (Over s i a) i
      w := by
  unfold sendMessage
  split
  · exact hease.next
  · refine serves_newThread hdistinct hs hact rfl hease fun w' hease' hfind => ?_
    refine serves_send hdistinct hs hact rfl le_rfl rfl hease' ⟨_, hfind, fun r => ?_⟩
      (fun r hr => hr) fun w'' _ hease'' => hease''.next
    simp [Message.recipients, mkMessage, mkThread]

theorem serves_openThread {kind : ThreadKind} {type : MessageType} (others : List String)
    (content : String) (hkind : kind ≠ .pair) (htype : type = .message ∨ type = .help)
    (hothers : ∀ r ∈ others, r ≠ s.me) :
    (openThread s.me act.1 kind type others content).Serves (service ss) (Over s i a) i w := by
  refine serves_newThread hdistinct hs hact rfl hease fun w' hease' hfind => ?_
  refine serves_fanOut hdistinct hs hact (fun _ => rfl) le_rfl (fun _ => rfl) (fun _ => rfl) hease'
    ⟨_, fun r => ⟨hfind, ?_⟩⟩ fun w'' hease'' => hease''.next
  have hfilter : others.filter (· ≠ s.me) = others :=
    List.filter_eq_self.mpr fun r hr => by simpa using hothers r hr
  unfold Message.recipients
  rw [if_pos (.inr ⟨htype, hkind⟩)]
  change (s.me :: others).filter (· ≠ s.me) = others
  rw [List.filter_cons_of_neg (by simp), hfilter]

theorem serves_reply (threadId content : String) (tag : Option String) :
    (reply s.me act.1 threadId content tag).Serves (service ss) (Over s i a) i w := by
  refine serves_call hdistinct hs (fun _ _ _ => ⟨trivial, trivial⟩) fun w₁ _ _ hrel₁ => ?_
  have hease₁ := hease.rel hs hrel₁
  have hanswer : (Database.exec (A := McpStmt.Answer) (.getThread threadId) w₁.db).1 =
      w₁.db.threads.find threadId := rfl
  rw [hanswer]
  cases ht : w₁.db.threads.find threadId with
  | none => exact hease₁.next
  | some t =>
      dsimp only
      split
      · exact hease₁.next
      · have hid : t.id = threadId := (Table.find_eq_some_iff.mp ht).2
        have hrow : w₁.db.threads.find t.id = some t := hid ▸ ht
        refine serves_writeBack hdistinct hs hrow fun w₂ hrel₂ => ?_
        refine serves_quiet hdistinct hs (fun _ => trivial) (fun _ => trivial)
          fun routeToTag w₃ hrel₃ => ?_
        have hease₃ := (hease₁.rel hs hrel₂).rel hs hrel₃
        obtain ⟨t₃, ht₃, hparticipants, -⟩ := (hrel₂.1.trans hrel₃.1).threads _ t ht
        split
        · rename_i hmany
          refine serves_fanOut hdistinct hs hact (fun _ => rfl) le_rfl (fun _ => rfl)
            (fun _ => rfl) hease₃ ⟨t₃, fun r => ⟨ht₃, ?_⟩⟩ fun w' hease' => hease'.next
          unfold Message.recipients
          rw [if_pos (.inl ⟨rfl, by rw [hparticipants]; exact hmany⟩), hparticipants]
          rfl
        · rename_i hfew
          split
          · exact hease₃.next
          · split
            · exact hease₃.next
            · refine serves_send hdistinct hs hact rfl le_rfl rfl hease₃ ⟨t₃, ht₃, fun r => ?_⟩
                (fun r hr => hr) fun w' _ hease' => hease'.next
              have hone : ¬ (2 < t₃.participants.length) := by
                rw [hparticipants]
                exact hfew
              simp [Message.recipients, mkMessage, hone]

theorem serves_closeThread (threadId : String) (reason : Option String)
    (resolution : Option ResolutionArg) :
    (closeThread s.me act.1 threadId reason resolution).Serves (service ss) (Over s i a) i w := by
  refine serves_call hdistinct hs (fun _ _ _ => ⟨trivial, trivial⟩) fun w₁ _ _ hrel₁ => ?_
  have hease₁ := hease.rel hs hrel₁
  have hanswer : (Database.exec (A := McpStmt.Answer) (.getThread threadId) w₁.db).1 =
      w₁.db.threads.find threadId := rfl
  rw [hanswer]
  cases ht : w₁.db.threads.find threadId with
  | none => exact hease₁.next
  | some t =>
      have hid : t.id = threadId := (Table.find_eq_some_iff.mp ht).2
      have hrow : w₁.db.threads.find t.id = some t := hid ▸ ht
      refine serves_writeBack hdistinct hs hrow fun w₂ hrel₂ => ?_
      obtain ⟨t₂, ht₂, -⟩ := hrel₂.1.threads _ t ht
      exact serves_announce hdistinct hs hact (fun _ _ => rfl) (fun _ _ => rfl) (fun _ _ => rfl)
        (fun _ _ _ => by simp [Message.recipients, mkMessage]) (fun _ _ => rfl)
        (hease₁.rel hs hrel₂) ⟨t₂, ht₂⟩ fun w' n' hease' => hease'.next

theorem serves_claim (helpId commitment : String) :
    (claim s.me act.1 helpId commitment).Serves (service ss) (Over s i a) i w := by
  refine serves_call hdistinct hs (fun _ _ _ => ⟨trivial, trivial⟩) fun w₁ _ _ hrel₁ => ?_
  have hease₁ := hease.rel hs hrel₁
  have hanswer : (Database.exec (A := McpStmt.Answer) (.getThread helpId) w₁.db).1 =
      w₁.db.threads.find helpId := rfl
  rw [hanswer]
  cases ht : w₁.db.threads.find helpId with
  | none => exact hease₁.next
  | some t =>
      dsimp only
      split
      · exact hease₁.next
      · split
        · exact hease₁.next
        · have hid : t.id = helpId := (Table.find_eq_some_iff.mp ht).2
          have hrow : w₁.db.threads.find t.id = some t := hid ▸ ht
          refine serves_writeBack hdistinct hs hrow fun w₂ hrel₂ => ?_
          obtain ⟨t₂, ht₂, -⟩ := hrel₂.1.threads _ t ht
          exact serves_announce hdistinct hs hact (fun _ _ => rfl) (fun _ _ => rfl)
            (fun _ _ => rfl) (fun _ _ _ => by simp [Message.recipients, mkMessage])
            (fun _ _ => rfl) (hease₁.rel hs hrel₂) ⟨t₂, ht₂⟩ fun w' n' hease' => hease'.next

end Tools

end Serving

/-! ## Servers -/

/-- What is left to a client: everything but declining a thread and rejecting its routing, which
mark deliveries that nobody has been notified of. -/
def Action.delivers : Action → Bool
  | .decline _ | .rejectRouting _ _ => false
  | _ => true

/-- Every action of a server. -/
theorem serves_action {ss : List Server} (hdistinct : Distinct ss) {i : Nat} {s : Server}
    (hs : ss[i]? = some s) {a offset : Nat} {act : Host × Action}
    (hact : s.actions[a]? = some act) (hdelivers : act.2.delivers = true) {w : McpWorld}
    (hease : Ease s i a 0 w) :
    (act.2.prog s.me act.1 offset).Serves (service ss) (Over s i a) i w := by
  have hquiet : ∀ {β : Type} {q : McpStmt} {b : β} {w : McpWorld}, Ease s i a 0 w →
      (∀ w', Fit s i w' q) → (∀ w', Spares s True w' q) →
        (Prog.call q fun _ => .done b).Serves (service ss) (Over s i a) i w :=
    fun hease hfit hspares => serves_quiet hdistinct hs hfit hspares
      fun _ _ hrel => (hease.rel hs hrel).next
  obtain ⟨host, action⟩ := act
  cases action with
  | sendMessage to_ content tag toTag reachable =>
      exact (serves_sendMessage hdistinct hs hact hease to_ content tag toTag reachable).bind
        fun _ _ h => h
  | group participants content =>
      refine Prog.Serves.bind ?_ fun _ _ h => h
      unfold group
      split
      · exact hease.next
      · exact serves_openThread hdistinct hs hact hease _ _ nofun (.inl rfl) fun r hr => by
          simpa using (List.mem_filter.mp hr).2
  | help routed topic question =>
      refine Prog.Serves.bind ?_ fun _ _ h => h
      unfold help
      split
      · exact hease.next
      · exact serves_openThread hdistinct hs hact hease _ _ nofun (.inr rfl) fun r hr => by
          simpa using (List.mem_filter.mp hr).2
  | reply threadId content tag =>
      exact (serves_reply hdistinct hs hact hease threadId content tag).bind fun _ _ h => h
  | closeThread threadId reason resolution =>
      exact (serves_closeThread hdistinct hs hact hease threadId reason resolution).bind
        fun _ _ h => h
  | claim helpId commitment =>
      exact (serves_claim hdistinct hs hact hease helpId commitment).bind fun _ _ h => h
  | decline threadId => cases hdelivers
  | rejectRouting threadId reason => cases hdelivers
  | adoptThread threadId newTag =>
      refine Prog.Serves.bind ?_ fun _ _ h => h
      refine serves_quiet hdistinct hs (fun _ => trivial) (fun _ => trivial) fun thread w₁ hrel₁ => ?_
      have hease₁ := hease.rel hs hrel₁
      cases thread with
      | none => exact hease₁.next
      | some t =>
          dsimp only
          split
          · exact hease₁.next
          · refine serves_quiet hdistinct hs (fun _ => trivial) (fun _ => trivial) fun _ w₂ hrel₂ => ?_
            exact hquiet (hease₁.rel hs hrel₂) (fun _ => trivial) fun _ => trivial
  | reap stale =>
      refine Prog.Serves.bind ?_ fun _ _ h => h
      exact hquiet hease (fun _ => trivial) fun _ => trivial
  | checkInbox limit tag =>
      unfold Action.prog
      refine serves_ingestInboxFile hdistinct hs hease fun offset' w' hease' => ?_
      exact serves_quiet hdistinct hs (fun _ => trivial) (fun _ => trivial) fun _ _ hrel =>
        (hease'.rel hs hrel).next
  | listRoutings limit =>
      unfold Action.prog
      refine serves_ingestInboxFile hdistinct hs hease fun offset' w' hease' => ?_
      exact serves_quiet hdistinct hs (fun _ => trivial) (fun _ => trivial) fun _ _ hrel =>
        (hease'.rel hs hrel).next
  | poll => exact serves_pollInbox hdistinct hs hease fun offset' w' hease' => hease'.next
  | restart =>
      refine serves_quiet hdistinct hs (fun _ => trivial) (fun _ => trivial) fun read w' hrel => ?_
      exact hquiet (hease.rel hs hrel) (fun _ => trivial) fun _ => trivial

/-- **A server serves the others**, whatever it does. -/
theorem serve_serves {ss : List Server} (hdistinct : Distinct ss) {i : Nat} {s : Server}
    (hs : ss[i]? = some s) (hdelivers : ∀ act ∈ s.actions, act.2.delivers = true)
    {rest : List (Host × Action)} {offset a : Nat} (hrest : s.actions.drop a = rest)
    {w : McpWorld} (hease : Ease s i a 0 w) :
    (serve s.me offset rest).Serves (service ss) (fun _ _ => True) i w := by
  induction rest generalizing offset a w with
  | nil => trivial
  | cons act rest ih =>
      have hact : s.actions[a]? = some act := by
        rw [← List.head?_drop, hrest, List.head?_cons]
      have hnext : s.actions.drop (a + 1) = rest := by
        rw [← List.drop_drop, hrest, List.drop_succ_cons, List.drop_zero]
      refine (serves_action hdistinct hs hact (hdelivers act (List.mem_of_getElem? hact))
        hease).bind fun done w' (hease' : Ease s i (a + 1) 0 w') => ?_
      refine serves_call hdistinct hs (fun w'' _ hrel => ⟨(hease'.rel hs hrel).full, trivial⟩)
        fun w'' _ _ hrel => ih hnext (hease'.rel hs hrel)

/-! ## What a server does by itself -/

/-- The batch that a poll of the session has been given. -/
def batchOf (me : String) : Event McpStmt.Answer → Option (List Message)
  | ⟨_, .pending session limit none, batch⟩ =>
      if session = me ∧ limit = pollLimit then some batch else none
  | _ => none

/-- The batches, the latest first. -/
def batches (me : String) (past : List (Event McpStmt.Answer)) : List (List Message) :=
  past.filterMap (batchOf me)

/-- What batches have to be notified of, the latest first. -/
def taken (me : String) (bs : List (List Message)) : List (String × String) :=
  bs.flatMap fun b => (b.map fun m => (me, m.id)).reverse

/-- What has been taken has been notified. -/
def Even (me : String) (past : List (Event McpStmt.Answer)) : Prop :=
  taken me (batches me past) = past.filterMap shownOf

/-- What all batches but the latest have to be notified of has been notified. -/
def Settled (me : String) (past : List (Event McpStmt.Answer)) : Prop :=
  taken me (batches me past).tail <:+ past.filterMap shownOf

/-- Statements that take no batch, and notify nobody. -/
def McpStmt.silent : McpStmt → Bool
  | .pending _ _ _ | .notify _ _ => false
  | _ => true

/-- A program of such statements. -/
def Silent {α : Type} : McpProg α → Prop
  | .done _ => True
  | .call q f => q.silent = true ∧ ∀ a, Silent (f a)

section Traces

variable {α : Type} {me : String} {i : Nat}

theorem taken_tail (me : String) (bs : List (List Message)) : taken me bs.tail <:+ taken me bs := by
  cases bs with
  | nil => exact List.suffix_refl _
  | cons b bs => exact List.suffix_append _ _

theorem Even.settled {past : List (Event McpStmt.Answer)} (h : Even me past) : Settled me past := by
  unfold Settled
  rw [← h]
  exact taken_tail me _

theorem batchOf_silent {q : McpStmt} (hq : q.silent = true) (a : McpStmt.Answer q) :
    batchOf me ⟨i, q, a⟩ = none := by
  cases q with
  | pending session limit tag => cases hq
  | _ => rfl

theorem shownOf_silent {q : McpStmt} (hq : q.silent = true) (a : McpStmt.Answer q) :
    shownOf ⟨i, q, a⟩ = none := by
  cases q with
  | notify session id => cases hq
  | _ => rfl

theorem even_silent {q : McpStmt} (hq : q.silent = true) (a : McpStmt.Answer q)
    {past : List (Event McpStmt.Answer)} : Even me (⟨i, q, a⟩ :: past) ↔ Even me past := by
  unfold Even batches
  rw [List.filterMap_cons, List.filterMap_cons, batchOf_silent hq, shownOf_silent hq]

/-- A silent program, and what comes after it. -/
theorem traces_silent {β : Type} {Ψ : β → List (Event McpStmt.Answer) → Prop} {p : McpProg α}
    {f : α → McpProg β} (hp : Silent p) {past : List (Event McpStmt.Answer)} (h : Even me past)
    (hf : ∀ a past', Even me past' → (f a).Traces (Settled me) Ψ i past') :
    (p.bind f).Traces (Settled me) Ψ i past := by
  induction p generalizing past with
  | done a => exact hf a past h
  | call q k ih => exact ⟨h.settled, fun a => ih a (hp.2 a) ((even_silent hp.1 a).mpr h)⟩

theorem silent_insertDeliveries {id : String} {recipients : List String} {next : McpProg α}
    (h : Silent next) : Silent (insertDeliveries id recipients next) := by
  induction recipients with
  | nil => exact h
  | cons r rest ih => exact ⟨rfl, fun _ => ih⟩

theorem silent_insertMessage {m : Message} {extra : List String} {next : McpProg α}
    (h : Silent next) : Silent (insertMessage m extra next) :=
  ⟨rfl, fun _ => silent_insertDeliveries h⟩

theorem silent_appendToInboxFiles {m : Message} {recipients : List String} {next : McpProg α}
    (h : Silent next) : Silent (appendToInboxFiles m recipients next) := by
  induction recipients with
  | nil => exact h
  | cons r rest ih => exact ⟨rfl, fun _ => ih⟩

theorem silent_fanOut {m : String → Message} {recipients : List String} {next : McpProg α}
    (h : Silent next) : Silent (fanOut m recipients next) := by
  cases recipients with
  | nil => exact h
  | cons r rest => exact silent_insertMessage (silent_appendToInboxFiles h)

theorem silent_announce {host : Host} {m : String → String → Message} {n : Nat}
    {targets : List String} {next : McpProg α} (h : Silent next) :
    Silent (announce host m n targets next) := by
  induction targets generalizing n with
  | nil => exact h
  | cons target rest ih => exact silent_insertMessage (silent_appendToInboxFiles ih)

theorem silent_openThread {host : Host} {kind : ThreadKind} {type : MessageType}
    {others : List String} {content : String} :
    Silent (openThread me host kind type others content) :=
  ⟨rfl, fun _ => silent_fanOut trivial⟩

theorem silent_reply {host : Host} {threadId content : String} {tag : Option String} :
    Silent (reply me host threadId content tag) := by
  refine ⟨rfl, fun thread => ?_⟩
  cases thread with
  | none => trivial
  | some t =>
      dsimp only
      split
      · trivial
      · refine ⟨rfl, fun _ => ⟨rfl, fun routeToTag => ?_⟩⟩
        split
        · exact silent_fanOut trivial
        · split
          · trivial
          · split
            · trivial
            · exact silent_insertMessage (silent_appendToInboxFiles trivial)

theorem silent_rejectRouting {host : Host} {threadId reason : String} :
    Silent (rejectRouting me host threadId reason) := by
  refine ⟨rfl, fun thread => ?_⟩
  cases thread with
  | none => trivial
  | some t =>
      dsimp only
      split
      · trivial
      · refine ⟨rfl, fun msgs => ?_⟩
        dsimp only
        split
        · trivial
        · refine ⟨rfl, fun _ => ?_⟩
          exact silent_insertMessage (silent_appendToInboxFiles ⟨rfl, fun _ => trivial⟩)

theorem silent_closeThread {host : Host} {threadId : String} {reason : Option String}
    {resolution : Option ResolutionArg} :
    Silent (closeThread me host threadId reason resolution) := by
  refine ⟨rfl, fun thread => ?_⟩
  cases thread with
  | none => trivial
  | some t => exact ⟨rfl, fun _ => silent_announce trivial⟩

theorem silent_decline {host : Host} {threadId : String} : Silent (decline me host threadId) := by
  refine ⟨rfl, fun thread => ?_⟩
  cases thread with
  | none => trivial
  | some t =>
      dsimp only
      split
      · trivial
      · exact ⟨rfl, fun _ => trivial⟩

theorem silent_adoptThread {host : Host} {threadId : String} {newTag : Option String} :
    Silent (adoptThread me host threadId newTag) := by
  refine ⟨rfl, fun thread => ?_⟩
  cases thread with
  | none => trivial
  | some t =>
      dsimp only
      split
      · trivial
      · exact ⟨rfl, fun _ => ⟨rfl, fun _ => trivial⟩⟩

theorem silent_reap {host : Host} {stale : String → Bool} : Silent (reapStaleThreads host stale) :=
  ⟨rfl, fun _ => trivial⟩

theorem silent_claim {host : Host} {helpId commitment : String} :
    Silent (claim me host helpId commitment) := by
  refine ⟨rfl, fun thread => ?_⟩
  cases thread with
  | none => trivial
  | some t =>
      dsimp only
      split
      · trivial
      · split
        · trivial
        · exact ⟨rfl, fun _ => silent_announce trivial⟩

variable {Ψ : α → List (Event McpStmt.Answer) → Prop} {past : List (Event McpStmt.Answer)}

/-- The ingestion of the inbox file is silent. -/
theorem traces_ingestInboxFile {offset : Nat} {next : Nat → McpProg α} (h : Even me past)
    (hnext : ∀ offset' past', Even me past' → (next offset').Traces (Settled me) Ψ i past') :
    (ingestInboxFile me offset next).Traces (Settled me) Ψ i past := by
  have hlines : ∀ (lines : List Message) (offset' : Nat) {past : List (Event McpStmt.Answer)},
      Even me past → (insertLines lines (next offset')).Traces (Settled me) Ψ i past := by
    intro lines offset'
    induction lines with
    | nil => exact fun h => hnext offset' _ h
    | cons l rest ih =>
        intro past h
        refine ⟨h.settled, fun a => ⟨((even_silent rfl a).mpr h).settled, fun a' => ?_⟩⟩
        exact ih ((even_silent rfl a').mpr ((even_silent rfl a).mpr h))
  refine ⟨h.settled, fun read => ?_⟩
  have hread : Even me (⟨i, .readInbox me offset, read⟩ :: past) := (even_silent rfl read).mpr h
  dsimp only
  split
  · exact hnext _ _ hread
  · exact hlines _ _ hread

/-- The loop of a poll notifies what the batch has. -/
theorem traces_notifyAll {host : Host} {batch : List Message} {next : McpProg α}
    (hsettled : Settled me past)
    (htaken : taken me (batches me past) =
      (batch.map fun m => (me, m.id)).reverse ++ past.filterMap shownOf)
    (hnext : ∀ past', Even me past' → next.Traces (Settled me) Ψ i past') :
    (notifyAll me host batch next).Traces (Settled me) Ψ i past := by
  induction batch generalizing past with
  | nil => exact hnext past htaken
  | cons m rest ih =>
      refine ⟨hsettled, fun a => ?_⟩
      -- with the notification, one less is left
      have hsettled₁ : Settled me (⟨i, .notify me m.id, a⟩ :: past) :=
        hsettled.trans (List.suffix_cons _ _)
      have htaken₁ : taken me (batches me (⟨i, .notify me m.id, a⟩ :: past)) =
          (rest.map fun m => (me, m.id)).reverse ++
            (⟨i, .notify me m.id, a⟩ :: past : List (Event McpStmt.Answer)).filterMap shownOf := by
        change taken me (batches me past) = _ ++ (me, m.id) :: past.filterMap shownOf
        rw [htaken, List.map_cons, List.reverse_cons, List.append_assoc, List.singleton_append]
      exact ⟨hsettled₁, fun _ => ⟨hsettled₁, fun _ => ih hsettled₁ htaken₁⟩⟩

theorem traces_pollInbox {host : Host} {offset : Nat} {next : Nat → McpProg α} (h : Even me past)
    (hnext : ∀ offset' past', Even me past' → (next offset').Traces (Settled me) Ψ i past') :
    (pollInbox me host offset next).Traces (Settled me) Ψ i past := by
  refine traces_ingestInboxFile h fun offset' past' h' => ⟨h'.settled, fun batch => ?_⟩
  have hbatch : batches me (⟨i, .pending me pollLimit none, batch⟩ :: past') =
      batch :: batches me past' := by
    unfold batches
    rw [List.filterMap_cons]
    simp [batchOf]
  have hshown : (⟨i, .pending me pollLimit none, batch⟩ :: past' : List (Event McpStmt.Answer)
      ).filterMap shownOf = past'.filterMap shownOf := rfl
  refine traces_notifyAll ?_ ?_ (hnext offset')
  · unfold Settled
    rw [hbatch, hshown, List.tail_cons]
    exact h' ▸ List.suffix_refl _
  · rw [hbatch, hshown, ← h']
    rfl

/-- Every action of a server. -/
theorem traces_action {host : Host} {offset : Nat} (action : Action) (h : Even me past) :
    (action.prog me host offset).Traces (Settled me) (fun _ => Even me) i past := by
  have hdone : ∀ {β : Type} (b : β) (past' : List (Event McpStmt.Answer)), Even me past' →
      (Prog.done b : McpProg β).Traces (Settled me) (fun _ => Even me) i past' :=
    fun _ _ h' => ⟨h'.settled, h'⟩
  cases action with
  | sendMessage to_ content tag toTag reachable =>
      refine traces_silent ?_ h fun _ => hdone _
      unfold sendMessage
      split
      · trivial
      · exact ⟨rfl, fun _ => silent_insertMessage (silent_appendToInboxFiles trivial)⟩
  | group participants content =>
      refine traces_silent ?_ h fun _ => hdone _
      unfold group
      split
      · trivial
      · exact silent_openThread
  | help routed topic question =>
      refine traces_silent ?_ h fun _ => hdone _
      unfold help
      split
      · trivial
      · exact silent_openThread
  | reply threadId content tag => exact traces_silent silent_reply h fun _ => hdone _
  | closeThread threadId reason resolution =>
      exact traces_silent silent_closeThread h fun _ => hdone _
  | claim helpId commitment => exact traces_silent silent_claim h fun _ => hdone _
  | decline threadId => exact traces_silent silent_decline h fun _ => hdone _
  | adoptThread threadId newTag => exact traces_silent silent_adoptThread h fun _ => hdone _
  | rejectRouting threadId reason => exact traces_silent silent_rejectRouting h fun _ => hdone _
  | reap stale => exact traces_silent silent_reap h fun _ => hdone _
  | checkInbox limit tag =>
      unfold Action.prog
      refine traces_ingestInboxFile h fun offset' past' h' => ⟨h'.settled, fun ms => ?_⟩
      exact hdone _ _ ((even_silent rfl ms).mpr h')
  | listRoutings limit =>
      unfold Action.prog
      refine traces_ingestInboxFile h fun offset' past' h' => ⟨h'.settled, fun ms => ?_⟩
      exact hdone _ _ ((even_silent rfl ms).mpr h')
  | poll => exact traces_pollInbox h fun _ => hdone _
  | restart =>
      refine ⟨h.settled, fun read => ?_⟩
      have hread : Even me (⟨i, .readInbox me 0, read⟩ :: past) := (even_silent rfl read).mpr h
      exact ⟨hread.settled, fun a => hdone _ _ ((even_silent rfl a).mpr hread)⟩

/-- **Before it polls again, a server has notified what it has been given.** -/
theorem serve_traces {offset : Nat} {actions : List (Host × Action)} (h : Even me past) :
    (serve me offset actions).Traces (Settled me) (fun _ _ => True) i past := by
  induction actions generalizing offset past with
  | nil => exact ⟨h.settled, trivial⟩
  | cons act rest ih =>
      refine (traces_action act.2 h).bind fun done past' h' => ⟨h'.settled, fun a => ?_⟩
      exact ih ((even_silent rfl a).mpr h')

end Traces

/-! ## Runs -/

/-- How many polls server `i` has begun. -/
def polls (me : String) (i : Nat) (w : McpWorld) : Nat := (batches me (w.own i)).length

/-- The servers serve each other in every run. -/
theorem servers_hold {ss : List Server} (hdistinct : Distinct ss)
    (hdelivers : ∀ s ∈ ss, ∀ act ∈ s.actions, act.2.delivers = true) (schedule : List Nat) :
    (service ss).Holds (fun _ _ _ => True) ((servers ss).run schedule) := by
  refine Reliance.run ⟨?_, fun i p hp => ?_⟩ schedule
  · exact ⟨fun m hm => absurd hm (Table.not_mem_empty m), fun d hd => absurd hd
      (Table.not_mem_empty d), fun d hd => absurd hd (Table.not_mem_empty d), fun m hm => absurd hm
      (Table.not_mem_empty m), fun _ l hl => absurd hl List.not_mem_nil, fun p hp => absurd hp
      List.not_mem_nil, List.nodup_nil, rfl, fun _ _ h => h.elim⟩
  · obtain ⟨s, hs, rfl⟩ : ∃ s, ss[i]? = some s ∧ serve s.me s.offset s.actions = p := by
      refine Option.map_eq_some_iff.mp ?_
      rw [← List.getElem?_map]
      exact hp
    refine ⟨_, (service ss).refl i _, serve_serves hdistinct hs
      (hdelivers s (List.mem_of_getElem? hs)) List.drop_zero ⟨⟨?_, ?_⟩, ?_, ?_⟩⟩
    · exact fun _ _ _ _ _ m hm => absurd hm (Table.not_mem_empty m)
    · exact fun _ _ _ _ _ => Table.find_empty _
    · exact fun _ hseen => absurd hseen List.not_mem_nil
    · exact fun e he => absurd he List.not_mem_nil

theorem batchOf_eq_some {me : String} {i : Nat} {q : McpStmt} {a : McpStmt.Answer q}
    {batch : List Message} (h : batchOf me ⟨i, q, a⟩ = some batch) :
    q = .pending me pollLimit none ∧ HEq a batch := by
  cases q with
  | pending session limit tag =>
      cases tag with
      | none =>
          obtain ⟨⟨rfl, rfl⟩, heq⟩ := Option.ite_none_right_eq_some.mp h
          exact ⟨rfl, heq_of_eq (Option.some.inj heq)⟩
      | some tag => cases h
  | _ => cases h

/-- Once there is a delivery, a poll takes it unless it has been notified or the poll is full. -/
theorem polls_take {c : Config McpStore McpStmt.Answer Unit}
    (hsound : ∀ schedule, Sound (c.run schedule).world) {id me : String}
    (hhas : HasDelivery c.world.db id me) {schedule : List Nat}
    {later earlier : List (Event McpStmt.Answer)} {e : Event McpStmt.Answer}
    (hlog : (c.run schedule).world.log = later ++ e :: earlier) (hnew : c.world.log <:+ earlier)
    {batch : List Message} (hbatch : batchOf me e = some batch) :
    (me, id) ∈ earlier.filterMap shownOf ∨ (∃ m ∈ batch, m.id = id) ∨
      pollLimit ≤ batch.length := by
  induction schedule generalizing c with
  | nil =>
      have hlength := hnew.length_le
      rw [Config.run_nil] at hlog
      rw [hlog] at hlength
      simp at hlength
      omega
  | cons i schedule ih =>
      rw [Config.run_cons] at hlog
      rcases c.step_cases i with heq | ⟨q, k, -, heq⟩
      · have hhas' : HasDelivery (c.step i).world.db id me := by
          rw [heq]
          exact hhas
        have hnew' : (c.step i).world.log <:+ earlier := by
          rw [heq]
          exact hnew
        exact ih (fun t => hsound (i :: t)) hhas' hlog hnew'
      · have hsuffix : (c.step i).world.log <:+ later ++ e :: earlier := by
          rw [← hlog]
          exact Config.run_world (P := fun w => (c.step i).world.log <:+ w.log)
            (fun w j r hw => hw.trans (List.suffix_cons _ _)) (List.suffix_refl _) schedule
        have hstep : (c.step i).world = c.world.exec i q := by rw [heq]
        have hcase : (c.step i).world.log <:+ earlier ∨ (c.step i).world.log = e :: earlier := by
          rcases List.suffix_or_suffix_of_suffix hsuffix (List.suffix_append later (e :: earlier))
            with h | h
          · exact (List.suffix_cons_iff.mp h).symm
          · rw [hstep] at h ⊢
            rcases List.suffix_cons_iff.mp h with h | h
            · exact .inr h.symm
            · have hlength := (h.trans hnew).length_le
              simp at hlength
        rcases hcase with hold | hevent
        · refine ih (fun t => hsound (i :: t)) ?_ hlog hold
          rw [hstep]
          exact (grows_exec q c.world.db).deliveries _ _ hhas
        · rw [hstep] at hevent
          obtain ⟨rfl, rfl⟩ := List.cons.inj hevent
          obtain ⟨rfl, hanswer⟩ := batchOf_eq_some hbatch
          have hsound₀ : Sound c.world := hsound []
          have htakes := hsound₀.takes hhas pollLimit
          cases hanswer
          refine htakes.imp_left fun hshown => ?_
          rw [hsound₀.told] at hshown
          exact List.mem_reverse.mp hshown

theorem length_taken_ge (me : String) {k : Nat} {bs : List (List Message)}
    (h : ∀ b ∈ bs, k ≤ b.length) : k * bs.length ≤ (taken me bs).length := by
  induction bs with
  | nil => exact Nat.le_refl 0
  | cons b bs ih =>
      have hb := h b List.mem_cons_self
      have hrest := ih fun b' hb' => h b' (List.mem_cons_of_mem _ hb')
      unfold taken at hrest ⊢
      rw [List.flatMap_cons, List.length_append, List.length_reverse, List.length_map,
        List.length_cons, Nat.mul_succ]
      omega

theorem mem_taken {me : String} {bs : List (List Message)} {p : String × String} :
    p ∈ taken me bs ↔ ∃ b ∈ bs, ∃ m ∈ b, (me, m.id) = p := by
  unfold taken
  simp only [List.mem_flatMap, List.mem_reverse, List.mem_map]

/-- **It takes so many polls until a message has its turn.** A session whose server has begun as
many polls since a message was there for it as it takes to be notified of all messages, and one
more, has been notified of this one. -/
theorem shown_of_polls {ss : List Server} (hdistinct : Distinct ss)
    (hdelivers : ∀ s ∈ ss, ∀ act ∈ s.actions, act.2.delivers = true) {s₁ s₂ : List Nat} {j : Nat}
    {s : Server} (hs : ss[j]? = some s) {id : String}
    (hhas : HasDelivery ((servers ss).run s₁).world.db id s.me)
    (hpolls : ((servers ss).run (s₁ ++ s₂)).world.db.messages.rows.length ≤
      pollLimit * (polls s.me j ((servers ss).run (s₁ ++ s₂)).world -
        polls s.me j ((servers ss).run s₁).world - 1)) :
    (s.me, id) ∈ ((servers ss).run (s₁ ++ s₂)).world.db.shown := by
  have hsound : ∀ schedule, Sound ((servers ss).run schedule).world := fun schedule =>
    (servers_hold hdistinct hdelivers schedule).inv
  have htrace : Settled s.me (((servers ss).run (s₁ ++ s₂)).world.own j) := by
    have htask : (servers ss).tasks[j]? = some (serve s.me s.offset s.actions) := by
      unfold servers Config.start
      rw [List.getElem?_map, hs, Option.map_some]
    exact Config.run_traces htask (serve_traces rfl) (s₁ ++ s₂)
  have hsound₂ := hsound (s₁ ++ s₂)
  have hgrows : HasDelivery ((servers ss).run (s₁ ++ s₂)).world.db id s.me := by
    rw [Config.run_append]
    exact Config.run_world (P := fun w => HasDelivery w.db id s.me)
      (fun w i q hw => by
        change HasDelivery (q.exec w.db).2 id s.me
        exact (grows_exec q w.db).deliveries _ _ hw) hhas s₂
  obtain ⟨newer, hnewer⟩ : ((servers ss).run s₁).world.log <:+
      ((servers ss).run (s₁ ++ s₂)).world.log := by
    rw [Config.run_append]
    exact Config.run_world (P := fun w => ((servers ss).run s₁).world.log <:+ w.log)
      (fun w i q hw => hw.trans (List.suffix_cons _ _)) (List.suffix_refl _) s₂
  have hown : batches s.me (((servers ss).run (s₁ ++ s₂)).world.own j) =
      batches s.me (newer.filter fun e => e.task = j) ++
        batches s.me (((servers ss).run s₁).world.own j) := by
    unfold batches World.own
    rw [← hnewer, List.filter_append, List.filterMap_append]
  by_contra hunseen
  have htold : ∀ p, p ∈ ((servers ss).run (s₁ ++ s₂)).world.log.filterMap shownOf →
      p ∈ ((servers ss).run (s₁ ++ s₂)).world.db.shown := by
    intro p hp
    rw [hsound₂.told]
    exact List.mem_reverse.mpr hp
  have hownlog : ((((servers ss).run (s₁ ++ s₂)).world.own j).filterMap shownOf).Sublist
      (((servers ss).run (s₁ ++ s₂)).world.log.filterMap shownOf) :=
    List.filter_sublist.filterMap _
  unfold Settled at htrace
  unfold polls at hpolls
  rw [hown, List.length_append] at hpolls
  rw [hown] at htrace
  cases hnew : batches s.me (newer.filter fun e => e.task = j) with
  | nil =>
      obtain ⟨d, hd, hid, -⟩ := hgrows
      obtain ⟨m, hm, -⟩ := hsound₂.recipient d hd
      have hpos := List.length_pos_of_mem hm
      have hnone : 0 + (batches s.me (((servers ss).run s₁).world.own j)).length -
          (batches s.me (((servers ss).run s₁).world.own j)).length - 1 = 0 := by omega
      rw [hnew, List.length_nil, hnone, Nat.mul_zero] at hpolls
      omega
  | cons b₀ bs =>
      rw [hnew, List.cons_append, List.tail_cons] at htrace
      rw [hnew, List.length_cons] at hpolls
      have hsub := htrace.sublist.trans hownlog
      have hinshown : ∀ p ∈ taken s.me (bs ++ batches s.me (((servers ss).run s₁).world.own j)),
          p ∈ ((servers ss).run (s₁ ++ s₂)).world.db.shown := fun p hp =>
        htold p (hsub.mem hp)
      -- each of the batches was full
      have hfull : ∀ b ∈ bs, pollLimit ≤ b.length := by
        intro b hb
        have hmem : b ∈ batches s.me (newer.filter fun e => e.task = j) := by
          rw [hnew]
          exact List.mem_cons_of_mem _ hb
        obtain ⟨e, he, hbatch⟩ := List.mem_filterMap.mp hmem
        obtain ⟨l₁, l₂, hsplit⟩ := List.append_of_mem (List.mem_of_mem_filter he)
        have hlog : (((servers ss).run s₁).run s₂).world.log =
            l₁ ++ e :: (l₂ ++ ((servers ss).run s₁).world.log) := by
          rw [← Config.run_append, ← hnewer, hsplit, List.append_assoc, List.cons_append]
        have hsound' : ∀ t, Sound (((servers ss).run s₁).run t).world := by
          intro t
          rw [← Config.run_append]
          exact hsound (s₁ ++ t)
        rcases polls_take hsound' hhas hlog (List.suffix_append _ _) hbatch with
          htold' | ⟨m, hm, hid⟩ | hfull
        · refine absurd (htold _ ?_) hunseen
          rw [Config.run_append, hlog, List.filterMap_append]
          refine List.mem_append_right _ ?_
          obtain ⟨e', he', hshown'⟩ := List.mem_filterMap.mp htold'
          exact List.mem_filterMap.mpr ⟨e', List.mem_cons_of_mem _ he', hshown'⟩
        · refine absurd (hinshown _ (mem_taken.mpr ⟨b, List.mem_append_left _ hb, m, hm, rfl⟩)) ?_
          rw [hid]
          exact hunseen
        · exact hfull
      -- and the messages in them are all others
      have hnodup : (taken s.me (bs ++ batches s.me (((servers ss).run s₁).world.own j))).Nodup := by
        refine hsub.nodup (List.nodup_reverse.mp ?_)
        rw [← hsound₂.told]
        exact hsound₂.once
      have hids : (id :: (taken s.me (bs ++ batches s.me (((servers ss).run s₁).world.own j))).map
          Prod.snd).Nodup := by
        refine List.nodup_cons.mpr ⟨fun hmem => ?_, hnodup.map_on fun p hp p' hp' heq => ?_⟩
        · obtain ⟨p, hp, rfl⟩ := List.mem_map.mp hmem
          obtain ⟨b, hb, m, hm, rfl⟩ := mem_taken.mp hp
          exact hunseen (hinshown _ hp)
        · obtain ⟨b, hb, m, hm, rfl⟩ := mem_taken.mp hp
          obtain ⟨b', hb', m', hm', rfl⟩ := mem_taken.mp hp'
          exact Prod.ext rfl heq
      have hrows : ∀ x ∈ id :: (taken s.me (bs ++ batches s.me (((servers ss).run s₁).world.own j))
          ).map Prod.snd, x ∈ ((servers ss).run (s₁ ++ s₂)).world.db.messages.rows.map
            Message.id := by
        have hrow : ∀ {x session : String}, HasDelivery ((servers ss).run (s₁ ++ s₂)).world.db x
            session → x ∈ ((servers ss).run (s₁ ++ s₂)).world.db.messages.rows.map Message.id := by
          rintro x session ⟨d, hd, rfl, -⟩
          obtain ⟨m, hm, hid, -⟩ := hsound₂.recipient d hd
          exact List.mem_map.mpr ⟨m, hm, hid⟩
        intro x hx
        rcases List.mem_cons.mp hx with rfl | hx
        · exact hrow hgrows
        · obtain ⟨p, hp, rfl⟩ := List.mem_map.mp hx
          exact hrow (hsound₂.seen p (hinshown p hp))
      have hle := (List.subperm_of_subset hids hrows).length_le
      have hge := length_taken_ge s.me hfull
      have hmore : (taken s.me bs).length ≤
          (taken s.me (bs ++ batches s.me (((servers ss).run s₁).world.own j))).length := by
        unfold taken
        rw [List.flatMap_append, List.length_append]
        omega
      rw [List.length_cons, List.length_map, List.length_map] at hle
      have hcount : bs.length + 1 + (batches s.me (((servers ss).run s₁).world.own j)).length -
          (batches s.me (((servers ss).run s₁).world.own j)).length - 1 = bs.length := by omega
      rw [hcount] at hpolls
      omega

/-- What is said of the notifications of a run. -/
structure DeliveredOnce (ss : List Server) (schedule : List Nat) : Prop where
  /-- No session is notified of a message twice. -/
  once : ∀ session id, ((servers ss).run schedule).world.db.shown.count (session, id) ≤ 1
  /-- A session that is notified of a message is one of its recipients. -/
  recipient : ∀ session id, (session, id) ∈ ((servers ss).run schedule).world.db.shown →
    ∃ m ∈ ((servers ss).run schedule).world.db.messages, m.id = id ∧
      IsFor ((servers ss).run schedule).world.db m session
  /-- A recipient that keeps polling is notified: if since the sender has answered its client it
  has begun enough polls for all the messages there are, and one more. -/
  delivered : ∀ s₁ s₂, schedule = s₁ ++ s₂ → ∀ i, ∀ m ∈ ((servers ss).run s₁).world.db.messages,
    SentBy i m.id ((servers ss).run s₁).world.log → ∀ j s, ss[j]? = some s →
      IsFor ((servers ss).run s₁).world.db m s.me →
        ((servers ss).run schedule).world.db.messages.rows.length ≤
          pollLimit * (polls s.me j ((servers ss).run schedule).world -
            polls s.me j ((servers ss).run s₁).world - 1) →
          (s.me, m.id) ∈ ((servers ss).run schedule).world.db.shown

/-- Machines that number their ids draw different ones where their prefixes differ. -/
theorem Host.numbered_inj {pre pre' now now' : String} {n k : Nat}
    (hlength : pre.toList.length = pre'.toList.length)
    (h : (Host.numbered pre now).fresh n = (Host.numbered pre' now').fresh k) :
    pre = pre' ∧ n = k := by
  have hchars : pre.toList ++ Nat.toDigits 10 n = pre'.toList ++ Nat.toDigits 10 k := by
    have heq := congrArg String.toList h
    simpa [Host.numbered] using heq
  obtain ⟨hpre, hdigits⟩ := List.append_inj hchars hlength
  have hnumber := congrArg (fun l => Nat.ofDigitChars 10 l 0) hdigits
  rw [Nat.ofDigitChars_ten_toDigits, Nat.ofDigitChars_ten_toDigits] at hnumber
  exact ⟨String.toList_inj.mp hpre, hnumber⟩

/-- A session sends a message to another one, which starts again between its polls. -/
def sampleDelivery : List Server :=
  [⟨"anna", 0, [(.numbered "a" "10:00", .sendMessage "bert" "hello" none none true)]⟩,
   ⟨"bert", 0, [(.numbered "b" "10:01", .poll), (.numbered "c" "10:02", .restart),
     (.numbered "d" "10:03", .poll)]⟩]

theorem sampleDelivery_distinct : Distinct sampleDelivery where
  names := by decide
  ids := by
    have hmarked : ∀ {i a : Nat} {s : Server} {act : Host × Action}, sampleDelivery[i]? = some s →
        s.actions[a]? = some act → ∃ pre now, act.1 = .numbered pre now ∧ pre.toList.length = 1 ∧
          ((i, a), pre) ∈ [((0, 0), "a"), ((1, 0), "b"), ((1, 1), "c"), ((1, 2), "d")] := by
      intro i a s act hs hact
      rcases i with _ | _ | i
      · cases hs
        rcases a with _ | a
        · cases hact
          exact ⟨"a", "10:00", rfl, rfl, by decide⟩
        · cases hact
      · cases hs
        rcases a with _ | _ | _ | a
        · cases hact
          exact ⟨"b", "10:01", rfl, rfl, by decide⟩
        · cases hact
          exact ⟨"c", "10:02", rfl, rfl, by decide⟩
        · cases hact
          exact ⟨"d", "10:03", rfl, rfl, by decide⟩
        · cases hact
      · cases hs
    intro i j a b n k s s' act act' hs hs' hact hact' heq
    obtain ⟨pre, now, hhost, hlength, hmem⟩ := hmarked hs hact
    obtain ⟨pre', now', hhost', hlength', hmem'⟩ := hmarked hs' hact'
    rw [hhost, hhost'] at heq
    obtain ⟨rfl, rfl⟩ := Host.numbered_inj (hlength.trans hlength'.symm) heq
    simp only [List.mem_cons, Prod.mk.injEq, List.not_mem_nil, or_false] at hmem hmem'
    rcases hmem with ⟨⟨rfl, rfl⟩, rfl⟩ | ⟨⟨rfl, rfl⟩, rfl⟩ | ⟨⟨rfl, rfl⟩, rfl⟩ | ⟨⟨rfl, rfl⟩, rfl⟩ <;>
      simp_all

end EighthLayer.CrosstalkMcp
