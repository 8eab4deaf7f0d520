import EighthLayer.CrosstalkMcp.Help
import Mathlib.Order.Monotone.Defs

/-!
# EighthLayer.CrosstalkMcp.HelpBudget

What sessions are charged for help, over any interleaving of the calls of a process.

Every charge is for a help message that is sent, and the shortlist is charged in one segment with
its check. A candidate is charged when the model has answered: what was checked before may have been
spent by another call meanwhile. The limit holds exactly if there is room left at that moment too
(`help_budget_iff`).
-/

namespace EighthLayer.CrosstalkMcp

/-! ## Windows -/

/-- What a session has been charged in the hour up to a time. -/
def charged (ledger : List Charge) (session : String) (time : Nat) : Nat :=
  ((ledger.filter fun c => c.session = session ∧ c.ts ≤ time ∧ time < c.ts + budgetWindowMs).map
    Charge.tokens).sum

/-- In no hour is a session charged more than the limit. -/
def WithinLimit (ledger : List Charge) : Prop :=
  ∀ session time, charged ledger session time ≤ budgetLimitTokens

@[simp] theorem charged_nil (session : String) (time : Nat) : charged [] session time = 0 := rfl

theorem charged_cons (c : Charge) (ledger : List Charge) (session : String) (time : Nat) :
    charged (c :: ledger) session time =
      (if c.session = session ∧ c.ts ≤ time ∧ time < c.ts + budgetWindowMs then c.tokens else 0) +
        charged ledger session time := by
  unfold charged
  rw [List.filter_cons]
  by_cases h : c.session = session ∧ c.ts ≤ time ∧ time < c.ts + budgetWindowMs
  · rw [if_pos (decide_eq_true h), if_pos h, List.map_cons, List.sum_cons]
  · rw [if_neg (by simpa using h), if_neg h, Nat.zero_add]

theorem charged_append (l₁ l₂ : List Charge) (session : String) (time : Nat) :
    charged (l₁ ++ l₂) session time = charged l₁ session time + charged l₂ session time := by
  unfold charged
  rw [List.filter_append, List.map_append, List.sum_append]

theorem WithinLimit.of_append {l₁ l₂ : List Charge} (h : WithinLimit (l₁ ++ l₂)) :
    WithinLimit l₁ := by
  intro session time
  have hboth := h session time
  rw [charged_append] at hboth
  omega

/-- Of charges up to a time, later windows have no more. -/
theorem charged_anti {ledger : List Charge} {session : String} {t time : Nat}
    (hts : ∀ c ∈ ledger, c.ts ≤ t) (hle : t ≤ time) :
    charged ledger session time ≤ charged ledger session t := by
  induction ledger with
  | nil => exact Nat.le_refl 0
  | cons c ledger ih =>
      have hrest := ih fun c' hc' => hts c' (List.mem_cons_of_mem c hc')
      have hc := hts c List.mem_cons_self
      rw [charged_cons, charged_cons]
      by_cases hin : c.session = session ∧ c.ts ≤ time ∧ time < c.ts + budgetWindowMs
      · rw [if_pos hin, if_pos ⟨hin.1, hc, by omega⟩]
        omega
      · rw [if_neg hin]
        omega

/-- **One more charge.** It keeps the limit exactly if there is room for it in the hour before. -/
theorem withinLimit_push {ledger : List Charge} {e : Charge} (hts : ∀ c ∈ ledger, c.ts ≤ e.ts) :
    WithinLimit (ledger ++ [e]) ↔
      WithinLimit ledger ∧ charged ledger e.session e.ts + e.tokens ≤ budgetLimitTokens := by
  have hwindow : e.ts < e.ts + budgetWindowMs := Nat.lt_add_of_pos_right (by decide)
  constructor
  · intro h
    refine ⟨h.of_append, ?_⟩
    have hnow := h e.session e.ts
    rw [charged_append, charged_cons, if_pos ⟨rfl, Nat.le_refl _, hwindow⟩, charged_nil] at hnow
    exact hnow
  · intro h session time
    obtain ⟨hlimit, hroom⟩ := h
    rw [charged_append, charged_cons, charged_nil]
    by_cases hin : e.session = session ∧ e.ts ≤ time ∧ time < e.ts + budgetWindowMs
    · -- the window has begun before the charge, and has no more than the hour before it
      have hanti := @charged_anti ledger e.session _ _ hts hin.2.1
      rw [if_pos hin, ← hin.1]
      omega
    · rw [if_neg hin]
      exact hlimit session time

/-! ## What the server remembers -/

/-- The server remembers of a session what it was charged, but for what was older than an hour when
it last looked; and no charge is ahead of the clock. -/
structure Sane (now : Readings) (b : Budgets) : Prop where
  past : ∀ n, b.readings ≤ n → ∀ c ∈ b.ledger, c.ts ≤ now n
  entries : ∀ session, ∃ looked, (∀ n, b.readings ≤ n → looked ≤ now n) ∧
    b.entries session = b.ledger.filter fun c =>
      c.session = session ∧ looked < c.ts + budgetWindowMs

theorem Sane.empty (now : Readings) : Sane now .empty where
  past := fun _ _ _ hc => absurd hc List.not_mem_nil
  entries := fun _ => ⟨0, fun _ _ => Nat.zero_le _, rfl⟩

/-- What is remembered sums up to what was charged within the hour. -/
theorem Sane.spend {now : Readings} {b : Budgets} (h : Sane now b) (session : String) :
    (b.getBudgetSpend now session).1 = charged b.ledger session (now b.readings) := by
  obtain ⟨looked, hlooked, hentries⟩ := h.entries session
  have hle := hlooked b.readings (Nat.le_refl _)
  unfold Budgets.getBudgetSpend charged
  dsimp only
  rw [hentries, List.filter_filter]
  congr 2
  refine List.filter_congr fun c hc => ?_
  have hpast := h.past b.readings (Nat.le_refl _) c hc
  rw [← Bool.decide_and, decide_eq_decide]
  constructor
  · intro hin
    exact ⟨hin.2.1, hpast, hin.1⟩
  · intro hin
    exact ⟨hin.2.2, hin.1, by omega⟩

section Steps

variable {now : Readings} (hmono : Monotone now) {b : Budgets}

include hmono

theorem Sane.getBudgetSpend (h : Sane now b) (session : String) :
    Sane now (b.getBudgetSpend now session).2 where
  past := fun n hn => h.past n (Nat.le_of_succ_le hn)
  entries := by
    intro session'
    obtain ⟨looked, hlooked, hentries⟩ := h.entries session'
    by_cases hsession : session' = session
    · subst hsession
      refine ⟨now b.readings, fun n hn => hmono (Nat.le_of_succ_le hn), ?_⟩
      have hle := hlooked b.readings (Nat.le_refl _)
      unfold Budgets.getBudgetSpend
      dsimp only
      rw [if_pos rfl, hentries, List.filter_filter]
      refine List.filter_congr fun c _ => ?_
      rw [← Bool.decide_and, decide_eq_decide]
      constructor
      · intro hin
        exact ⟨hin.2.1, hin.1⟩
      · intro hin
        exact ⟨hin.2, hin.1, by omega⟩
    · refine ⟨looked, fun n hn => hlooked n (Nat.le_of_succ_le hn), ?_⟩
      unfold Budgets.getBudgetSpend
      dsimp only
      rw [if_neg hsession, hentries]

theorem Sane.consumeBudget (h : Sane now b) (call : Nat) (session : String) :
    Sane now (b.consumeBudget now call session) where
  past := by
    intro n hn c hc
    rcases List.mem_append.mp hc with hc | hc
    · exact h.past n (Nat.le_of_succ_le hn) c hc
    · cases List.mem_singleton.mp hc
      exact hmono (Nat.le_of_succ_le hn)
  entries := by
    intro session'
    obtain ⟨looked, hlooked, hentries⟩ := h.entries session'
    have hle := hlooked b.readings (Nat.le_refl _)
    have hwindow : 0 < budgetWindowMs := by decide
    refine ⟨looked, fun n hn => hlooked n (Nat.le_of_succ_le hn), ?_⟩
    unfold Budgets.consumeBudget
    dsimp only
    rw [List.filter_append, ← hentries]
    by_cases hsession : session' = session
    · subst hsession
      rw [if_pos rfl, List.filter_cons_of_pos (by simp; omega), List.filter_nil]
    · rw [if_neg hsession, List.filter_cons_of_neg (by simp [Ne.symm hsession]), List.filter_nil,
        List.append_nil]

/-- `hasBudget` tells whether there is room for one more charge, and charges nothing. -/
theorem Sane.hasBudget (h : Sane now b) (session : String) :
    ((b.hasBudget now session).1 = true ↔
      charged b.ledger session (now b.readings) + deliveryCostTokens ≤ budgetLimitTokens) ∧
    (b.hasBudget now session).2.ledger = b.ledger ∧
    (b.hasBudget now session).2.readings = b.readings + 1 ∧ Sane now (b.hasBudget now session).2 := by
  refine ⟨?_, rfl, rfl, h.getBudgetSpend hmono session⟩
  rw [← h.spend session]
  unfold Budgets.hasBudget
  dsimp only
  rw [decide_eq_true_eq]

end Steps

/-! ## Whom a call may reach -/

theorem nodup_eraseDups {α : Type} [DecidableEq α] (l : List α) : l.eraseDups.Nodup := by
  induction hn : l.length using Nat.strong_induction_on generalizing l with
  | _ n ih =>
      cases l with
      | nil => exact List.nodup_nil
      | cons a l =>
          rw [List.eraseDups_cons, List.nodup_cons]
          refine ⟨fun hin => ?_, ih _ ?_ _ rfl⟩
          · have hfilter := List.mem_filter.mp (List.mem_eraseDups.mp hin)
            simp at hfilter
          · rw [← hn]
            exact Nat.lt_succ_of_le (List.length_filter_le _ l)

namespace HelpRequest

variable (lower : String → String) (me : String) (r : HelpRequest)

theorem nodup_shortlist : (r.l0sessions lower me ++ r.l1sessions lower me).Nodup := by
  rw [List.nodup_append]
  refine ⟨nodup_eraseDups _, ?_, ?_⟩
  · unfold l1sessions
    dsimp only
    split
    · exact List.nodup_nil
    · exact (nodup_eraseDups _).filter _
  · intro s hs s' hs' heq
    subst heq
    unfold l1sessions at hs'
    dsimp only at hs'
    split at hs'
    · cases hs'
    · have hnot := (List.mem_filter.mp hs').2
      simp [hs] at hnot

theorem nodup_combined : (r.combined lower me).Nodup :=
  (r.nodup_shortlist lower me).sublist (List.take_sublist _ _)

theorem length_combined_le : (r.combined lower me).length ≤ r.max := List.length_take_le _ _

/-- The candidates are no more than there is room for, and none of the shortlist. -/
theorem candidates_after {kept : List String} (hkept : kept.Sublist (r.combined lower me))
    (hroom : kept.length ≤ r.max) :
    (kept ++ r.candidates lower me (r.max - kept.length)).Nodup ∧
      (kept ++ r.candidates lower me (r.max - kept.length)).length ≤ r.max := by
  constructor
  · rw [List.nodup_append]
    refine ⟨(r.nodup_combined lower me).sublist hkept, ?_, ?_⟩
    · exact ((nodup_eraseDups _).filter _).sublist (List.take_sublist _ _)
    · intro s hs s' hs' heq
      subst heq
      have hlisted := List.mem_of_mem_take (hkept.subset hs)
      have hnot := (List.mem_filter.mp (List.mem_of_mem_take hs')).2
      rw [Bool.not_eq_true', List.contains_eq_mem, decide_eq_false_iff_not] at hnot
      exact hnot hlisted
  · have htake : (r.candidates lower me (r.max - kept.length)).length ≤ r.max - kept.length :=
      List.length_take_le _ _
    rw [List.length_append]
    omega

end HelpRequest

/-! ## What a call charges -/

/-- From one state of the budgets to another a call has charged these sessions, in this order. -/
structure Charges (now : Readings) (call : Nat) (sessions : List String) (b b' : Budgets) : Prop where
  sane : Sane now b'
  ledger : ∃ new : List Charge, b'.ledger = b.ledger ++ new ∧ new.map Charge.session = sessions ∧
    ∀ c ∈ new, c.call = call ∧ c.tokens = deliveryCostTokens

theorem Charges.none {now : Readings} {call : Nat} {b b' : Budgets} (hsane : Sane now b')
    (hledger : b'.ledger = b.ledger) : Charges now call [] b b' where
  sane := hsane
  ledger := ⟨[], by rw [hledger, List.append_nil], rfl, fun _ hc => absurd hc List.not_mem_nil⟩

theorem Charges.trans {now : Readings} {call : Nat} {l₁ l₂ : List String} {b₁ b₂ b₃ : Budgets}
    (h₁ : Charges now call l₁ b₁ b₂) (h₂ : Charges now call l₂ b₂ b₃) :
    Charges now call (l₁ ++ l₂) b₁ b₃ where
  sane := h₂.sane
  ledger := by
    obtain ⟨new₁, hledger₁, hsessions₁, hof₁⟩ := h₁.ledger
    obtain ⟨new₂, hledger₂, hsessions₂, hof₂⟩ := h₂.ledger
    refine ⟨new₁ ++ new₂, ?_, ?_, ?_⟩
    · rw [hledger₂, hledger₁, List.append_assoc]
    · rw [List.map_append, hsessions₁, hsessions₂]
    · intro c hc
      rcases List.mem_append.mp hc with hc | hc
      · exact hof₁ c hc
      · exact hof₂ c hc

theorem Charges.of_withinLimit {now : Readings} {call : Nat} {l : List String} {b b' : Budgets}
    (h : Charges now call l b b') (hlimit : WithinLimit b'.ledger) : WithinLimit b.ledger := by
  obtain ⟨new, hledger, -⟩ := h.ledger
  rw [hledger] at hlimit
  exact hlimit.of_append

section Segments

variable {now : Readings} (hmono : Monotone now) (call : Nat)

include hmono

/-- One charge. -/
theorem charges_consumeBudget {b : Budgets} (h : Sane now b) (session : String) :
    Charges now call [session] b (b.consumeBudget now call session) where
  sane := h.consumeBudget hmono call session
  ledger := ⟨[⟨call, session, now b.readings, deliveryCostTokens⟩], rfl, rfl, fun c hc => by
    cases List.mem_singleton.mp hc
    exact ⟨rfl, rfl⟩⟩

/-- It keeps the limit exactly if there is room for it. -/
theorem withinLimit_consumeBudget {b : Budgets} (h : Sane now b) (session : String) :
    WithinLimit (b.consumeBudget now call session).ledger ↔
      WithinLimit b.ledger ∧ (b.hasBudget now session).1 = true := by
  rw [(h.hasBudget hmono session).1]
  exact withinLimit_push (h.past b.readings (Nat.le_refl _))

/-- **A session of the shortlist.** It is charged where there is room, and taken off otherwise. -/
theorem chargeShortlisted_spec {b : Budgets} (h : Sane now b) (combined : List String)
    (session : String) :
    (WithinLimit b.ledger →
      WithinLimit (chargeShortlisted now call (combined, b) session).2.ledger) ∧
    (((chargeShortlisted now call (combined, b) session).1 = combined ∧
        Charges now call [session] b (chargeShortlisted now call (combined, b) session).2) ∨
      ((chargeShortlisted now call (combined, b) session).1 = combined.erase session ∧
        Charges now call [] b (chargeShortlisted now call (combined, b) session).2)) := by
  obtain ⟨hroom, hledger, hreadings, hsane⟩ := h.hasBudget hmono session
  unfold chargeShortlisted
  dsimp only
  by_cases hhas : (b.hasBudget now session).1 = true
  · rw [if_pos hhas]
    have hcharges := charges_consumeBudget hmono call hsane session
    refine ⟨fun hlimit => ?_, .inl ⟨rfl, ?_⟩⟩
    · -- the clock may have moved on since the check, and the hour with it
      refine (withinLimit_push (hsane.past _ (Nat.le_refl _))).mpr ?_
      rw [hledger, hreadings]
      refine ⟨hlimit, Nat.le_trans (Nat.add_le_add_right ?_ _) (hroom.mp hhas)⟩
      exact charged_anti (h.past _ (Nat.le_refl _)) (hmono (Nat.le_succ _))
    · have hread : Charges now call [] (Budgets.consumeBudget now (b.hasBudget now session).2 call
          session) _ := .none (hcharges.sane.getBudgetSpend hmono session) rfl
      have hall := (Charges.none hsane hledger).trans (hcharges.trans hread)
      exact hall
  · rw [if_neg hhas]
    refine ⟨fun hlimit => ?_, .inr ⟨rfl, .none hsane hledger⟩⟩
    dsimp only
    rw [hledger]
    exact hlimit

/-- **The loop over the shortlist.** What is left of it is what is charged. -/
theorem foldl_chargeShortlisted {b : Budgets} (h : Sane now b) {kept todo : List String}
    (hnodup : (kept ++ todo).Nodup) :
    ∃ more b', todo.foldl (chargeShortlisted now call) (kept ++ todo, b) = (kept ++ more, b') ∧
      more.Sublist todo ∧ Charges now call more b b' ∧
      (WithinLimit b.ledger → WithinLimit b'.ledger) := by
  induction todo generalizing kept b with
  | nil => exact ⟨[], b, rfl, .refl _, .none h rfl, id⟩
  | cons session todo ih =>
      obtain ⟨hlimit, hstep⟩ := chargeShortlisted_spec hmono call h (kept ++ session :: todo) session
      rw [List.foldl_cons]
      generalize chargeShortlisted now call (kept ++ session :: todo, b) session = acc at hlimit hstep ⊢
      obtain ⟨combined, b₁⟩ := acc
      rcases hstep with ⟨rfl, hcharges⟩ | ⟨rfl, hcharges⟩
      · -- it is charged
        have hassoc : kept ++ session :: todo = (kept ++ [session]) ++ todo := by simp
        obtain ⟨more, b₂, hloop, hsublist, hmore, hmorelimit⟩ := ih hcharges.sane (hassoc ▸ hnodup)
        refine ⟨session :: more, b₂, ?_, hsublist.cons_cons session, hcharges.trans hmore,
          fun h => hmorelimit (hlimit h)⟩
        dsimp only at hloop ⊢
        rw [hassoc, hloop, List.append_assoc]
        rfl
      · -- it is taken off; it stands nowhere else
        have hnotin : session ∉ kept := fun hin =>
          (List.nodup_append.mp hnodup).2.2 session hin session List.mem_cons_self rfl
        have herase : (kept ++ session :: todo).erase session = kept ++ todo := by
          rw [List.erase_append_right _ hnotin, List.erase_cons_head]
        have hrest : (kept ++ todo).Nodup :=
          hnodup.sublist (List.Sublist.append (.refl _) (List.sublist_cons_self _ _))
        obtain ⟨more, b₂, hloop, hsublist, hmore, hmorelimit⟩ := ih hcharges.sane hrest
        refine ⟨more, b₂, ?_, hsublist.cons session, hcharges.trans hmore,
          fun h => hmorelimit (hlimit h)⟩
        rw [herase]
        exact hloop

theorem chargeShortlist_spec {b : Budgets} (h : Sane now b) (high : Bool) {combined : List String}
    (hnodup : combined.Nodup) :
    ∃ kept b', chargeShortlist now call high combined b = (kept, b') ∧ kept.Sublist combined ∧
      Charges now call (if high then [] else kept) b b' ∧
      (WithinLimit b.ledger → WithinLimit b'.ledger) := by
  cases high with
  | true => exact ⟨combined, b, rfl, .refl _, .none h rfl, id⟩
  | false =>
      have hnodup : ([] ++ combined).Nodup := hnodup
      obtain ⟨kept, b', hloop, hall⟩ := foldl_chargeShortlisted hmono call h hnodup
      exact ⟨kept, b', hloop, hall⟩

omit hmono in
/-- A phase that a call may be in with these recipients, and these candidates before it. -/
def HelpPhase.Follows (r : HelpRequest) (combined candidates : List String) : HelpPhase → Prop
  | called _ => False
  | gated r' candidate rest combined' =>
      r' = r ∧ combined' = combined ∧ (candidate :: rest).Sublist candidates
  | ended r' recipients => r' = r ∧ recipients = combined

/-- **The loop over the candidates.** It charges nobody up to the next `await`. -/
theorem nextCandidate_spec {b : Budgets} (h : Sane now b) (r : HelpRequest)
    (combined candidates : List String) :
    ∃ phase b', nextCandidate now r combined candidates b = (phase, b') ∧
      phase.Follows r combined candidates ∧ Sane now b' ∧ b'.ledger = b.ledger := by
  induction candidates generalizing b with
  | nil => exact ⟨_, b, rfl, ⟨rfl, rfl⟩, h, rfl⟩
  | cons candidate rest ih =>
      unfold nextCandidate
      by_cases hhigh : r.high = true
      · rw [if_pos hhigh]
        exact ⟨_, b, rfl, ⟨rfl, rfl, .refl _⟩, h, rfl⟩
      · rw [if_neg hhigh]
        obtain ⟨-, hledger, -, hsane⟩ := h.hasBudget hmono candidate
        dsimp only
        by_cases hhas : (b.hasBudget now candidate).1 = true
        · rw [if_pos hhas]
          exact ⟨_, _, rfl, ⟨rfl, rfl, .refl _⟩, hsane, hledger⟩
        · rw [if_neg hhas]
          obtain ⟨phase, b', hnext, hfollows, hsane', hledger'⟩ := ih hsane
          refine ⟨phase, b', hnext, ?_, hsane', hledger'.trans hledger⟩
          cases phase with
          | called _ => exact hfollows
          | gated r' candidate' rest' combined' =>
              exact ⟨hfollows.1, hfollows.2.1, hfollows.2.2.cons candidate⟩
          | ended r' recipients => exact hfollows

omit hmono in
/-- The sessions that a call has charged so far, if it charges at all. -/
def HelpPhase.reached : HelpPhase → List String
  | called _ => []
  | gated _ _ _ combined => combined
  | ended _ recipients => recipients

omit hmono in
/-- No session is reached twice, and no more than may be. -/
def HelpPhase.Orderly : HelpPhase → Prop
  | called _ => True
  | gated r candidate rest combined =>
      (combined ++ candidate :: rest).Nodup ∧ (combined ++ candidate :: rest).length ≤ r.max
  | ended r recipients => recipients.Nodup ∧ recipients.length ≤ r.max

omit hmono in
theorem HelpPhase.Follows.orderly {r : HelpRequest} {combined candidates : List String}
    {phase : HelpPhase} (h : phase.Follows r combined candidates)
    (hnodup : (combined ++ candidates).Nodup) (hlength : (combined ++ candidates).length ≤ r.max) :
    phase.Orderly ∧ phase.request = r ∧ phase.reached = combined := by
  cases phase with
  | called _ => exact h.elim
  | gated r' candidate rest combined' =>
      obtain ⟨rfl, rfl, hsublist⟩ := h
      have happend := List.Sublist.append (.refl combined') hsublist
      exact ⟨⟨hnodup.sublist happend, happend.length_le.trans hlength⟩, rfl, rfl⟩
  | ended r' recipients =>
      obtain ⟨rfl, rfl⟩ := h
      have happend := List.sublist_append_left recipients candidates
      exact ⟨⟨hnodup.sublist happend, happend.length_le.trans hlength⟩, rfl, rfl⟩

omit hmono in
/-- Where the model has found that a candidate can help: there is room for the charge still. -/
def HelpPhase.HasRoom (now : Readings) (canHelp : Option Bool) (b : Budgets) : HelpPhase → Prop
  | called _ | ended _ _ => True
  | gated r candidate _ _ =>
      canHelp = some true → r.high = false → (b.hasBudget now candidate).1 = true

/-- **Segment lemma.** Whom a segment charges it adds to those that are reached, unless nobody is
charged for the call; and it keeps the limit exactly if there is room where it has not looked. -/
theorem HelpPhase.next_spec {b : Budgets} (h : Sane now b) (lower : String → String) (me : String)
    (canHelp : Option Bool) {phase : HelpPhase} (hphase : phase.Orderly) :
    ∃ phase' b' more, phase.next now lower me call canHelp b = (phase', b') ∧
      phase'.request = phase.request ∧ phase'.Orderly ∧ phase'.reached = phase.reached ++ more ∧
      Charges now call (if phase.request.high then [] else more) b b' ∧
      (WithinLimit b'.ledger ↔ WithinLimit b.ledger ∧ phase.HasRoom now canHelp b) := by
  cases phase with
  | ended r recipients =>
      refine ⟨_, b, [], rfl, rfl, hphase, (List.append_nil _).symm, ?_, ?_⟩
      · rw [ite_self]
        exact .none h rfl
      · exact (and_iff_left trivial).symm
  | called r =>
      show ∃ phase' b' more, startHelp now lower me call r b = (phase', b') ∧ _
      unfold startHelp
      by_cases hempty : r.topic = "" ∨ r.question = ""
      · rw [if_pos hempty]
        refine ⟨_, b, [], rfl, rfl, ⟨List.nodup_nil, Nat.zero_le _⟩, rfl, ?_,
          (and_iff_left trivial).symm⟩
        rw [ite_self]
        exact .none h rfl
      · rw [if_neg hempty]
        obtain ⟨kept, b₁, hshortlist, hsublist, hcharges, hlimit⟩ :=
          chargeShortlist_spec hmono call h r.high (r.nodup_combined lower me)
        have hlength := hsublist.length_le.trans (r.length_combined_le lower me)
        obtain ⟨hnodup, hroom⟩ := r.candidates_after lower me hsublist hlength
        have hiff : WithinLimit b₁.ledger ↔ WithinLimit b.ledger ∧ True :=
          ⟨fun h' => ⟨hcharges.of_withinLimit h', trivial⟩, fun h' => hlimit h'.1⟩
        rw [hshortlist]
        dsimp only
        by_cases hasks : (!r.shortlistOnly && decide (kept.length < r.max)) = true
        · rw [if_pos hasks]
          obtain ⟨phase, b₂, hnext, hfollows, hsane, hledger⟩ := nextCandidate_spec hmono
            hcharges.sane r kept (r.candidates lower me (r.max - kept.length))
          obtain ⟨horderly, hrequest, hreached⟩ := hfollows.orderly hnodup hroom
          refine ⟨phase, b₂, kept, hnext, hrequest, horderly, hreached, ?_, ?_⟩
          · have hall := hcharges.trans (.none hsane hledger)
            rw [List.append_nil] at hall
            exact hall
          · rw [hledger]
            exact hiff
        · rw [if_neg hasks]
          exact ⟨_, b₁, kept, rfl, rfl, ⟨(r.nodup_combined lower me).sublist hsublist, hlength⟩,
            rfl, hcharges, hiff⟩
  | gated r candidate rest combined =>
      show ∃ phase' b' more, resumeHelp now call r candidate rest combined canHelp b =
        (phase', b') ∧ _
      obtain ⟨hnodup, hlength⟩ := hphase
      have hassoc : combined ++ candidate :: rest = (combined ++ [candidate]) ++ rest := by simp
      unfold resumeHelp
      by_cases hcan : canHelp = some true
      · rw [if_pos hcan]
        rw [hassoc] at hnodup hlength
        -- the charge, where there is one
        have hcharge : ∃ b₁, (if r.high then b else b.consumeBudget now call candidate) = b₁ ∧
            Charges now call (if r.high then [] else [candidate]) b b₁ ∧
            (WithinLimit b₁.ledger ↔ WithinLimit b.ledger ∧
              (HelpPhase.gated r candidate rest combined).HasRoom now canHelp b) := by
          by_cases hhigh : r.high = true
          · rw [if_pos hhigh, if_pos hhigh]
            refine ⟨b, rfl, .none h rfl, (and_iff_left fun _ hlow => ?_).symm⟩
            rw [hhigh] at hlow
            cases hlow
          · rw [if_neg hhigh, if_neg hhigh]
            refine ⟨_, rfl, charges_consumeBudget hmono call h candidate, ?_⟩
            rw [withinLimit_consumeBudget hmono call h candidate]
            exact and_congr_right fun _ =>
              ⟨fun hroom _ _ => hroom, fun hroom => hroom hcan (Bool.eq_false_iff.mpr hhigh)⟩
        obtain ⟨b₁, heq, hcharges, hiff⟩ := hcharge
        rw [heq]
        obtain ⟨phase, b₂, hnext, hfollows, hsane, hledger⟩ := nextCandidate_spec hmono
          hcharges.sane r (combined ++ [candidate]) rest
        obtain ⟨horderly, hrequest, hreached⟩ := hfollows.orderly hnodup hlength
        refine ⟨phase, b₂, [candidate], hnext, hrequest, horderly, hreached, ?_, ?_⟩
        · have hall := hcharges.trans (.none hsane hledger)
          rw [List.append_nil] at hall
          exact hall
        · rw [hledger]
          exact hiff
      · rw [if_neg hcan]
        have hless := List.Sublist.append (.refl combined) (List.sublist_cons_self candidate rest)
        obtain ⟨phase, b₂, hnext, hfollows, hsane, hledger⟩ :=
          nextCandidate_spec hmono h r combined rest
        obtain ⟨horderly, hrequest, hreached⟩ := hfollows.orderly (hnodup.sublist hless)
          (hless.length_le.trans hlength)
        refine ⟨phase, b₂, [], hnext, hrequest, horderly, ?_, ?_, ?_⟩
        · rw [hreached, List.append_nil]
          rfl
        · rw [ite_self]
          exact .none hsane hledger
        · rw [hledger]
          exact (and_iff_left fun hcan' => absurd hcan' hcan).symm

end Segments

/-! ## Calls side by side -/

/-- The ledger is made up of what the calls have charged, each for those that it has reached. -/
structure Accounts (now : Readings) (d : HelpDesk) : Prop where
  sane : Sane now d.budgets
  orderly : ∀ phase ∈ d.calls, phase.Orderly
  own : ∀ (i : Nat) (phase : HelpPhase), d.calls[i]? = some phase →
    (d.budgets.ledger.filter fun c => c.call = i).map Charge.session =
      if phase.request.high then [] else phase.reached
  known : ∀ c ∈ d.budgets.ledger, c.call < d.calls.length ∧ c.tokens = deliveryCostTokens

/-- The call that is about to go on has room for what it is about to charge unchecked. -/
def HelpDesk.HasRoom (now : Readings) (d : HelpDesk) (s : HelpStep) : Prop :=
  ∀ phase, d.calls[s.call]? = some phase → phase.HasRoom now s.canHelp d.budgets

/-- It has at every step of a run. -/
def HelpDesk.RunHasRoom (now : Readings) (lower : String → String) (me : String) (d : HelpDesk) :
    List HelpStep → Prop
  | [] => True
  | s :: steps => d.HasRoom now s ∧ (d.step now lower me s).RunHasRoom now lower me steps

section Runs

variable {now : Readings} (hmono : Monotone now) (lower : String → String) (me : String)

include hmono

/-- **Step lemma.** -/
theorem Accounts.step {d : HelpDesk} (h : Accounts now d) (s : HelpStep) :
    Accounts now (d.step now lower me s) ∧
      (WithinLimit (d.step now lower me s).budgets.ledger ↔
        WithinLimit d.budgets.ledger ∧ d.HasRoom now s) := by
  unfold HelpDesk.step HelpDesk.HasRoom
  cases hphase : d.calls[s.call]? with
  | none =>
      refine ⟨h, (and_iff_left fun phase hp => ?_).symm⟩
      cases hp
  | some phase =>
      obtain ⟨phase', b', more, hnext, hrequest, horderly, hreached, hcharges, hlimit⟩ :=
        phase.next_spec hmono s.call h.sane lower me s.canHelp
          (h.orderly phase (List.mem_of_getElem? hphase))
      obtain ⟨new, hledger, hsessions, hof⟩ := hcharges.ledger
      have hlt : s.call < d.calls.length := (List.getElem?_eq_some_iff.mp hphase).1
      dsimp only
      rw [hnext]
      refine ⟨⟨hcharges.sane, ?_, ?_, ?_⟩, ?_⟩
      · intro p hp
        rcases List.mem_or_eq_of_mem_set hp with hp | rfl
        · exact h.orderly p hp
        · exact horderly
      · intro i p hp
        dsimp only at hp ⊢
        rw [hledger, List.filter_append, List.map_append]
        by_cases hi : s.call = i
        · -- its own charges, and the new ones
          subst hi
          rw [List.getElem?_set_self hlt] at hp
          cases hp
          have hnew : new.filter (fun c => c.call = s.call) = new :=
            List.filter_eq_self.mpr fun c hc => decide_eq_true (hof c hc).1
          rw [h.own _ _ hphase, hnew, hsessions, hrequest, hreached]
          by_cases hhigh : phase.request.high = true
          · simp only [if_pos hhigh, List.append_nil]
          · simp only [if_neg hhigh]
        · -- another call's
          rw [List.getElem?_set_ne hi] at hp
          have hnone : new.filter (fun c => c.call = i) = [] :=
            List.filter_eq_nil_iff.mpr fun c hc hci =>
              hi ((hof c hc).1.symm.trans (of_decide_eq_true hci))
          rw [h.own i p hp, hnone, List.map_nil, List.append_nil]
      · intro c hc
        dsimp only at hc ⊢
        rw [List.length_set]
        rw [hledger] at hc
        rcases List.mem_append.mp hc with hc | hc
        · exact h.known c hc
        · exact ⟨(hof c hc).1 ▸ hlt, (hof c hc).2⟩
      · rw [hlimit]
        refine and_congr_right fun _ => ⟨fun hroom p hp => ?_, fun hroom => hroom phase rfl⟩
        cases hp
        exact hroom

/-- **Run lemma.** -/
theorem Accounts.run {d : HelpDesk} (h : Accounts now d) (steps : List HelpStep) :
    Accounts now (d.run now lower me steps) ∧
      (WithinLimit (d.run now lower me steps).budgets.ledger ↔
        WithinLimit d.budgets.ledger ∧ d.RunHasRoom now lower me steps) := by
  induction steps generalizing d with
  | nil => exact ⟨h, (and_iff_left trivial).symm⟩
  | cons s steps ih =>
      obtain ⟨hstep, hiff⟩ := h.step hmono lower me s
      obtain ⟨hrun, hrunlimit⟩ := ih hstep
      refine ⟨hrun, hrunlimit.trans ?_⟩
      rw [hiff, and_assoc]
      rfl

omit hmono in
theorem Accounts.start (now : Readings) (requests : List HelpRequest) :
    Accounts now (.start requests) where
  sane := .empty now
  orderly := by
    intro phase hphase
    obtain ⟨r, -, rfl⟩ := List.mem_map.mp hphase
    trivial
  own := by
    intro i phase hphase
    obtain ⟨r, -, rfl⟩ := List.mem_map.mp (List.mem_of_getElem? hphase)
    exact (ite_self _).symm
  known := fun _ hc => absurd hc List.not_mem_nil

end Runs

/-- What holds of the calls of a process after some steps, `d` being its state. -/
structure HelpAccounts (d : HelpDesk) : Prop where
  /-- A call reaches no session twice, and no more of them than it may. -/
  recipients : ∀ (i : Nat) r recipients, d.calls[i]? = some (.ended r recipients) →
    recipients.Nodup ∧ recipients.length ≤ r.max
  /-- A delivery is charged once, unless it is urgent; and then it is not. -/
  deliveries : ∀ (i : Nat) r recipients, d.calls[i]? = some (.ended r recipients) →
    (d.budgets.ledger.filter fun c => c.call = i).map Charge.session =
      if r.high then [] else recipients
  /-- A charge is that of a call which is not urgent, and has reached the session or is about to. -/
  charges : ∀ c ∈ d.budgets.ledger, c.tokens = deliveryCostTokens ∧
    ∃ phase, d.calls[c.call]? = some phase ∧ phase.request.high = false ∧ c.session ∈ phase.reached

/-- And in no hour is a session charged more than the limit. -/
structure HelpBudget (d : HelpDesk) : Prop extends HelpAccounts d where
  limit : WithinLimit d.budgets.ledger

/-- **The help budget.** Whatever the calls, the sessions there are, the model's answers and the
order of the segments, charges and deliveries match at any time; and the limit is kept exactly if in
the run, whenever the model has found that a candidate can help with what is not urgent, there is
room for the charge still. -/
theorem help_budget_iff {now : Readings} (hmono : Monotone now) (lower : String → String) (me : String)
    (requests : List HelpRequest) (steps : List HelpStep) :
    HelpAccounts ((HelpDesk.start requests).run now lower me steps) ∧
      (HelpBudget ((HelpDesk.start requests).run now lower me steps) ↔
        (HelpDesk.start requests).RunHasRoom now lower me steps) := by
  obtain ⟨haccounts, hlimit⟩ := (Accounts.start now requests).run hmono lower me steps
  have hempty : WithinLimit (HelpDesk.start requests).budgets.ledger := fun _ _ => Nat.zero_le _
  have hall : HelpAccounts ((HelpDesk.start requests).run now lower me steps) := by
    refine ⟨?_, ?_, ?_⟩
    · intro i r recipients hended
      exact haccounts.orderly _ (List.mem_of_getElem? hended)
    · intro i r recipients hended
      exact haccounts.own i _ hended
    · intro c hc
      obtain ⟨hlt, htokens⟩ := haccounts.known c hc
      have hphase := List.getElem?_eq_getElem hlt
      have hin : c.session ∈ (((HelpDesk.start requests).run now lower me steps).budgets.ledger.filter
          fun c' => c'.call = c.call).map Charge.session :=
        List.mem_map_of_mem (List.mem_filter.mpr ⟨hc, decide_eq_true rfl⟩)
      rw [haccounts.own c.call _ hphase] at hin
      refine ⟨htokens, _, hphase, ?_⟩
      split at hin
      · cases hin
      · rename_i hlow
        exact ⟨Bool.eq_false_iff.mpr hlow, hin⟩
  refine ⟨hall, fun h => (hlimit.mp h.limit).2, fun h => ⟨hall, hlimit.mpr ⟨hempty, h⟩⟩⟩

/-! ### Six calls -/

/-- A call that asks everybody there is: Bert. -/
def askBert : HelpRequest where
  topic := "lean"
  question := "why?"
  urgency := none
  maxRecipients := none
  shortlistOnly := false
  live := ["anna", "bert"]
  experts := []
  learned := fun _ => []
  expertise := fun _ => []

/-- One call charges Bert once. -/
theorem help_budget_sample :
    HelpBudget ((HelpDesk.start [askBert]).run id id "anna" [⟨0, none⟩, ⟨0, some true⟩]) ∧
      (((HelpDesk.start [askBert]).run id id "anna" [⟨0, none⟩, ⟨0, some true⟩]).budgets.ledger.map
        Charge.session) = ["bert"] := by
  refine ⟨(help_budget_iff (@monotone_id Nat _) id "anna" [askBert] [⟨0, none⟩, ⟨0, some true⟩]).2.mpr
    ⟨?_, ?_, trivial⟩, by decide +kernel⟩
  · intro phase hphase
    cases hphase
    trivial
  · intro phase hphase
    have hgated : ((HelpDesk.start [askBert]).step id id "anna" ⟨0, none⟩).calls[0]? =
        some (.gated askBert "bert" [] []) :=
      rfl
    cases hgated.symm.trans hphase
    intro _ _
    decide +kernel

/-- Six calls wait for the model at once; it finds that Bert can help with each of them. -/
theorem limit_is_exceeded :
    ¬ HelpBudget ((HelpDesk.start (List.replicate 6 askBert)).run id id "anna"
      ((List.range 6).map (⟨·, none⟩) ++ (List.range 6).map (⟨·, some true⟩))) := by
  intro h
  have hcharged : charged ((HelpDesk.start (List.replicate 6 askBert)).run id id "anna"
      ((List.range 6).map (⟨·, none⟩) ++ (List.range 6).map (⟨·, some true⟩))).budgets.ledger
      "bert" 11 = 30000 := by
    decide +kernel
  have hle := h.limit "bert" 11
  rw [hcharged] at hle
  exact absurd hle (by decide)

end EighthLayer.CrosstalkMcp
