import EighthLayer.Invites.Calls

/-!
# EighthLayer.Invites.Lifecycle

An invite is issued, and then claimed, revoked or left to expire.

A claim updates the row that is neither claimed nor revoked, whether or not it has expired
since it was looked at; a revocation updates the row that is not revoked, whether or not it
is claimed. So the end of an invite is final where these updates find it pending
(`invite_lifecycle`). That an invite is claimed once holds in any case (`claimed_once`).
-/

namespace EighthLayer.Invites

open Lib

variable {J : Jwt}

/-! ## What is asked of a store, and of two -/

/-- No invite is both claimed and revoked. -/
def Exclusive (s : InviteStore) : Prop :=
  ∀ inv ∈ s.invites, inv.claimedAt = none ∨ inv.revokedAt = none

/-- An invite that is claimed, revoked or expired in the first store is so in the second, as
the same row. -/
def Settled (s s' : InviteStore) : Prop :=
  ∀ id inv, s.invites.find id = some inv → inv.status s.clock ≠ .pending →
    s'.invites.find id = some inv ∧ inv.status s'.clock = inv.status s.clock

/-- No two calls report that they have claimed one invite. -/
def ClaimedOnce (c : Config InviteStore (InviteStmt.Answer (J := J)) InviteAnswer) : Prop :=
  ∀ i j inv inv', c.Answered i (.claimed (some ⟨.ok, some inv⟩)) →
    c.Answered j (.claimed (some ⟨.ok, some inv'⟩)) → inv.id = inv'.id → i = j

/-- The updates of claims and revocations find a pending invite, or match no row. -/
def FindsPending (_i : Nat) : InviteStmt J → InviteStore → Prop
  | .claim id _ _, s => ∀ inv ∈ s.invites.find id, inv.claimedAt = none →
      inv.revokedAt = none → s.clock < inv.expiresAt
  | .revoke id _, s => ∀ inv ∈ s.invites.find id, inv.revokedAt = none →
      inv.claimedAt = none ∧ s.clock < inv.expiresAt
  | _, _ => True

instance (i : Nat) (q : InviteStmt J) (s : InviteStore) : Decidable (FindsPending i q s) := by
  cases q with
  | claim id now userId => exact inferInstanceAs (Decidable (∀ inv ∈ s.invites.find id, _))
  | revoke id now => exact inferInstanceAs (Decidable (∀ inv ∈ s.invites.find id, _))
  | _ => exact inferInstanceAs (Decidable True)

theorem Settled.refl (s : InviteStore) : Settled s s := fun _ _ h _ => ⟨h, rfl⟩

theorem Settled.trans {s s' s'' : InviteStore} (h : Settled s s') (h' : Settled s' s'') :
    Settled s s'' := by
  intro id inv hinv hstatus
  obtain ⟨hinv', heq⟩ := h id inv hinv hstatus
  obtain ⟨hinv'', heq'⟩ := h' id inv hinv' (heq ▸ hstatus)
  exact ⟨hinv'', heq'.trans heq⟩

/-! ## One statement -/

section Step

variable {i : Nat} {q : InviteStmt J} {s : InviteStore}

/-- A statement that finds what it updates pending changes no invite that is not. -/
theorem settled_exec (hfinds : FindsPending i q s) : Settled s (q.exec s).2 := by
  intro id inv hinv hstatus
  have hclock := Invite.status_mono (q.exec_clock s) hstatus
  have hid : inv.id = id := (Table.find_eq_some_iff.mp hinv).2
  obtain ⟨inv', hinv', hchanges⟩ := q.exec_find_invite hinv
  cases hchanges with
  | same => exact ⟨hinv', hclock⟩
  | claimed hclaimed hrevoked huser =>
      have hlive := hfinds inv (hid ▸ hinv) hclaimed hrevoked
      exact absurd (Invite.status_eq_pending_iff.mpr ⟨hrevoked, hclaimed, hlive⟩) hstatus
  | revoked hrevoked =>
      obtain ⟨hclaimed, hlive⟩ := hfinds inv (hid ▸ hinv) hrevoked
      exact absurd (Invite.status_eq_pending_iff.mpr ⟨hrevoked, hclaimed, hlive⟩) hstatus

theorem exclusive_exec (h : Exclusive s) (hfinds : FindsPending i q s) :
    Exclusive (q.exec s).2 := by
  intro inv' hinv'
  have hfind' := Table.find_key hinv'
  cases hfind : s.invites.find inv'.id with
  | none => exact .inl (InviteStmt.exec_new_invite hfind' hfind).1
  | some inv =>
      obtain ⟨hmem, hid⟩ := Table.find_eq_some_iff.mp hfind
      obtain ⟨inv'', hinv'', hchanges⟩ := q.exec_find_invite hfind
      obtain rfl := Option.some.inj (hfind'.symm.trans hinv'')
      cases hchanges with
      | same => exact h inv' hmem
      | claimed hclaimed hrevoked huser => exact .inr hrevoked
      | revoked hrevoked => exact .inl (hfinds inv (hid ▸ hfind) hrevoked).1

end Step

/-! ## Claimed once -/

/-- What the log says of the invites: a claim that has matched its row has claimed it, there was
no other, and a row that was read by its id has it. -/
structure ClaimLog (w : InviteWorld J) : Prop where
  claimed : ∀ i id now userId n, did i (.claim id now userId) (some (n + 1)) ∈ w.log →
    ∃ inv, w.db.invites.find id = some inv ∧ inv.claimedAt ≠ none
  once : ∀ i j id now now' userId userId' n n',
    did i (.claim id now userId) (some (n + 1)) ∈ w.log →
      did j (.claim id now' userId') (some (n' + 1)) ∈ w.log → i = j
  read : ∀ i id inv, did i (.byId id) (some inv) ∈ w.log → inv.id = id

theorem claimed_exec (q : InviteStmt J) {s : InviteStore} {id : Nat} {inv : Invite}
    (h : s.invites.find id = some inv) (hclaimed : inv.claimedAt ≠ none) :
    ∃ inv', (q.exec s).2.invites.find id = some inv' ∧ inv'.claimedAt ≠ none := by
  obtain ⟨inv', hinv', hchanges⟩ := q.exec_find_invite h
  refine ⟨inv', hinv', ?_⟩
  cases hchanges with
  | same => exact hclaimed
  | claimed _ _ _ => exact Option.some_ne_none _
  | revoked _ => exact hclaimed

/-- A claim that matches its row finds it unclaimed and leaves it claimed. -/
theorem claim_matches {s : InviteStore} {id userId n : Nat} {now : Int}
    (h : some (n + 1) = (s.claim id now userId).1) :
    (∃ inv, s.invites.find id = some inv ∧ inv.claimedAt = none) ∧
      ∃ inv, (s.claim id now userId).2.invites.find id = some inv ∧ inv.claimedAt ≠ none := by
  rcases s.claim_cases id now userId with ⟨-, hne⟩ | ⟨inv, hinv, hclaimed, hrevoked, -, -, -, -, hfind⟩
  · rcases hne with hne | hne
    · cases h.trans hne
    · cases h.trans hne
  · refine ⟨⟨inv, hinv, hclaimed⟩, _, (hfind id).trans (congrArg (Option.map _) hinv), ?_⟩
    have hid : inv.id = id := (Table.find_eq_some_iff.mp hinv).2
    simp [hid, hclaimed, hrevoked]

theorem claimLog_exec {w : InviteWorld J} (h : ClaimLog w) (i : Nat) (q : InviteStmt J) :
    ClaimLog (w.exec i q) where
  claimed := by
    intro j id now userId n hmem
    rcases World.mem_exec_log.mp hmem with hold | ⟨rfl, rfl, hanswer⟩
    · obtain ⟨inv, hinv, hclaimed⟩ := h.claimed j id now userId n hold
      exact claimed_exec q hinv hclaimed
    · exact (claim_matches hanswer).2
  once := by
    intro j j' id now now' userId userId' n n' hmem hmem'
    rcases World.mem_exec_log.mp hmem with hold | ⟨rfl, rfl, hanswer⟩
    · rcases World.mem_exec_log.mp hmem' with hold' | ⟨rfl, rfl, hanswer'⟩
      · exact h.once j j' id now now' userId userId' n n' hold hold'
      · -- an invite that was claimed before cannot be claimed now
        obtain ⟨inv, hinv, hclaimed⟩ := h.claimed j id now userId n hold
        obtain ⟨inv', hinv', hopen⟩ := (claim_matches hanswer').1
        cases hinv.symm.trans hinv'
        exact absurd hopen hclaimed
    · rcases World.mem_exec_log.mp hmem' with hold' | ⟨rfl, -, -⟩
      · obtain ⟨inv, hinv, hclaimed⟩ := h.claimed j' id now' userId' n' hold'
        obtain ⟨inv', hinv', hopen⟩ := (claim_matches hanswer).1
        cases hinv.symm.trans hinv'
        exact absurd hopen hclaimed
      · rfl
  read := by
    intro j id inv hmem
    rcases World.mem_exec_log.mp hmem with hold | ⟨rfl, rfl, hanswer⟩
    · exact h.read j id inv hold
    · exact (Table.find_eq_some_iff.mp hanswer.symm).2

theorem claimLog_start (s : InviteStore) : ClaimLog (⟨s, []⟩ : InviteWorld J) where
  claimed := fun _ _ _ _ _ hmem => (nomatch hmem)
  once := fun _ _ _ _ _ _ _ _ _ hmem => (nomatch hmem)
  read := fun _ _ _ hmem => (nomatch hmem)

/-! ### What a call does by itself -/

/-- A call that reports a claim has matched the row of the invite it reports. -/
def ReportsClaim (i : Nat) (past : List (Event (InviteStmt.Answer (J := J))))
    (p : InviteProg J InviteAnswer) : Prop :=
  ∀ inv, p = .done (.claimed (some ⟨.ok, some inv⟩)) →
    ∃ id now userId n, did i (.claim id now userId) (some (n + 1)) ∈ past ∧
      (inv.id = id ∨ did i (.byId id) (some inv) ∈ past)

section Reports

variable {i : Nat} {past : List (Event (InviteStmt.Answer (J := J)))}

theorem reports_call {q : InviteStmt J} {k : q.Answer → InviteProg J InviteAnswer}
    (hrest : ∀ a, (k a).Always (ReportsClaim i) i (did i q a :: past)) :
    (Prog.call q k).Always (ReportsClaim i) i past :=
  .call (fun _ h => nomatch h) hrest

theorem reports_other {a : InviteAnswer} (h : ∀ inv, a ≠ .claimed (some ⟨.ok, some inv⟩)) :
    (Prog.done a : InviteProg J InviteAnswer).Always (ReportsClaim i) i past :=
  .done fun inv heq => absurd (Prog.done.inj heq) (h inv)

theorem reports_lostRace (current : Option Invite) :
    (Prog.done (.claimed (some (lostRace current))) : InviteProg J InviteAnswer).Always
      (ReportsClaim i) i past := by
  refine reports_other fun inv h => ?_
  cases current with
  | none => cases h
  | some row =>
      unfold lostRace at h
      dsimp only at h
      split at h
      · cases h
      · split at h
        · cases h
        · cases h

theorem reports_claimRow (inv : Invite) (userId : Nat) :
    ((claimRow inv userId).bind fun outcome =>
      (.done (.claimed outcome) : InviteProg J InviteAnswer)).Always (ReportsClaim i) i past := by
  refine reports_call fun (status : InviteStatus) => ?_
  cases status with
  | claimed => exact reports_other fun inv h => nomatch h
  | revoked => exact reports_other fun inv h => nomatch h
  | expired => exact reports_other fun inv h => nomatch h
  | pending =>
      refine reports_call fun (now : Int) => reports_call fun (rowcount : Option Nat) => ?_
      match rowcount with
      | none => exact reports_other fun inv h => nomatch h
      | some 0 => exact reports_call fun (current : Option Invite) => reports_lostRace current
      | some (n + 1) =>
          refine reports_call fun (refreshed : Option Invite) => .done fun reported heq => ?_
          refine ⟨inv.id, now, userId, n, .tail _ (.head _), ?_⟩
          cases refreshed with
          | none =>
              cases heq
              exact .inl rfl
          | some row =>
              cases heq
              exact .inr (.head _)

theorem reports_claimInvite (token : J.Token) (userId : Nat) :
    ((claimInvite token userId).bind fun outcome =>
      (.done (.claimed outcome) : InviteProg J InviteAnswer)).Always (ReportsClaim i) i past := by
  refine reports_call fun (decoded : Decoded) => ?_
  cases decoded with
  | expired => exact reports_other fun inv h => nomatch h
  | invalid => exact reports_other fun inv h => nomatch h
  | ok jti =>
      dsimp only
      split
      · exact reports_other fun inv h => nomatch h
      · refine reports_call fun (row : Option Invite) => ?_
        cases row with
        | none => exact reports_other fun inv h => nomatch h
        | some inv => exact reports_claimRow inv userId

theorem reports_prog (call : InviteCall J) : call.prog.Always (ReportsClaim i) i past := by
  cases call with
  | mint jti email role targetL2Id issuedBy ttlHours =>
      unfold InviteCall.prog
      dsimp only
      rcases mintInvite_cases (J := J) jti email role targetL2Id issuedBy ttlHours with
        heq | ⟨target, heq⟩
      · rw [heq]
        exact reports_other fun inv h => nomatch h
      · rw [heq]
        exact reports_call fun (_ : Int) => reports_call fun (_ : Option Invite) =>
          reports_other fun inv h => nomatch h
  | claim token userId => exact reports_claimInvite token userId
  | revoke inviteId =>
      refine reports_call fun (row : Option Invite) => ?_
      cases row with
      | none => exact reports_other fun inv h => nomatch h
      | some inv =>
          dsimp only
          split
          · exact reports_other fun inv h => nomatch h
          · exact reports_call fun _ => reports_call fun _ => reports_call fun _ =>
              reports_other fun inv h => nomatch h
  | tick d => exact reports_call fun _ => reports_other fun inv h => nomatch h

end Reports

/-- **At most one claim.** Whatever the interleaving. -/
theorem claimed_once (s : InviteStore) (calls : List (InviteCall J)) (schedule : List Nat) :
    ClaimedOnce ((invitesStart s calls).run schedule) := by
  have hlog : ClaimLog ((invitesStart s calls).run schedule).world :=
    Config.run_world (P := ClaimLog) (c := invitesStart s calls)
      (fun w i q h => claimLog_exec h i q) (claimLog_start s) schedule
  -- what a call reports is in the log
  have hreport : ∀ i inv, ((invitesStart s calls).run schedule).Answered i
      (.claimed (some ⟨.ok, some inv⟩)) → ∃ now userId n,
        did i (.claim inv.id now userId) (some (n + 1)) ∈
          ((invitesStart s calls).run schedule).world.log := by
    intro i inv hanswered
    have hlt : i < (invitesStart s calls).tasks.length := by
      have hlt := (List.getElem?_eq_some_iff.mp hanswered).1
      rwa [Config.run_length] at hlt
    obtain ⟨call, hcall⟩ : ∃ call : InviteCall J,
        (invitesStart s calls).tasks[i]? = some call.prog := by
      have hsome := List.getElem?_eq_getElem hlt
      obtain ⟨call, -, hcall⟩ := List.mem_map.mp (List.getElem_mem hlt)
      exact ⟨call, hsome.trans (congrArg some hcall.symm)⟩
    obtain ⟨p, hp, halways⟩ := Config.run_always hcall (reports_prog call) schedule
    obtain rfl := Option.some.inj (hanswered.symm.trans hp)
    obtain ⟨id, now, userId, n, hclaim, hid⟩ := halways.now inv rfl
    have hmem := (World.mem_own.mp hclaim).1
    rcases hid with rfl | hread
    · exact ⟨now, userId, n, hmem⟩
    · rw [hlog.read i id inv (World.mem_own.mp hread).1]
      exact ⟨now, userId, n, hmem⟩
  intro i j inv inv' hi hj hid
  obtain ⟨now, userId, n, hmem⟩ := hreport i inv hi
  obtain ⟨now', userId', n', hmem'⟩ := hreport j inv' hj
  rw [← hid] at hmem'
  exact hlog.once i j inv.id now now' userId userId' n n' hmem hmem'

/-! ## The lifecycle -/

theorem settled_run {α : Type} {c : Config InviteStore (InviteStmt.Answer (J := J)) α}
    {schedule : List Nat} (hmeets : c.Meets (Config.Next FindsPending) schedule) :
    Settled c.world.db (c.run schedule).world.db := by
  refine Config.run_induction (P := fun c' => Settled c.world.db c'.world.db)
    (fun c' i h hok => ?_) (Settled.refl _) hmeets
  rcases c'.step_cases i with heq | ⟨q, k, htask, heq⟩
  · rw [heq]
    exact h
  · rw [heq]
    exact h.trans (settled_exec (hok.ok htask))

theorem exclusive_run {α : Type} {c : Config InviteStore (InviteStmt.Answer (J := J)) α}
    (hstart : Exclusive c.world.db) {schedule : List Nat}
    (hmeets : c.Meets (Config.Next FindsPending) schedule) :
    Exclusive (c.run schedule).world.db := by
  refine Config.run_induction (P := fun c' => Exclusive c'.world.db)
    (fun c' i h hok => ?_) hstart hmeets
  rcases c'.step_cases i with heq | ⟨q, k, htask, heq⟩
  · rw [heq]
    exact h
  · rw [heq]
    exact exclusive_exec h (hok.ok htask)

/-- **The lifecycle of an invite.** In every run at most one call claims an invite. In every run
whose updates find the invite pending, no invite is both claimed and revoked, and one that
is claimed, revoked or expired stays so. -/
theorem invite_lifecycle {s : InviteStore} (hstart : Exclusive s) (calls : List (InviteCall J))
    (earlier later : List Nat) :
    ClaimedOnce ((invitesStart s calls).run (earlier ++ later)) ∧
      ((invitesStart s calls).Meets (Config.Next FindsPending) (earlier ++ later) →
        Exclusive ((invitesStart s calls).run (earlier ++ later)).world.db ∧
          Settled ((invitesStart s calls).run earlier).world.db
            ((invitesStart s calls).run (earlier ++ later)).world.db) := by
  refine ⟨claimed_once s calls _, fun hmeets => ⟨exclusive_run hstart hmeets, ?_⟩⟩
  rw [Config.run_append]
  exact settled_run (Config.meets_append.mp hmeets).2

/-! ### A claim and a revocation

Two users; the one invite of `bob@acme` is claimed, and then revoked. -/

/-- Bearers that are the `jti` of their invite and never expire. -/
def sampleJwt : Jwt where
  Token := String
  decode token _ := .ok token
  decodeLoose token _ := .ok token
  decode_later _ _ _ _ _ h := .inl h

/-- The pending invite. -/
def sampleInvite : Invite :=
  ⟨1, "j1", "bob@acme", .user, some "acme/eng", 1, 0, 100, none, none, none⟩

/-- The admin who has issued it. -/
def sampleAdmin : Account := ⟨1, "alice", "hash", "enterprise_admin", 0, "acme", "eng"⟩

/-- One user and one invite. -/
def sampleStore : InviteStore where
  clock := 50
  invites := .single sampleInvite
  lastInvite := 1
  users := .single sampleAdmin
  lastUser := 1
  personas := .empty
  invite_le := by
    intro inv hinv
    obtain rfl := List.mem_singleton.mp hinv
    decide
  user_le := by
    intro u hu
    obtain rfl := List.mem_singleton.mp hu
    decide
  jti_unique := by
    intro inv hinv inv' hinv' _
    rw [List.mem_singleton.mp hinv, List.mem_singleton.mp hinv']
  user_unique := by
    intro u hu u' hu' _
    rw [List.mem_singleton.mp hu, List.mem_singleton.mp hu']
  claimer := by
    intro inv hinv id hid
    obtain rfl := List.mem_singleton.mp hinv
    cases hid
  persona_user := fun _ hp => absurd hp (Table.not_mem_empty _)

theorem sampleStore_exclusive : Exclusive sampleStore := by
  intro inv hinv
  obtain rfl := List.mem_singleton.mp hinv
  exact .inl rfl

/-- A claim by user 1, and a revocation. -/
def claimAndRevoke : List (InviteCall sampleJwt) := [.claim "j1" 1, .revoke 1]

/-- The invite as it is claimed. -/
def claimedInvite : Invite := { sampleInvite with claimedAt := some 50, claimedBy := some 1 }

/-- The claim by itself keeps the lifecycle. -/
theorem invite_lifecycle_sample :
    ClaimedOnce ((invitesStart sampleStore claimAndRevoke).run ([] ++ [0, 0, 0, 0, 0, 0])) ∧
      Exclusive ((invitesStart sampleStore claimAndRevoke).run
        ([] ++ [0, 0, 0, 0, 0, 0])).world.db ∧
      Settled sampleStore ((invitesStart sampleStore claimAndRevoke).run
        ([] ++ [0, 0, 0, 0, 0, 0])).world.db := by
  have hmeets : (invitesStart sampleStore claimAndRevoke).Meets (Config.Next FindsPending)
      ([] ++ [0, 0, 0, 0, 0, 0]) := by
    decide +kernel
  have h := invite_lifecycle sampleStore_exclusive claimAndRevoke [] [0, 0, 0, 0, 0, 0]
  exact ⟨h.1, h.2 hmeets⟩

/-- The claim has reported success, and the revocation makes the invite both. -/
theorem claimed_then_revoked :
    ((invitesStart sampleStore claimAndRevoke).run [0, 0, 0, 0, 0, 0, 1, 1, 1, 1]).Answered 0
        (.claimed (some ⟨.ok, some claimedInvite⟩)) ∧
      ¬ Exclusive ((invitesStart sampleStore claimAndRevoke).run
        [0, 0, 0, 0, 0, 0, 1, 1, 1, 1]).world.db := by
  refine ⟨Config.answered_iff_result.mpr (by decide +kernel), fun hexclusive => ?_⟩
  have hfind : ((invitesStart sampleStore claimAndRevoke).run
      [0, 0, 0, 0, 0, 0, 1, 1, 1, 1]).world.db.invites.find 1 =
        some { claimedInvite with revokedAt := some 50 } := by
    decide +kernel
  rcases hexclusive _ (Table.find_eq_some_iff.mp hfind).1 with hclaimed | hrevoked
  · cases hclaimed
  · cases hrevoked

end EighthLayer.Invites
