import EighthLayer.Personas.Routes

/-!
# EighthLayer.Personas.LastAdmin

Whether an admin always remains.

Only the disable route guards the last admin, and it counts before it updates. So an admin
remains exactly where every update that takes the persona `admin` from someone finds a
second one (`admin_remains_iff`), as the update of a disable does when there are still as
many as its route has counted (`admin_remains_of_current`).
-/

namespace EighthLayer.Personas

open Lib

/-! ## One statement -/

/-- The user is an active admin. -/
def PersonaStore.IsActiveAdmin (s : PersonaStore) (username : String) : Prop :=
  ∃ a ∈ s.assignments.find username, a.activeAdmin = true

instance (s : PersonaStore) (username : String) : Decidable (s.IsActiveAdmin username) :=
  inferInstanceAs (Decidable (∃ a ∈ s.assignments.find username, _))

/-- A statement that takes the persona `admin` from an active admin finds another one. -/
def SparesAdmin (_i : Nat) : PersonaStmt → PersonaStore → Prop
  | .upsert username persona _ _ _ _, s =>
      persona ≠ .admin → s.IsActiveAdmin username → 1 < s.countActiveAdmins
  | .disable username _ _ _, s => s.IsActiveAdmin username → 1 < s.countActiveAdmins
  | _, _ => True

instance (i : Nat) (q : PersonaStmt) (s : PersonaStore) : Decidable (SparesAdmin i q s) :=
  match q with
  | .upsert _ _ _ _ _ _ => inferInstanceAs (Decidable (_ → _ → _))
  | .disable _ _ _ _ => inferInstanceAs (Decidable (_ → _))
  | .tick _ | .readClock | .getUser _ | .getAssignment _ | .countActiveAdmins
  | .countInvitesByAdmin _ _ | .createUser _ _ | .setUserEmail _ _ => inferInstanceAs (Decidable True)

/-- Whoever is no active admin, or is not the only one, leaves one behind. -/
theorem spares_iff {s : PersonaStore} (hpos : 0 < s.countActiveAdmins) (username : String) :
    (s.IsActiveAdmin username → 1 < s.countActiveAdmins) ↔
      ∃ a ∈ s.assignments, a.activeAdmin = true ∧ a.username ≠ username := by
  constructor
  · intro hguard
    by_cases hactive : s.IsActiveAdmin username
    · have hmore := hguard hactive
      obtain ⟨a, hfind, hadmin⟩ := hactive
      obtain ⟨hmem, hname⟩ := Table.find_eq_some_iff.mp hfind
      obtain ⟨a', hmem', hadmin', hne⟩ := (Table.one_lt_countP_iff hmem hadmin).mp hmore
      exact ⟨a', hmem', hadmin', fun heq => hne (heq.trans hname.symm)⟩
    · obtain ⟨a, hmem, hadmin⟩ := Table.countP_pos_iff.mp hpos
      refine ⟨a, hmem, hadmin, fun hname => hactive ⟨a, ?_, hadmin⟩⟩
      exact Table.find_eq_some_iff.mpr ⟨hmem, hname⟩
  · rintro ⟨a', hmem', hadmin', hne⟩ ⟨a, hfind, hadmin⟩
    obtain ⟨hmem, hname⟩ := Table.find_eq_some_iff.mp hfind
    refine (Table.one_lt_countP_iff hmem hadmin).mpr ⟨a', hmem', hadmin', ?_⟩
    exact fun heq => hne (heq.trans hname)

theorem upsert_count_pos_iff {s s' : PersonaStore} {username assignedBy : String}
    {persona : Persona} {assignedAt : Int} {action : AuditAction} {oldPersona : Option Persona}
    (hpos : 0 < s.countActiveAdmins)
    (h : s.upsert username persona assignedAt assignedBy action oldPersona = some s') :
    0 < s'.countActiveAdmins ↔
      (persona ≠ .admin → s.IsActiveAdmin username → 1 < s.countActiveAdmins) := by
  unfold PersonaStore.upsert at h
  split at h
  · cases h
  · cases h
    unfold PersonaStore.countActiveAdmins
    rw [Table.countP_pos_iff]
    by_cases hadmin : persona = .admin
    · refine iff_of_true ⟨_, Table.mem_upsert.mpr (.inl rfl), ?_⟩ fun hne => absurd hadmin hne
      exact Assignment.activeAdmin_iff.mpr ⟨hadmin, rfl⟩
    · -- the new row is no admin's, so it must be another's
      refine Iff.trans ?_ ((spares_iff hpos username).symm.trans
        ⟨fun hguard _ => hguard, fun hguard => hguard hadmin⟩)
      constructor
      · rintro ⟨a, ha, hactive⟩
        rcases Table.mem_upsert.mp ha with rfl | ⟨ha, hne⟩
        · exact absurd (Assignment.activeAdmin_iff.mp hactive).1 hadmin
        · exact ⟨a, ha, hactive, hne⟩
      · rintro ⟨a, ha, hactive, hne⟩
        exact ⟨a, Table.mem_upsert.mpr (.inr ⟨ha, hne⟩), hactive⟩

theorem disable_count_pos_iff {s : PersonaStore} (hpos : 0 < s.countActiveAdmins)
    (username : String) (disabledAt : Int) (changedBy : String) (oldPersona : Option Persona) :
    0 < (s.disable username disabledAt changedBy oldPersona).countActiveAdmins ↔
      (s.IsActiveAdmin username → 1 < s.countActiveAdmins) := by
  rw [spares_iff hpos]
  unfold PersonaStore.countActiveAdmins
  rw [Table.countP_pos_iff]
  constructor
  · rintro ⟨a, ha, hactive⟩
    obtain ⟨r, hr, rfl⟩ := PersonaStore.mem_disable.mp ha
    split at hactive
    · cases (Assignment.activeAdmin_iff.mp hactive).2
    · rename_i hne
      exact ⟨r, hr, hactive, hne⟩
  · rintro ⟨a, ha, hactive, hne⟩
    exact ⟨a, PersonaStore.mem_disable.mpr ⟨a, ha, if_neg hne⟩, hactive⟩

/-- **The step lemma.** A statement leaves an active admin exactly if it spares one. -/
theorem exec_count_pos_iff {s : PersonaStore} (hpos : 0 < s.countActiveAdmins) (i : Nat)
    (q : PersonaStmt) : 0 < (q.exec s).2.countActiveAdmins ↔ SparesAdmin i q s := by
  cases q with
  | upsert username persona assignedAt assignedBy action oldPersona =>
      cases h : s.upsert username persona assignedAt assignedBy action oldPersona with
      | none =>
          -- nobody without a user is an admin
          have hnone : s.users.find username = none := by
            unfold PersonaStore.upsert at h
            split at h
            · assumption
            · cases h
          simp only [PersonaStmt.exec, h, hpos, true_iff]
          rintro - ⟨a, hfind, -⟩
          obtain ⟨hmem, hname⟩ := Table.find_eq_some_iff.mp hfind
          exact absurd (hname ▸ hnone) (s.assigned_user a hmem)
      | some s' =>
          simp only [PersonaStmt.exec, h]
          exact upsert_count_pos_iff hpos h
  | disable username disabledAt changedBy oldPersona =>
      exact disable_count_pos_iff hpos username disabledAt changedBy oldPersona
  | createUser username passwordHash =>
      refine iff_of_true ?_ trivial
      unfold PersonaStmt.exec
      dsimp only
      split
      · exact hpos
      · rename_i s' hs
        unfold PersonaStore.createUser at hs
        split at hs
        · cases hs
        · cases hs
          exact hpos
  | tick _ | readClock | getUser _ | getAssignment _ | countActiveAdmins
  | countInvitesByAdmin _ _ | setUserEmail _ _ => exact iff_of_true hpos trivial

/-! ## The guard of a disable -/

/-- A request that is about to disable has not counted fewer than two active admins. -/
def CountedTwo (i : Nat) (past : List (Event PersonaStmt.Answer))
    (p : PersonaProg PersonaAnswer) : Prop :=
  ∀ username disabledAt changedBy oldPersona k,
    p = .call (.disable username disabledAt changedBy oldPersona) k →
      ∀ n, did i .countActiveAdmins n ∈ past → 1 < n

section Guard

variable {i : Nat} {past : List (Event PersonaStmt.Answer)}

theorem counted_done {a : PersonaAnswer} :
    (Prog.done a : PersonaProg PersonaAnswer).Always (CountedTwo i) i past :=
  .done fun _ _ _ _ _ h => nomatch h

theorem counted_call {q : PersonaStmt} {k : q.Answer → PersonaProg PersonaAnswer}
    (hq : ∀ username disabledAt changedBy oldPersona,
      q ≠ .disable username disabledAt changedBy oldPersona)
    (hrest : ∀ a, (k a).Always (CountedTwo i) i (did i q a :: past)) :
    (Prog.call q k).Always (CountedTwo i) i past := by
  refine .call (fun username disabledAt changedBy oldPersona k' h => ?_) hrest
  injection h with h
  exact absurd h (hq username disabledAt changedBy oldPersona)

theorem counted_requireAdmin {admin : String} {route : PersonaProg PersonaAnswer}
    (hroute : ∀ past, (∀ n, did i .countActiveAdmins n ∉ past) →
      route.Always (CountedTwo i) i past)
    (hpast : ∀ n, did i .countActiveAdmins n ∉ past) :
    (requireAdmin admin route).Always (CountedTwo i) i past := by
  refine counted_call (fun _ _ _ _ h => nomatch h) fun (user : Option User) => ?_
  cases user with
  | none => exact counted_done
  | some u =>
      dsimp only
      split
      · refine hroute _ fun n hmem => ?_
        cases hmem with
        | tail _ hmem => exact hpast n hmem
      · exact counted_done

theorem counted_assignNow {username admin : String} {persona : Persona} {action : AuditAction}
    {oldPersona : Option Persona} {f : Option Int → PersonaProg PersonaAnswer}
    (hf : ∀ assigned past, (f assigned).Always (CountedTwo i) i past) :
    ((assignNow username persona admin action oldPersona).bind f).Always (CountedTwo i) i past := by
  refine counted_call (fun _ _ _ _ h => nomatch h) fun (now : Int) => ?_
  refine counted_call (fun _ _ _ _ h => nomatch h) fun (assigned : Bool) => ?_
  cases assigned with
  | false => exact hf none _
  | true =>
      exact counted_call (fun _ _ _ _ h => nomatch h) fun (_ : Option Assignment) => hf _ _

theorem counted_createPersona (sends : String → Bool) (admin email username : String)
    (persona : Persona) (stubHash : String) :
    (createPersona sends admin email username persona stubHash).Always (CountedTwo i) i past := by
  refine counted_call (fun _ _ _ _ h => by cases h) fun (existing : Option Assignment) => ?_
  cases existing with
  | some a => exact counted_done
  | none =>
      refine counted_call (fun _ _ _ _ h => by cases h) fun (now : Int) => ?_
      refine counted_call (fun _ _ _ _ h => by cases h) fun (recent : Nat) => ?_
      have hassign : ∀ (f : Option Int → PersonaProg PersonaAnswer) (past : List (Event PersonaStmt.Answer)),
          f none = .done .internalError →
          (∀ assignedAt, ∃ answer : Option User → PersonaAnswer, f (some assignedAt) =
            .call (.getUser admin) fun (issuer : Option User) => .done (answer issuer)) →
          ((assignNow username persona admin .created none).bind f).Always (CountedTwo i) i past := by
        intro f past hnone hsome
        refine counted_assignNow fun assigned past => ?_
        cases assigned with
        | none =>
            rw [hnone]
            exact counted_done
        | some assignedAt =>
            obtain ⟨answer, hanswer⟩ := hsome assignedAt
            rw [hanswer]
            exact counted_call (fun _ _ _ _ h => by cases h) fun (_ : Option User) => counted_done
      split
      · exact counted_done
      · refine counted_call (fun _ _ _ _ h => by cases h) fun (user : Option User) => ?_
        cases user with
        | some u => exact hassign _ _ rfl fun _ => ⟨_, rfl⟩
        | none =>
            refine counted_call (fun _ _ _ _ h => by cases h) fun (created : Bool) => ?_
            cases created with
            | false => exact counted_done
            | true =>
                exact counted_call (fun _ _ _ _ h => by cases h) fun (_ : Unit) => hassign _ _ rfl fun _ => ⟨_, rfl⟩

theorem counted_patchPersona (admin username : String) (persona : Persona) :
    (patchPersona admin username persona).Always (CountedTwo i) i past := by
  refine counted_call (fun _ _ _ _ h => nomatch h) fun (existing : Option Assignment) => ?_
  cases existing with
  | none => exact counted_done
  | some a =>
      dsimp only
      split
      · exact counted_done
      · refine counted_assignNow fun assigned past => ?_
        cases assigned with
        | none => exact counted_done
        | some assignedAt => exact counted_done

/-- Past its guard, a disable has not counted, or it has counted two. -/
theorem counted_disableNow {admin username : String} {oldPersona : Persona}
    (hpast : ∀ n, did i .countActiveAdmins n ∈ past → 1 < n) :
    (disableNow admin username oldPersona).Always (CountedTwo i) i past := by
  refine counted_call (fun _ _ _ _ h => nomatch h) fun (now : Int) => ?_
  refine .call (fun _ _ _ _ _ _ n hmem => ?_) fun (_ : Unit) => ?_
  · cases hmem with
    | tail _ hmem => exact hpast n hmem
  · exact counted_call (fun _ _ _ _ h => nomatch h) fun (_ : Option Assignment) => counted_done

theorem counted_disablePersona (admin username : String)
    (hpast : ∀ n, did i .countActiveAdmins n ∉ past) :
    (disablePersona admin username).Always (CountedTwo i) i past := by
  refine counted_call (fun _ _ _ _ h => nomatch h) fun (existing : Option Assignment) => ?_
  cases existing with
  | none => exact counted_done
  | some a =>
      have hpast' : ∀ n, did i .countActiveAdmins n ∉
          did i (.getAssignment username) (some a) :: past := by
        intro n hmem
        cases hmem with
        | tail _ hmem => exact hpast n hmem
      dsimp only
      split
      · exact counted_done
      · split
        · refine counted_call (fun _ _ _ _ h => nomatch h) fun (activeAdmins : Nat) => ?_
          split
          · exact counted_done
          · rename_i hmore
            refine counted_disableNow fun n hmem => ?_
            cases hmem with
            | head => exact Nat.not_le.mp hmore
            | tail _ hmem => exact absurd hmem (hpast' n)
        · exact counted_disableNow fun n hmem => absurd hmem (hpast' n)

theorem counted_prog (sends : String → Bool) (call : PersonaCall) :
    (call.prog sends).Always (CountedTwo i) i [] := by
  have hnil : ∀ n, did i .countActiveAdmins n ∉ ([] : List (Event PersonaStmt.Answer)) :=
    fun n => List.not_mem_nil
  cases call with
  | create admin email username persona stubHash =>
      exact counted_requireAdmin
        (fun _ _ => counted_createPersona sends admin email username persona stubHash) hnil
  | patch admin username persona =>
      exact counted_requireAdmin (fun _ _ => counted_patchPersona admin username persona) hnil
  | disable admin username =>
      exact counted_requireAdmin (fun _ hpast => counted_disablePersona admin username hpast) hnil
  | tick d => exact counted_call (fun _ _ _ _ h => nomatch h) fun (_ : Unit) => counted_done

end Guard

/-- The number of active admins that a statement has been answered. -/
def countedAdmins : Event PersonaStmt.Answer → Option Nat
  | ⟨_, .countActiveAdmins, n⟩ => some n
  | _ => none

theorem eq_did_of_countedAdmins {e : Event PersonaStmt.Answer} {n : Nat}
    (h : countedAdmins e = some n) : e = did e.task .countActiveAdmins n := by
  obtain ⟨i, q, a⟩ := e
  cases q with
  | countActiveAdmins =>
      cases h
      rfl
  | _ => cases h

/-- The update of a disable that takes an active admin away finds no fewer active admins than
its route has counted; a reassignment that does, finds a second one. -/
def GuardCurrent (i : Nat) : PersonaStmt → PersonaWorld → Prop
  | .upsert username persona _ _ _ _, w =>
      persona ≠ .admin → w.db.IsActiveAdmin username → 1 < w.db.countActiveAdmins
  | .disable username _ _ _, w => w.db.IsActiveAdmin username →
      ∃ e ∈ w.log, e.task = i ∧ ∃ n ∈ countedAdmins e, n ≤ w.db.countActiveAdmins
  | _, _ => True

instance (i : Nat) (q : PersonaStmt) (w : PersonaWorld) : Decidable (GuardCurrent i q w) :=
  match q with
  | .upsert _ _ _ _ _ _ => inferInstanceAs (Decidable (_ → _ → _))
  | .disable _ _ _ _ =>
      have : Decidable (∃ e ∈ w.log, e.task = i ∧
          ∃ n ∈ countedAdmins e, n ≤ w.db.countActiveAdmins) :=
        inferInstanceAs (Decidable (∃ e ∈ w.log, _))
      inferInstanceAs (Decidable (_ → _))
  | .tick _ | .readClock | .getUser _ | .getAssignment _ | .countActiveAdmins
  | .countInvitesByAdmin _ _ | .createUser _ _ | .setUserEmail _ _ => inferInstanceAs (Decidable True)

/-- A guard that still holds spares an admin. -/
theorem spares_of_current {c : Config PersonaStore PersonaStmt.Answer PersonaAnswer} {i : Nat}
    {q : PersonaStmt} {k : q.Answer → PersonaProg PersonaAnswer}
    (hcounted : CountedTwo i (c.world.own i) (.call q k)) (hcurrent : GuardCurrent i q c.world) :
    SparesAdmin i q c.world.db := by
  cases q with
  | disable username disabledAt changedBy oldPersona =>
      intro hactive
      obtain ⟨e, hmem, htask, n, hn, hle⟩ := hcurrent hactive
      obtain rfl := htask
      have hown : did e.task .countActiveAdmins n ∈ c.world.own e.task :=
        eq_did_of_countedAdmins hn ▸ World.mem_own.mpr ⟨hmem, rfl⟩
      have htwo := hcounted _ _ _ _ k rfl n hown
      exact Nat.lt_of_lt_of_le htwo hle
  | _ => exact hcurrent

/-! ## Runs -/

theorem admin_remains_iff (sends : String → Bool) {s : PersonaStore}
    (hpos : 0 < s.countActiveAdmins) (calls : List PersonaCall) (schedule : List Nat) :
    (∀ n, 0 < ((personasStart sends s calls).run
        (schedule.take n)).world.db.countActiveAdmins) ↔
      (personasStart sends s calls).Meets (Config.Next SparesAdmin) schedule :=
  Config.meets_iff_take (P := fun s : PersonaStore => 0 < s.countActiveAdmins)
    (fun i q _ h => exec_count_pos_iff h i q) hpos

theorem admin_remains_of_current (sends : String → Bool) {s : PersonaStore}
    (hpos : 0 < s.countActiveAdmins) (calls : List PersonaCall) {schedule : List Nat}
    (hmeets : (personasStart sends s calls).Meets (Config.NextIn GuardCurrent) schedule) :
    0 < ((personasStart sends s calls).run schedule).world.db.countActiveAdmins := by
  refine Config.run_guarded (P := fun w : PersonaWorld => 0 < w.db.countActiveAdmins)
    (T := CountedTwo) (fun c i q k hcount htask hcounted hok => ?_) hpos
    (fun i p hp => ?_) hmeets
  · have hspares := spares_of_current hcounted (hok.ok htask)
    exact (exec_count_pos_iff hcount i q).mpr hspares
  · obtain ⟨call, -, rfl⟩ := List.mem_map.mp (List.mem_of_getElem? hp)
    exact counted_prog sends call

/-- **An admin remains.** From a store with an active admin there is one all along a run exactly
if every statement that takes the persona `admin` from an active admin finds another; and a
disable finds another where there are still as many as its route has counted. -/
theorem admin_remains (sends : String → Bool) {s : PersonaStore}
    (hpos : 0 < s.countActiveAdmins) (calls : List PersonaCall) (schedule : List Nat) :
    ((∀ n, 0 < ((personasStart sends s calls).run
        (schedule.take n)).world.db.countActiveAdmins) ↔
      (personasStart sends s calls).Meets (Config.Next SparesAdmin) schedule) ∧
    ((personasStart sends s calls).Meets (Config.NextIn GuardCurrent) schedule →
      0 < ((personasStart sends s calls).run schedule).world.db.countActiveAdmins) :=
  ⟨admin_remains_iff sends hpos calls schedule, admin_remains_of_current sends hpos calls⟩

/-! ### Two admins

Alice and Bob are admins. -/

/-- An L2 with the admins Alice and Bob. -/
def sampleStore : PersonaStore where
  clock := 50
  users := ⟨[⟨"alice", "hash", "enterprise_admin", none⟩, ⟨"bob", "hash", "l2_admin", none⟩],
    by decide⟩
  assignments := ⟨[⟨"alice", .admin, 10, "founder", none⟩, ⟨"bob", .admin, 20, "alice", none⟩],
    by decide⟩
  audit := []
  assigned_user := by
    intro a ha
    rcases List.mem_cons.mp ha with rfl | ha
    · decide
    · obtain rfl := List.mem_singleton.mp ha
      decide

/-- Invites are sent. -/
def sampleSends (_ : String) : Bool := true

/-- Alice disables Bob, and remains. -/
theorem admin_remains_sample :
    (∀ n, 0 < ((personasStart sampleSends sampleStore [.disable "alice" "bob"]).run
        ([0, 0, 0, 0, 0, 0].take n)).world.db.countActiveAdmins) ∧
      0 < ((personasStart sampleSends sampleStore [.disable "alice" "bob"]).run
        [0, 0, 0, 0, 0, 0]).world.db.countActiveAdmins := by
  have h := admin_remains sampleSends (s := sampleStore) (by decide) [.disable "alice" "bob"]
    [0, 0, 0, 0, 0, 0]
  exact ⟨h.1.mpr (by decide +kernel), h.2 (by decide +kernel)⟩

/-- Alice disables Bob and then makes herself a viewer; or the two disable each other, both
having counted two. Nobody is left. -/
theorem no_admin_remains :
    ((personasStart sampleSends sampleStore
        [.disable "alice" "bob", .patch "alice" "alice" .viewer]).run
      [0, 0, 0, 0, 0, 0, 1, 1, 1, 1, 1]).world.db.countActiveAdmins = 0 ∧
    ((personasStart sampleSends sampleStore
        [.disable "alice" "bob", .disable "bob" "alice"]).run
      [0, 0, 0, 1, 1, 1, 0, 0, 0, 1, 1, 1]).world.db.countActiveAdmins = 0 := by
  decide +kernel

end EighthLayer.Personas
