import EighthLayer.Personas.Routes
import Mathlib.Data.List.Chain

/-!
# EighthLayer.Personas.AuditTrail

Whether the audit trail of an assignment tells its history.

A route reads the persona that it replaces, and writes it to the trail by a later statement. So the
rows form a chain exactly where every write still finds what it says that it replaces, as it does
where the assignment is as its own route has read it (`audit_chain`). Then a PATCH does not enable an
assignment that has been disabled either.
-/

namespace EighthLayer.Personas

open Lib

/-! ## The trail of a user -/

/-- The persona of a user; nobody has one who is disabled. -/
def PersonaStore.livePersona (s : PersonaStore) (username : String) : Option Persona :=
  (s.assignments.find username).bind fun a => if a.disabledAt = none then some a.persona else none

/-- The rows about a user, in order. -/
def PersonaStore.trail (s : PersonaStore) (username : String) : List AuditRow :=
  s.audit.filter fun r => r.username = username

/-- What a row replaces is what the one before it has put there. -/
def Follows (r r' : AuditRow) : Prop := r'.oldPersona = r.newPersona

/-- The rows about a user form a chain, and the last of them is about the present persona. -/
def Chained (username : String) (s : PersonaStore) : Prop :=
  (s.trail username).IsChain Follows ∧
    ∀ r ∈ (s.trail username).getLast?, r.newPersona = s.livePersona username

/-- An assignment is there, and is disabled. -/
def PersonaStore.IsDisabled (s : PersonaStore) (username : String) : Prop :=
  ∃ a ∈ s.assignments.find username, a.disabledAt ≠ none

/-- A chain with one row more. -/
theorem chained_append_iff {rows : List AuditRow} {live : Option Persona} {row : AuditRow}
    (hchain : rows.IsChain Follows) (hlast : ∀ r ∈ rows.getLast?, r.newPersona = live) :
    (rows ++ [row]).IsChain Follows ↔ (rows ≠ [] → row.oldPersona = live) := by
  rw [List.isChain_append]
  constructor
  · rintro ⟨-, -, hfollows⟩ hne
    obtain ⟨r, hr⟩ := Option.ne_none_iff_exists'.mp (mt List.getLast?_eq_none_iff.mp hne)
    exact (hfollows r hr row rfl).trans (hlast r hr)
  · intro hold
    refine ⟨hchain, List.isChain_singleton _, fun r hr row' hrow' => ?_⟩
    obtain rfl : row = row' := Option.some.inj hrow'
    have hne : rows ≠ [] := fun hnil => by
      rw [hnil] at hr
      cases hr
    exact (hold hne).trans (hlast r hr).symm

/-! ## One statement -/

/-- A write about the user says that it replaces the present persona, if it is not the first one
in the trail. -/
def Linked (username : String) (_i : Nat) : PersonaStmt → PersonaStore → Prop
  | .upsert username' _ _ _ _ oldPersona, s => username' = username →
      s.users.find username ≠ none → s.trail username ≠ [] → oldPersona = s.livePersona username
  | .disable username' _ _ oldPersona, s => username' = username →
      s.trail username ≠ [] → oldPersona = s.livePersona username
  | _, _ => True

instance (username : String) (i : Nat) (q : PersonaStmt) (s : PersonaStore) :
    Decidable (Linked username i q s) := by
  cases q with
  | upsert username' _ _ _ _ oldPersona => exact inferInstanceAs (Decidable (_ → _ → _ → _))
  | disable username' _ _ oldPersona => exact inferInstanceAs (Decidable (_ → _ → _))
  | _ => exact inferInstanceAs (Decidable True)

/-- A PATCH does not find the user disabled. -/
def KeepsDisabled (username : String) (_i : Nat) : PersonaStmt → PersonaStore → Prop
  | .upsert username' _ _ _ .changed _, s => username' = username → ¬ s.IsDisabled username
  | _, _ => True

/-- A write, with its row of the trail, keeps the chain exactly if the row follows. -/
theorem chained_write_iff {s s' : PersonaStore} {username : String} {row : AuditRow}
    (hchained : Chained username s) (haudit : s'.audit = s.audit ++ [row])
    (hself : row.username = username → s'.livePersona username = row.newPersona)
    (hother : row.username ≠ username → s'.livePersona username = s.livePersona username) :
    Chained username s' ↔ (row.username = username → s.trail username ≠ [] →
      row.oldPersona = s.livePersona username) := by
  have htrail : s'.trail username =
      s.trail username ++ (if row.username = username then [row] else []) := by
    unfold PersonaStore.trail
    rw [haudit, List.filter_append, List.filter_singleton]
    simp
  unfold Chained
  rw [htrail]
  by_cases hname : row.username = username
  · rw [if_pos hname, chained_append_iff hchained.1 hchained.2, hself hname, List.getLast?_concat]
    constructor
    · exact fun h _ => h.1
    · intro h
      refine ⟨h hname, fun r hr => ?_⟩
      rw [Option.some.inj hr]
  · rw [if_neg hname, List.append_nil, hother hname]
    exact iff_of_true hchained fun h => absurd h hname

theorem find_upsert_of_ne {s : PersonaStore} {a : Assignment} {username : String}
    (hne : a.username ≠ username) :
    (s.assignments.upsert a).find username = s.assignments.find username := by
  apply Option.ext
  intro x
  rw [Table.find_eq_some_iff, Table.find_eq_some_iff, Table.mem_upsert]
  constructor
  · rintro ⟨rfl | ⟨hx, -⟩, hname⟩
    · exact absurd hname hne
    · exact ⟨hx, hname⟩
  · rintro ⟨hx, hname⟩
    exact ⟨.inr ⟨hx, fun heq => hne (heq.symm.trans hname)⟩, hname⟩

theorem upsert_eq {s s' : PersonaStore} {username assignedBy : String} {persona : Persona}
    {assignedAt : Int} {action : AuditAction} {oldPersona : Option Persona}
    (h : s.upsert username persona assignedAt assignedBy action oldPersona = some s') :
    s.users.find username ≠ none ∧
      s'.assignments = s.assignments.upsert ⟨username, persona, assignedAt, assignedBy, none⟩ ∧
      s'.audit = s.audit ++ [⟨username, oldPersona, some persona, assignedBy, s.clock, action⟩] := by
  unfold PersonaStore.upsert at h
  split at h
  · cases h
  · rename_i huser
    cases h
    exact ⟨huser, rfl, rfl⟩

theorem upsert_chained_iff {s s' : PersonaStore} {username username' assignedBy : String}
    {persona : Persona} {assignedAt : Int} {action : AuditAction} {oldPersona : Option Persona}
    (hchained : Chained username s)
    (h : s.upsert username' persona assignedAt assignedBy action oldPersona = some s') :
    Chained username s' ↔
      (username' = username → s.trail username ≠ [] → oldPersona = s.livePersona username) := by
  obtain ⟨-, hassignments, haudit⟩ := upsert_eq h
  refine chained_write_iff hchained haudit (fun hname => ?_) fun hname => ?_
  · obtain rfl := hname
    have hfind := Table.find_upsert_self s.assignments
      ⟨username', persona, assignedAt, assignedBy, none⟩
    unfold PersonaStore.livePersona
    rw [hassignments, hfind]
    rfl
  · unfold PersonaStore.livePersona
    rw [hassignments, find_upsert_of_ne hname]

theorem disable_chained_iff {s : PersonaStore} {username username' changedBy : String}
    {disabledAt : Int} {oldPersona : Option Persona} (hchained : Chained username s) :
    Chained username (s.disable username' disabledAt changedBy oldPersona) ↔
      (username' = username → s.trail username ≠ [] → oldPersona = s.livePersona username) := by
  have hfind : (s.disable username' disabledAt changedBy oldPersona).assignments.find username =
      (s.assignments.find username).map fun a =>
        if a.username = username' then { a with disabledAt := some disabledAt } else a := by
    unfold PersonaStore.disable
    simp only [Table.find_update, decide_eq_true_eq]
  refine @chained_write_iff _ _ _ ⟨username', oldPersona, none, changedBy, s.clock, .disabled⟩
    hchained rfl (fun hname => ?_) fun hname => ?_
  · obtain rfl := hname
    unfold PersonaStore.livePersona
    rw [hfind]
    cases ha : s.assignments.find username' with
    | none => rfl
    | some a =>
        rw [Option.map_some, if_pos (Table.find_eq_some_iff.mp ha).2]
        rfl
  · unfold PersonaStore.livePersona
    rw [hfind]
    cases ha : s.assignments.find username with
    | none => rfl
    | some a =>
        rw [Option.map_some, if_neg fun heq =>
          hname (heq.symm.trans (Table.find_eq_some_iff.mp ha).2)]

/-- **The step lemma.** A statement keeps the chain of a user exactly if it is linked to it. -/
theorem exec_chained_iff {username : String} {s : PersonaStore} (hchained : Chained username s)
    (i : Nat) (q : PersonaStmt) :
    Chained username (q.exec s).2 ↔ Linked username i q s := by
  cases q with
  | upsert username' persona assignedAt assignedBy action oldPersona =>
      unfold Linked
      cases h : s.upsert username' persona assignedAt assignedBy action oldPersona with
      | none =>
          have hnone : s.users.find username' = none := by
            unfold PersonaStore.upsert at h
            split at h
            · assumption
            · cases h
          simp only [PersonaStmt.exec, h]
          exact iff_of_true hchained fun hname huser => absurd (hname ▸ hnone) huser
      | some s' =>
          have huser := (upsert_eq h).1
          simp only [PersonaStmt.exec, h]
          rw [upsert_chained_iff hchained h]
          exact ⟨fun hlink hname _ => hlink hname, fun hlink hname => hlink hname (hname ▸ huser)⟩
  | disable username' disabledAt changedBy oldPersona => exact disable_chained_iff hchained
  | createUser username' passwordHash =>
      refine iff_of_true ?_ trivial
      cases h : s.createUser username' passwordHash with
      | none => simpa only [PersonaStmt.exec, h] using hchained
      | some s' =>
          simp only [PersonaStmt.exec, h]
          unfold PersonaStore.createUser at h
          split at h
          · cases h
          · cases h
            exact hchained
  | tick _ | readClock | getUser _ | getAssignment _ | countActiveAdmins
  | countInvitesByAdmin _ _ | setUserEmail _ _ => exact iff_of_true hchained trivial

/-! ## What a request has read -/

/-- The user that a statement writes about, and the persona that it says it replaces. -/
def writeOf : PersonaStmt → Option (String × Option Persona)
  | .upsert username _ _ _ _ oldPersona => some (username, oldPersona)
  | .disable username _ _ oldPersona => some (username, oldPersona)
  | _ => none

/-- The assignment of a user that a statement has been answered. -/
def readOf (username : String) : Event PersonaStmt.Answer → Option (Option Assignment)
  | ⟨_, .getAssignment username', a⟩ => if username' = username then some a else none
  | _ => none

/-- What was read is not disabled, and its persona is what is said to be replaced. -/
def SaysRead (oldPersona : Option Persona) (a : Option Assignment) : Prop :=
  oldPersona = a.map Assignment.persona ∧ ∀ r ∈ a, r.disabledAt = none

/-- A request that is about to write says what it has read. -/
def Honest (i : Nat) (past : List (Event PersonaStmt.Answer)) (p : PersonaProg PersonaAnswer) :
    Prop :=
  ∀ q k, p = .call q k → ∀ username oldPersona, writeOf q = some (username, oldPersona) →
    ∀ e ∈ past, e.task = i → ∀ a, readOf username e = some a → SaysRead oldPersona a

/-- Two assignments have one persona, and are both disabled at one time or not. -/
def SameRow (a a' : Option Assignment) : Prop :=
  a.map (fun r => (r.persona, r.disabledAt)) = a'.map fun r => (r.persona, r.disabledAt)

instance (a a' : Option Assignment) : Decidable (SameRow a a') := inferInstanceAs (Decidable (_ = _))

/-- A write about the user finds the assignment as its own request has read it. -/
def AsRead (username : String) (i : Nat) (q : PersonaStmt) (w : PersonaWorld) : Prop :=
  (writeOf q).map Prod.fst = some username → ∃ e ∈ w.log, e.task = i ∧
    ∃ a ∈ readOf username e, SameRow a (w.db.assignments.find username)

instance (username : String) (i : Nat) (q : PersonaStmt) (w : PersonaWorld) :
    Decidable (AsRead username i q w) := inferInstanceAs (Decidable (_ → ∃ e ∈ w.log, _))

/-- **What the condition is for.** A write that finds what it has read is linked, and does not
enable an assignment that is disabled. -/
theorem linked_of_asRead {username : String} {i : Nat} {q : PersonaStmt} {w : PersonaWorld}
    {k : q.Answer → PersonaProg PersonaAnswer} (hhonest : Honest i (w.own i) (.call q k))
    (hread : AsRead username i q w) :
    Linked username i q w.db ∧ KeepsDisabled username i q w.db := by
  have hwrite : ∀ oldPersona, writeOf q = some (username, oldPersona) →
      oldPersona = w.db.livePersona username ∧ ¬ w.db.IsDisabled username := by
    intro oldPersona hq
    obtain ⟨e, he, htask, a, ha, hsame⟩ := hread (by rw [hq]; rfl)
    obtain ⟨hold, henabled⟩ := hhonest q k rfl username oldPersona hq e
      (World.mem_own.mpr ⟨he, htask⟩) htask a ha
    unfold PersonaStore.livePersona PersonaStore.IsDisabled
    unfold SameRow at hsame
    cases hfind : w.db.assignments.find username with
    | none =>
        rw [hfind] at hsame
        rw [hold, Option.map_eq_none_iff.mp hsame]
        refine ⟨rfl, ?_⟩
        rintro ⟨r, hr, -⟩
        cases hr
    | some r =>
        rw [hfind] at hsame
        obtain ⟨r', hr', heq⟩ := Option.map_eq_some_iff.mp hsame
        obtain ⟨hpersona, hdisabled⟩ := Prod.mk.inj heq
        have hnone : r.disabledAt = none := hdisabled.symm.trans (henabled r' hr')
        refine ⟨?_, ?_⟩
        · rw [hold, hr', Option.map_some, hpersona, Option.bind_some, if_pos hnone]
        · rintro ⟨x, hx, hne⟩
          exact hne (Option.some.inj hx ▸ hnone)
  cases q with
  | upsert username' persona assignedAt assignedBy action oldPersona =>
      refine ⟨fun hname _ _ => (hwrite oldPersona (by rw [← hname]; rfl)).1, ?_⟩
      cases action with
      | changed => exact fun hname => (hwrite oldPersona (by rw [← hname]; rfl)).2
      | created | disabled | enabled => trivial
  | disable username' disabledAt changedBy oldPersona =>
      exact ⟨fun hname _ => (hwrite oldPersona (by rw [← hname]; rfl)).1, trivial⟩
  | _ => exact ⟨trivial, trivial⟩

section Guard

variable {i : Nat} {past : List (Event PersonaStmt.Answer)}

theorem honest_done {a : PersonaAnswer} :
    (Prog.done a : PersonaProg PersonaAnswer).Always (Honest i) i past :=
  .done fun _ _ h => nomatch h

theorem honest_call {q : PersonaStmt} {k : q.Answer → PersonaProg PersonaAnswer}
    (hq : writeOf q = none) (hrest : ∀ a, (k a).Always (Honest i) i (did i q a :: past)) :
    (Prog.call q k).Always (Honest i) i past := by
  refine .call (fun q' k' h username oldPersona hwrite => ?_) hrest
  injection h with h
  rw [← h, hq] at hwrite
  cases hwrite

/-- All that has been read of a user says what is about to be replaced. -/
def ReadSays (username : String) (oldPersona : Option Persona)
    (past : List (Event PersonaStmt.Answer)) : Prop :=
  ∀ e ∈ past, ∀ a, readOf username e = some a → SaysRead oldPersona a

theorem readSays_cons {username : String} {oldPersona : Option Persona} {q : PersonaStmt}
    {a : q.Answer} (hq : readOf username (did i q a) = none)
    (h : ReadSays username oldPersona past) : ReadSays username oldPersona (did i q a :: past) := by
  intro e he a' ha'
  rcases List.mem_cons.mp he with rfl | he
  · rw [hq] at ha'
    cases ha'
  · exact h e he a' ha'

theorem honest_write {q : PersonaStmt} {k : q.Answer → PersonaProg PersonaAnswer}
    {username : String} {oldPersona : Option Persona} (hq : writeOf q = some (username, oldPersona))
    (hpast : ReadSays username oldPersona past)
    (hrest : ∀ a, (k a).Always (Honest i) i (did i q a :: past)) :
    (Prog.call q k).Always (Honest i) i past := by
  refine .call (fun q' k' h username' oldPersona' hwrite e he _ a ha => ?_) hrest
  injection h with h
  subst h
  obtain ⟨rfl, rfl⟩ := Prod.mk.inj (Option.some.inj (hq.symm.trans hwrite))
  exact hpast e he a ha

theorem honest_assignNow {username admin : String} {persona : Persona} {action : AuditAction}
    {oldPersona : Option Persona} {f : Option Int → PersonaProg PersonaAnswer}
    (hpast : ReadSays username oldPersona past)
    (hf : ∀ assigned past, (f assigned).Always (Honest i) i past) :
    ((assignNow username persona admin action oldPersona).bind f).Always (Honest i) i past := by
  refine honest_call rfl fun (now : Int) => ?_
  refine honest_write rfl (readSays_cons rfl hpast) fun (assigned : Bool) => ?_
  cases assigned with
  | false => exact hf none _
  | true => exact honest_call rfl fun (_ : Option Assignment) => hf _ _

theorem honest_requireAdmin {admin : String} {route : PersonaProg PersonaAnswer}
    (hroute : ∀ past, (∀ username oldPersona, ReadSays username oldPersona past) →
      route.Always (Honest i) i past) :
    (requireAdmin admin route).Always (Honest i) i [] := by
  refine honest_call rfl fun (user : Option User) => ?_
  cases user with
  | none => exact honest_done
  | some u =>
      dsimp only
      split
      · exact hroute _ fun _ _ => readSays_cons rfl fun e he => absurd he List.not_mem_nil
      · exact honest_done

/-- What a request has read of a user's assignment, and nothing else yet. -/
theorem readSays_getAssignment {username : String} {oldPersona : Option Persona}
    {a : Option Assignment} (hpast : ReadSays username oldPersona past)
    (hread : SaysRead oldPersona a) :
    ReadSays username oldPersona (did i (.getAssignment username) a :: past) := by
  intro e he a' ha'
  rcases List.mem_cons.mp he with rfl | he
  · have heq : readOf username (did i (.getAssignment username) a) = some a := if_pos rfl
    rw [← Option.some.inj (heq.symm.trans ha')]
    exact hread
  · exact hpast e he a' ha'

theorem honest_createPersona (sends : String → Bool) (admin email username : String)
    (persona : Persona) (stubHash : String)
    (hpast : ∀ username oldPersona, ReadSays username oldPersona past) :
    (createPersona sends admin email username persona stubHash).Always (Honest i) i past := by
  refine honest_call rfl fun (existing : Option Assignment) => ?_
  cases existing with
  | some a => exact honest_done
  | none =>
      have hread : ReadSays username none (did i (.getAssignment username) none :: past) :=
        readSays_getAssignment (hpast username none) ⟨rfl, fun _ hr => by cases hr⟩
      refine honest_call rfl fun (now : Int) => ?_
      refine honest_call rfl fun (recent : Nat) => ?_
      have hassign : ∀ (f : Option Int → PersonaProg PersonaAnswer) (past : List (Event PersonaStmt.Answer)),
          f none = .done .internalError →
          (∀ assignedAt, ∃ answer : Option User → PersonaAnswer, f (some assignedAt) =
            .call (.getUser admin) fun (issuer : Option User) => .done (answer issuer)) →
          ReadSays username none past →
          ((assignNow username persona admin .created none).bind f).Always (Honest i) i past := by
        intro f past hnone hsome hpast
        refine honest_assignNow hpast fun assigned past => ?_
        cases assigned with
        | none =>
            rw [hnone]
            exact honest_done
        | some assignedAt =>
            obtain ⟨answer, hanswer⟩ := hsome assignedAt
            rw [hanswer]
            exact honest_call rfl fun (_ : Option User) => honest_done
      have hready := readSays_cons (i := i) (q := .countInvitesByAdmin admin (now - 3600000000))
        (a := recent) rfl (readSays_cons (i := i) (q := .readClock) (a := now) rfl hread)
      split
      · exact honest_done
      · refine honest_call rfl fun (user : Option User) => ?_
        cases user with
        | some u => exact hassign _ _ rfl (fun _ => ⟨_, rfl⟩) (readSays_cons rfl hready)
        | none =>
            refine honest_call rfl fun (created : Bool) => ?_
            cases created with
            | false => exact honest_done
            | true =>
                refine honest_call rfl fun (_ : Unit) => hassign _ _ rfl (fun _ => ⟨_, rfl⟩) ?_
                exact readSays_cons rfl (readSays_cons rfl (readSays_cons rfl hready))

theorem honest_patchPersona (admin username : String) (persona : Persona)
    (hpast : ∀ username oldPersona, ReadSays username oldPersona past) :
    (patchPersona admin username persona).Always (Honest i) i past := by
  refine honest_call rfl fun (existing : Option Assignment) => ?_
  cases existing with
  | none => exact honest_done
  | some a =>
      dsimp only
      split
      · exact honest_done
      · rename_i henabled
        refine honest_assignNow (readSays_getAssignment (hpast username (some a.persona))
          ⟨rfl, fun r hr => Option.some.inj hr ▸ not_not.mp henabled⟩) fun assigned past => ?_
        cases assigned with
        | none => exact honest_done
        | some assignedAt => exact honest_done

theorem honest_disableNow {admin username : String} {oldPersona : Persona}
    (hpast : ReadSays username (some oldPersona) past) :
    (disableNow admin username oldPersona).Always (Honest i) i past := by
  refine honest_call rfl fun (now : Int) => ?_
  refine honest_write rfl (readSays_cons rfl hpast) fun (_ : Unit) => ?_
  exact honest_call rfl fun (_ : Option Assignment) => honest_done

theorem honest_disablePersona (admin username : String)
    (hpast : ∀ username oldPersona, ReadSays username oldPersona past) :
    (disablePersona admin username).Always (Honest i) i past := by
  refine honest_call rfl fun (existing : Option Assignment) => ?_
  cases existing with
  | none => exact honest_done
  | some a =>
      dsimp only
      split
      · exact honest_done
      · rename_i henabled
        have hread : ReadSays username (some a.persona)
            (did i (.getAssignment username) (some a) :: past) :=
          readSays_getAssignment (hpast username (some a.persona))
            ⟨rfl, fun r hr => Option.some.inj hr ▸ not_not.mp henabled⟩
        split
        · refine honest_call rfl fun (activeAdmins : Nat) => ?_
          split
          · exact honest_done
          · exact honest_disableNow (readSays_cons rfl hread)
        · exact honest_disableNow hread

theorem honest_prog (sends : String → Bool) (call : PersonaCall) :
    (call.prog sends).Always (Honest i) i [] := by
  cases call with
  | create admin email username persona stubHash =>
      exact honest_requireAdmin fun _ hpast =>
        honest_createPersona sends admin email username persona stubHash hpast
  | patch admin username persona =>
      exact honest_requireAdmin fun _ hpast => honest_patchPersona admin username persona hpast
  | disable admin username =>
      exact honest_requireAdmin fun _ hpast => honest_disablePersona admin username hpast
  | tick d => exact honest_call rfl fun (_ : Unit) => honest_done

end Guard

/-! ## Runs -/

/-- **The audit trail.** The rows about a user form a chain all along a run exactly if every write
about it is linked to the row before. They do where every write finds the assignment as its own
request has read it, and then no PATCH enables the assignment after it has been disabled. -/
theorem audit_chain (sends : String → Bool) {s : PersonaStore} {username : String}
    (hchained : Chained username s) (calls : List PersonaCall) (schedule : List Nat) :
    ((∀ n, Chained username ((personasStart sends s calls).run (schedule.take n)).world.db) ↔
      (personasStart sends s calls).Meets (Config.Next (Linked username)) schedule) ∧
    ((personasStart sends s calls).Meets (Config.NextIn (AsRead username)) schedule →
      (∀ n, Chained username ((personasStart sends s calls).run (schedule.take n)).world.db) ∧
      (personasStart sends s calls).Meets (Config.Next (KeepsDisabled username)) schedule) := by
  have hexec : ∀ (i : Nat) (q : PersonaStmt) (s : PersonaStore), Chained username s →
      (Chained username (Database.exec (A := PersonaStmt.Answer) q s).2 ↔ Linked username i q s) :=
    fun i q s h => exec_chained_iff h i q
  have hchain_iff : (∀ n, Chained username
      ((personasStart sends s calls).run (schedule.take n)).world.db) ↔
        (personasStart sends s calls).Meets (Config.Next (Linked username)) schedule :=
    Config.meets_iff_take hexec hchained
  have htasks : ∀ (i : Nat) (p : PersonaProg PersonaAnswer),
      (personasStart sends s calls).tasks[i]? = some p →
        p.Always (Honest i) i ((personasStart sends s calls).world.own i) := by
    intro i p hp
    obtain ⟨call, -, rfl⟩ := List.mem_map.mp (List.mem_of_getElem? hp)
    exact honest_prog sends call
  refine ⟨hchain_iff, fun hmeets => ⟨hchain_iff.mpr ?_, ?_⟩⟩
  · exact Config.meets_guarded (fun c i q k htask hhonest hok =>
      (linked_of_asRead hhonest (hok.ok htask)).1) htasks hmeets
  · exact Config.meets_guarded (fun c i q k htask hhonest hok =>
      (linked_of_asRead hhonest (hok.ok htask)).2) htasks hmeets

/-! ### A PATCH and a disable

Bob is a viewer. -/

/-- An L2 whose admin is Alice. -/
def trailStore : PersonaStore where
  clock := 50
  users := ⟨[⟨"alice", "hash", "enterprise_admin", none⟩, ⟨"bob", "hash", "user", none⟩],
    by decide⟩
  assignments := ⟨[⟨"bob", .viewer, 20, "alice", none⟩], by decide⟩
  audit := [⟨"bob", none, some .viewer, "alice", 20, .created⟩]
  assigned_user := by
    intro a ha
    obtain rfl := List.mem_singleton.mp ha
    decide

/-- Invites are sent. -/
def trailSends (_ : String) : Bool := true

theorem chained_trailStore : Chained "bob" trailStore := by
  refine ⟨List.isChain_singleton _, fun r hr => ?_⟩
  obtain rfl := Option.some.inj hr
  decide

/-- Bob is made an agent, and is then disabled. -/
theorem audit_chain_sample :
    (∀ n, Chained "bob" ((personasStart trailSends trailStore
        [.patch "alice" "bob" .agent, .disable "alice" "bob"]).run
      ([0, 0, 0, 0, 0, 1, 1, 1, 1, 1].take n)).world.db) ∧
    (personasStart trailSends trailStore
        [.patch "alice" "bob" .agent, .disable "alice" "bob"]).Meets
      (Config.Next (KeepsDisabled "bob")) [0, 0, 0, 0, 0, 1, 1, 1, 1, 1] :=
  (audit_chain trailSends chained_trailStore
    [.patch "alice" "bob" .agent, .disable "alice" "bob"] [0, 0, 0, 0, 0, 1, 1, 1, 1, 1]).2
    (by decide +kernel)

/-- Where the disable is answered between the statements of the PATCH. -/
def betweenPatch : Config PersonaStore PersonaStmt.Answer PersonaAnswer :=
  (personasStart trailSends trailStore
    [.patch "alice" "bob" .agent, .disable "alice" "bob"]).run [0, 0, 1, 1, 1, 1, 1, 0, 0, 0]

/-- The PATCH reads that Bob is enabled, the disable is answered, and the PATCH enables him again.
Its row replaces a persona that he no longer has. -/
theorem patch_enables_again :
    Chained "bob" trailStore ∧
    betweenPatch.Answered 0 (.changed "bob" .agent 50 "alice") ∧
    betweenPatch.Answered 1 (.disabled "bob" 50) ∧
    (∃ a ∈ betweenPatch.world.db.assignments.find "bob", a.disabledAt = none) ∧
    ¬ Chained "bob" betweenPatch.world.db := by
  have htrail : betweenPatch.world.db.trail "bob" =
      [⟨"bob", none, some .viewer, "alice", 20, .created⟩,
        ⟨"bob", some .viewer, none, "alice", 50, .disabled⟩,
        ⟨"bob", some .viewer, some .agent, "alice", 50, .changed⟩] := by decide +kernel
  have hfind : betweenPatch.world.db.assignments.find "bob" =
      some ⟨"bob", .agent, 50, "alice", none⟩ := by decide +kernel
  refine ⟨chained_trailStore, rfl, rfl, ⟨_, hfind, rfl⟩, ?_⟩
  rintro ⟨hchain, -⟩
  rw [htrail, List.isChain_cons_cons, List.isChain_cons_cons] at hchain
  exact nomatch hchain.2.1

end EighthLayer.Personas
