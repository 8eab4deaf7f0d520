import EighthLayer.Invites.Lifecycle

/-!
# EighthLayer.Invites.Accounts

Whether a user account comes from an invite that is claimed for it.

The claim route creates the account before it claims the invite, and does not take it back
when the claim fails. So the account has its invite where a request that has created an
account is left alone until it has claimed (`accounts_from_invites`).
-/

namespace EighthLayer.Invites

open Lib
open Knowledge (configuredTenancy)

variable {J : Jwt}

/-! ## What a statement does to users -/

namespace InviteStmt

@[simp] theorem exec_decodeJwt (token : J.Token) (s : InviteStore) :
    (Database.exec (A := InviteStmt.Answer) (decodeJwt token) s).1 = J.decode token s.clock := rfl

@[simp] theorem exec_byJti (jti : String) (s : InviteStore) :
    (Database.exec (A := InviteStmt.Answer (J := J)) (byJti jti) s).1 = s.byJti jti := rfl

@[simp] theorem exec_statusOf (inv : Invite) (s : InviteStore) :
    (Database.exec (A := InviteStmt.Answer (J := J)) (statusOf inv) s).1 = inv.status s.clock :=
  rfl

@[simp] theorem exec_readClock (s : InviteStore) :
    (Database.exec (A := InviteStmt.Answer (J := J)) readClock s).1 = s.clock := rfl

@[simp] theorem exec_claim (id : Nat) (now : Int) (userId : Nat) (s : InviteStore) :
    (Database.exec (A := InviteStmt.Answer (J := J)) (claim id now userId) s).1 =
      (s.claim id now userId).1 := rfl

@[simp] theorem exec_getUser (username : String) (s : InviteStore) :
    (Database.exec (A := InviteStmt.Answer (J := J)) (getUser username) s).1 =
      s.users.find username := rfl

@[simp] theorem exec_createUser (username passwordHash role : String)
    (tenancy : Option (String × String)) (s : InviteStore) :
    Database.exec (A := InviteStmt.Answer (J := J))
        (createUser username passwordHash role tenancy) s =
      match s.createUser username passwordHash role tenancy with
      | none => (false, s)
      | some s' => (true, s') := rfl

@[simp] theorem exec_getPersona (username : String) (s : InviteStore) :
    (Database.exec (A := InviteStmt.Answer (J := J)) (getPersona username) s).1 =
      s.personas.find username := rfl

/-- A user stays as it is. -/
theorem exec_find_user (q : InviteStmt J) {s : InviteStore} {username : String} {u : Account}
    (h : s.users.find username = some u) : (q.exec s).2.users.find username = some u := by
  cases q with
  | claim id now userId =>
      rcases s.claim_cases id now userId with ⟨heq, -⟩ | ⟨_, -, -, -, -, -, husers, -, -⟩
      · exact (congrArg (fun s' : InviteStore => s'.users.find username) heq).trans h
      · exact (congrArg (fun t : Table Account.username => t.find username) husers).trans h
  | insertInvite jti email role targetL2Id issuedBy issuedAt expiresAt =>
      unfold exec
      dsimp only
      split
      · exact h
      · rename_i inv s' hs
        rw [(InviteStore.insertInvite_eq_some hs).2.2.1]
        exact h
  | createUser name passwordHash role tenancy =>
      unfold exec
      dsimp only
      split
      · exact h
      · rename_i s' hs
        obtain ⟨row, -, -, hins, -⟩ := InviteStore.createUser_eq_some hs
        exact Table.find_insert_of_some hins h
  | revoke _ _ | tick _ | crash | readClock | decodeJwt _ | decodeLoose _ | byJti _ | byId _
  | statusOf _ | getUser _ | getPersona _ => exact h

theorem exec_personas (q : InviteStmt J) (s : InviteStore) :
    (q.exec s).2.personas = s.personas := by
  cases q with
  | claim id now userId =>
      change (s.claim id now userId).2.personas = s.personas
      unfold InviteStore.claim
      split
      · rfl
      · split
        · split
          · rfl
          · rfl
        · rfl
  | insertInvite jti email role targetL2Id issuedBy issuedAt expiresAt =>
      unfold exec
      dsimp only
      split
      · rfl
      · rename_i inv s' hs
        exact (InviteStore.insertInvite_eq_some hs).2.2.2.2
  | createUser name passwordHash role tenancy =>
      unfold exec
      dsimp only
      split
      · rfl
      · rename_i s' hs
        obtain ⟨row, -, -, -, -, -, hpersonas⟩ := InviteStore.createUser_eq_some hs
        exact hpersonas
  | revoke _ _ | tick _ | crash | readClock | decodeJwt _ | decodeLoose _ | byJti _ | byId _
  | statusOf _ | getUser _ | getPersona _ => rfl

/-- Who claims an invite that was not claimed by them. -/
theorem exec_claimer {q : InviteStmt J} {s : InviteStore} {inv : Invite} {userId : Nat}
    (h : inv ∈ (q.exec s).2.invites) (hclaimed : inv.claimedBy = some userId) :
    (∃ inv' ∈ s.invites, inv'.id = inv.id ∧ inv'.claimedBy = some userId) ∨
      ∃ now, q = .claim inv.id now userId ∧ ∃ inv' ∈ s.invites, inv'.id = inv.id ∧
        inv'.claimedAt = none ∧ inv'.revokedAt = none := by
  have hfind := Table.find_key h
  cases hold : s.invites.find inv.id with
  | none =>
      have hnew := (exec_new_invite hfind hold).2.1
      cases hnew.symm.trans hclaimed
  | some inv' =>
      obtain ⟨hmem, hid⟩ := Table.find_eq_some_iff.mp hold
      obtain ⟨inv'', hinv'', hchanges⟩ := q.exec_find_invite hold
      obtain rfl := Option.some.inj (hfind.symm.trans hinv'')
      cases hchanges with
      | same => exact .inl ⟨inv, hmem, rfl, hclaimed⟩
      | @claimed inv' now userId' hopen hrevoked huser =>
          obtain rfl := Option.some.inj hclaimed
          exact .inr ⟨now, rfl, inv', hmem, rfl, hopen, hrevoked⟩
      | revoked hrevoked => exact .inl ⟨inv', hmem, rfl, hclaimed⟩

end InviteStmt

/-! ## What a request has done -/

/-- The username of an account that a statement has created. -/
def createdName : Event (InviteStmt.Answer (J := J)) → Option String
  | ⟨_, .createUser username _ _ _, true⟩ => some username
  | _ => none

/-- The invite that a statement has claimed, and the user it is claimed for. -/
def matchedClaim : Event (InviteStmt.Answer (J := J)) → Option (Nat × Nat)
  | ⟨_, .claim id _ userId, some (_ + 1)⟩ => some (id, userId)
  | _ => none

/-- Request `i` has created this account. -/
def Created (w : InviteWorld J) (i : Nat) (username : String) : Prop :=
  ∃ e ∈ w.log, e.task = i ∧ createdName e = some username

/-- Request `i` has claimed an invite for this account. -/
def HasClaimed (w : InviteWorld J) (i : Nat) (username : String) : Prop :=
  ∃ u ∈ w.db.users.find username, ∃ e ∈ w.log, e.task = i ∧
    ∃ p ∈ matchedClaim e, p.2 = u.id

/-- The id is that of an account that some request has created. -/
def FromInvite (w : InviteWorld J) (userId : Nat) : Prop :=
  ∃ e ∈ w.log, ∃ username ∈ createdName e, ∃ u ∈ w.db.users.find username, u.id = userId

/-- Request `i` has created an account. -/
def Creator (w : InviteWorld J) (i : Nat) : Prop :=
  ∃ e ∈ w.log, e.task = i ∧ (createdName e).isSome = true

theorem Created.creator {w : InviteWorld J} {i : Nat} {username : String}
    (h : Created w i username) : Creator w i := by
  obtain ⟨e, he, htask, hname⟩ := h
  exact ⟨e, he, htask, by rw [hname]; rfl⟩

/-- A request that has created an account finds the bearer unexpired and the invite pending
until it has claimed it, and is not cut off before; and no second invite is claimed for an
account that a request has created. -/
def Undisturbed (i : Nat) : InviteStmt J → InviteWorld J → Prop
  | .decodeJwt token, w => Creator w i → J.decode token w.db.clock ≠ .expired
  | .statusOf inv, w => Creator w i → inv.status w.db.clock = .pending
  | .claim id _ userId, w =>
      (Creator w i → ∃ inv ∈ w.db.invites.find id, inv.claimedAt = none ∧ inv.revokedAt = none) ∧
        ((∃ inv ∈ w.db.invites.find id, inv.claimedAt = none ∧ inv.revokedAt = none) →
          FromInvite w userId → ∀ inv ∈ w.db.invites.rows, inv.claimedBy ≠ some userId)
  | .crash, w => ∀ e ∈ w.log, e.task = i → ∀ username ∈ createdName e, HasClaimed w i username
  | _, _ => True

/-! ## What holds of every world -/

/-- An account that a request has created is there, has no persona, and at most one invite is
claimed for it; what a request has claimed is claimed. -/
structure AccountInv (w : InviteWorld J) : Prop where
  created : ∀ i username, Created w i username → ∃ u, w.db.users.find username = some u ∧
    w.db.personas.find username = none ∧
      ∀ inv ∈ w.db.invites, ∀ inv' ∈ w.db.invites, inv.claimedBy = some u.id →
        inv'.claimedBy = some u.id → inv = inv'
  claimed : ∀ e ∈ w.log, ∀ p ∈ matchedClaim e, ∃ inv, w.db.invites.find p.1 = some inv ∧
    inv.claimedAt ≠ none ∧ inv.claimedBy = some p.2

theorem accountInv_start (s : InviteStore) : AccountInv (⟨s, []⟩ : InviteWorld J) where
  created := by
    rintro i username ⟨e, he, -⟩
    cases he
  claimed := fun e he => (nomatch he)

section Exec

variable {w : InviteWorld J} {i : Nat} {q : InviteStmt J}

/-- A creation is an old one, or the one that the statement makes. -/
theorem created_exec {j : Nat} {username : String} (h : Created (w.exec i q) j username) :
    Created w j username ∨ j = i ∧ ∃ passwordHash role tenancy s',
      q = .createUser username passwordHash role tenancy ∧
        w.db.createUser username passwordHash role tenancy = some s' ∧ (q.exec w.db).2 = s' := by
  obtain ⟨e, he, rfl, hname⟩ := h
  rcases List.mem_cons.mp he with rfl | he
  · refine .inr ⟨rfl, ?_⟩
    cases q with
    | createUser name passwordHash role tenancy =>
        change createdName (did i (.createUser name passwordHash role tenancy)
          ((InviteStmt.createUser name passwordHash role tenancy).exec w.db).1) = _ at hname
        cases hs : w.db.createUser name passwordHash role tenancy with
        | none =>
            simp only [InviteStmt.exec, hs] at hname
            cases hname
        | some s' =>
            simp only [InviteStmt.exec, hs] at hname
            cases hname
            exact ⟨passwordHash, role, tenancy, s', rfl, hs, by simp only [InviteStmt.exec, hs]⟩
    | _ => cases hname
  · exact .inl ⟨e, he, rfl, hname⟩

theorem mem_rows_of_claimer {inv : Invite} {userId : Nat} (h : inv ∈ (q.exec w.db).2.invites)
    (hclaimed : inv.claimedBy = some userId) (hfrom : FromInvite w userId)
    (hok : Undisturbed i q w) :
    (∃ inv' ∈ w.db.invites, inv'.id = inv.id ∧ inv'.claimedBy = some userId) ∨
      (∃ now, q = .claim inv.id now userId) ∧
        ∀ inv' ∈ w.db.invites, inv'.claimedBy ≠ some userId := by
  rcases InviteStmt.exec_claimer h hclaimed with hold | ⟨now, rfl, inv', hmem, hid, hopen⟩
  · exact .inl hold
  · refine .inr ⟨⟨now, rfl⟩, hok.2 ⟨inv', ?_, hopen⟩ hfrom⟩
    exact Table.find_eq_some_iff.mpr ⟨hmem, hid⟩

/-- No second invite is claimed for an account that a request has created. -/
theorem claimer_unique_exec (hinv : AccountInv w) (hok : Undisturbed i q w) {j : Nat}
    {username : String} (hcreated : Created w j username) {u : Account}
    (hu : w.db.users.find username = some u) {inv inv' : Invite}
    (hmem : inv ∈ (q.exec w.db).2.invites) (hmem' : inv' ∈ (q.exec w.db).2.invites)
    (hclaimed : inv.claimedBy = some u.id) (hclaimed' : inv'.claimedBy = some u.id) :
    inv = inv' := by
  have hfrom : FromInvite w u.id := by
    obtain ⟨e, he, -, hname⟩ := hcreated
    exact ⟨e, he, username, hname, u, hu, rfl⟩
  obtain ⟨u', hu', -, hunique⟩ := hinv.created j username hcreated
  cases hu.symm.trans hu'
  refine Table.eq_of_key_eq hmem hmem' ?_
  rcases mem_rows_of_claimer hmem hclaimed hfrom hok with
    ⟨r, hr, hid, hby⟩ | ⟨⟨now, hq⟩, hnone⟩
  · rcases mem_rows_of_claimer hmem' hclaimed' hfrom hok with
      ⟨r', hr', hid', hby'⟩ | ⟨-, hnone⟩
    · rw [← hid, ← hid', hunique r hr r' hr' hby hby']
    · exact absurd hby (hnone r hr)
  · rcases mem_rows_of_claimer hmem' hclaimed' hfrom hok with
      ⟨r', hr', -, hby'⟩ | ⟨⟨now', hq'⟩, -⟩
    · exact absurd hby' (hnone r' hr')
    · rw [hq] at hq'
      injection hq'

theorem accountInv_exec (hinv : AccountInv w) (hok : Undisturbed i q w) :
    AccountInv (w.exec i q) where
  created := by
    intro j username hcreated
    rcases created_exec hcreated with hold | ⟨rfl, passwordHash, role, tenancy, s', rfl, hs, heq⟩
    · obtain ⟨u, hu, hpersona, -⟩ := hinv.created j username hold
      refine ⟨u, q.exec_find_user hu, ?_, ?_⟩
      · exact (congrArg (fun t : Table PersonaRow.username => t.find username)
          (q.exec_personas w.db)).trans hpersona
      · intro inv hmem inv' hmem' hclaimed hclaimed'
        exact claimer_unique_exec hinv hok hold hu hmem hmem' hclaimed hclaimed'
    · -- the new id is nobody's, and a persona needs a user
      obtain ⟨row, hname, hid, hins, hinvites, -, hpersonas⟩ := InviteStore.createUser_eq_some hs
      change (w.exec j _).db = s' at heq
      rw [heq]
      refine ⟨row, hname ▸ Table.find_insert_self hins, ?_, ?_⟩
      · rw [hpersonas]
        refine Table.find_eq_none_iff.mpr fun p hp hkey => ?_
        have huser := w.db.persona_user p hp
        rw [hkey, ← hname] at huser
        exact huser (Table.find_none_of_insert hins)
      · intro inv hmem inv' hmem' hclaimed hclaimed'
        rw [hinvites] at hmem
        obtain ⟨u, hu, heq⟩ := w.db.claimer inv hmem row.id hclaimed
        have hle := w.db.user_le u hu
        omega
  claimed := by
    intro e he p hp
    rcases List.mem_cons.mp he with rfl | he
    · cases q with
      | claim id now userId =>
          rcases w.db.claim_cases id now userId with
            ⟨-, hanswer⟩ | ⟨inv, hfind, hopen, hrevoked, -, hanswer, -, -, hafter⟩
          · exfalso
            change matchedClaim (did i (.claim id now userId) (w.db.claim id now userId).1) =
              some p at hp
            rcases hanswer with hanswer | hanswer
            · rw [hanswer] at hp
              cases hp
            · rw [hanswer] at hp
              cases hp
          · change matchedClaim (did i (.claim id now userId) (w.db.claim id now userId).1) =
              some p at hp
            rw [hanswer] at hp
            cases hp
            have hid : inv.id = id := (Table.find_eq_some_iff.mp hfind).2
            refine ⟨_, (hafter id).trans (congrArg (Option.map _) hfind), ?_⟩
            dsimp only
            rw [if_pos ⟨hid, hopen, hrevoked⟩]
            exact ⟨Option.some_ne_none _, rfl⟩
      | _ => cases hp
    · obtain ⟨inv, hfind, hclaimed, hby⟩ := hinv.claimed e he p hp
      obtain ⟨inv', hfind', hchanges⟩ := q.exec_find_invite hfind
      refine ⟨inv', hfind', ?_⟩
      cases hchanges with
      | same => exact ⟨hclaimed, hby⟩
      | claimed hopen _ _ => exact absurd hopen hclaimed
      | revoked _ => exact ⟨hclaimed, hby⟩

end Exec

/-! ## What a request may rely on -/

/-- What any statement may make of a store: time passes, users stay as they are, and an invite
keeps its `jti`. -/
structure Later (s s' : InviteStore) : Prop where
  clock : s.clock ≤ s'.clock
  users : ∀ username u, s.users.find username = some u → s'.users.find username = some u
  invites : ∀ id inv, s.invites.find id = some inv →
    ∃ inv', s'.invites.find id = some inv' ∧ inv'.jti = inv.jti

theorem Later.refl (s : InviteStore) : Later s s :=
  ⟨Int.le_refl _, fun _ _ h => h, fun _ inv h => ⟨inv, h, rfl⟩⟩

theorem Later.trans {s s' s'' : InviteStore} (h : Later s s') (h' : Later s' s'') :
    Later s s'' where
  clock := Int.le_trans h.clock h'.clock
  users := fun username u hu => h'.users username u (h.users username u hu)
  invites := by
    intro id inv hinv
    obtain ⟨inv', hinv', hjti⟩ := h.invites id inv hinv
    obtain ⟨inv'', hinv'', hjti'⟩ := h'.invites id inv' hinv'
    exact ⟨inv'', hinv'', hjti'.trans hjti⟩

theorem later_exec (w : InviteWorld J) (i : Nat) (q : InviteStmt J) :
    Later w.db (w.exec i q).db where
  clock := q.exec_clock w.db
  users := fun _ _ h => q.exec_find_user h
  invites := by
    intro id inv hinv
    obtain ⟨inv', hinv', hchanges⟩ := q.exec_find_invite hinv
    refine ⟨inv', hinv', ?_⟩
    cases hchanges with
    | same => rfl
    | claimed _ _ _ => rfl
    | revoked _ => rfl

theorem later_run {α : Type} (c : Config InviteStore (InviteStmt.Answer (J := J)) α)
    (schedule : List Nat) : Later c.world.db (c.run schedule).world.db :=
  Config.run_world (P := fun w => Later c.world.db w.db)
    (fun w i q h => h.trans (later_exec w i q)) (Later.refl _) schedule

/-- What the other requests may make of a world that request `i` has seen. -/
structure SeenBy (i : Nat) (w w' : InviteWorld J) : Prop where
  own : w'.own i = w.own i
  later : Later w.db w'.db

theorem SeenBy.refl (i : Nat) (w : InviteWorld J) : SeenBy i w w := ⟨rfl, .refl _⟩

theorem SeenBy.trans {i : Nat} {w w' w'' : InviteWorld J} (h : SeenBy i w w')
    (h' : SeenBy i w' w'') : SeenBy i w w'' :=
  ⟨h'.own.trans h.own, h.later.trans h'.later⟩

theorem seenBy_exec {i j : Nat} (hne : i ≠ j) (q : InviteStmt J) (w : InviteWorld J) :
    SeenBy j w (w.exec i q) :=
  ⟨w.own_exec_of_ne hne q, later_exec w i q⟩

/-- Programs that end as `post` says, at whatever is undisturbed. -/
abbrev Upholds {α : Type} (post : α → InviteWorld J → Prop) (i : Nat) (p : InviteProg J α)
    (w : InviteWorld J) : Prop :=
  p.Upholds AccountInv (SeenBy i) (Undisturbed i) post i w

section Requests

variable {i : Nat} {w w' : InviteWorld J} {username : String}

theorem created_iff_own :
    Created w i username ↔ ∃ e ∈ w.own i, createdName e = some username := by
  simp [Created, World.mem_own, and_assoc]

theorem creator_iff : Creator w i ↔ ∃ username, Created w i username := by
  constructor
  · rintro ⟨e, he, htask, hsome⟩
    obtain ⟨username, hname⟩ := Option.isSome_iff_exists.mp hsome
    exact ⟨username, e, he, htask, hname⟩
  · rintro ⟨username, h⟩
    exact h.creator

theorem SeenBy.created (hseen : SeenBy i w w') : Created w' i username ↔ Created w i username := by
  rw [created_iff_own, created_iff_own, hseen.own]

theorem SeenBy.creator (hseen : SeenBy i w w') : Creator w' i ↔ Creator w i := by
  rw [creator_iff, creator_iff]
  exact exists_congr fun _ => hseen.created

/-- Most statements create no account. -/
theorem created_exec_iff {q : InviteStmt J}
    (hq : createdName (did i q (Database.exec (A := InviteStmt.Answer) q w.db).1) = none) :
    Created (w.exec i q) i username ↔ Created w i username := by
  constructor
  · rintro ⟨e, he, htask, hname⟩
    rcases List.mem_cons.mp he with rfl | he
    · cases hq.symm.trans hname
    · exact ⟨e, he, htask, hname⟩
  · rintro ⟨e, he, htask, hname⟩
    exact ⟨e, .tail _ he, htask, hname⟩

/-! ### A request that has created nothing -/

theorem clean_exec {q : InviteStmt J} (hclean : ¬ Creator w i) (hseen : SeenBy i w w')
    (hq : createdName (did i q (Database.exec (A := InviteStmt.Answer) q w'.db).1) = none) :
    ¬ Creator (w'.exec i q) i := by
  rw [creator_iff]
  rintro ⟨username, h⟩
  exact hclean (hseen.creator.mp ((created_exec_iff hq).mp h).creator)

/-- A program that creates no account. -/
inductive CreatesNothing {α : Type} : InviteProg J α → Prop
  | done {a : α} : CreatesNothing (.done a)
  | call {q : InviteStmt J} {k : q.Answer → InviteProg J α}
      (hq : ∀ i a, createdName (did i q a) = none) (hk : ∀ a, CreatesNothing (k a)) :
      CreatesNothing (.call q k)

theorem CreatesNothing.upholds {α : Type} {p : InviteProg J α} (hp : CreatesNothing p)
    (hclean : ¬ Creator w i) : Upholds (fun _ w => ¬ Creator w i) i p w := by
  induction hp generalizing w with
  | done => exact hclean
  | call hq hk ih =>
      intro w' _ hseen _
      exact ih _ (clean_exec hclean hseen (hq i _))

theorem CreatesNothing.bind {α β : Type} {p : InviteProg J α} {f : α → InviteProg J β}
    (hp : CreatesNothing p) (hf : ∀ a, CreatesNothing (f a)) : CreatesNothing (p.bind f) := by
  induction hp with
  | done => exact hf _
  | call hq hk ih => exact .call hq ih

theorem claimRow_createsNothing (inv : Invite) (userId : Nat) :
    CreatesNothing (claimRow inv userId : InviteProg J _) := by
  refine .call (fun _ _ => rfl) fun (status : InviteStatus) => ?_
  cases status with
  | pending =>
      refine .call (fun _ _ => rfl) fun (now : Int) => ?_
      refine .call (fun _ _ => rfl) fun (rowcount : Option Nat) => ?_
      match rowcount with
      | none => exact .done
      | some 0 => exact .call (fun _ _ => rfl) fun (_ : Option Invite) => .done
      | some (n + 1) => exact .call (fun _ _ => rfl) fun (_ : Option Invite) => .done
  | claimed => exact .done
  | revoked => exact .done
  | expired => exact .done

theorem claimInvite_createsNothing (token : J.Token) (userId : Nat) :
    CreatesNothing (claimInvite token userId) := by
  refine .call (fun _ _ => rfl) fun (decoded : Decoded) => ?_
  cases decoded with
  | expired => exact .done
  | invalid => exact .done
  | ok jti =>
      dsimp only
      split
      · exact .done
      · refine .call (fun _ _ => rfl) fun (row : Option Invite) => ?_
        cases row with
        | none => exact .done
        | some inv => exact claimRow_createsNothing inv userId

theorem refuseClaim_createsNothing (token : J.Token) : CreatesNothing (refuseClaim token) := by
  refine .call (fun _ _ => rfl) fun (decoded : Decoded) => ?_
  cases decoded with
  | expired => exact .done
  | invalid => exact .done
  | ok jti =>
      refine .call (fun _ _ => rfl) fun (row : Option Invite) => ?_
      cases row with
      | none => exact .done
      | some inv =>
          dsimp only
          split
          · exact .done
          · split
            · exact .done
            · exact .done

theorem answerClaim_createsNothing (name : String) (outcome : Option ClaimOutcome) :
    CreatesNothing (answerClaim name outcome : InviteProg J _) := by
  cases outcome with
  | none => exact .done
  | some outcome =>
      unfold answerClaim
      dsimp only
      cases outcome.kind with
      | ok =>
          refine .call (fun _ _ => rfl) fun (assignment : Option PersonaRow) => ?_
          cases assignment with
          | none => exact .done
          | some p =>
              dsimp only
              split
              · exact .done
              · exact .done
      | notFound => exact .done
      | expired => exact .done
      | revoked => exact .done
      | alreadyClaimed => exact .done

theorem mintInvite_createsNothing (jti email : String) (role : InviteRole)
    (targetL2Id : Option String) (issuedBy : Nat) (ttlHours : Int) :
    CreatesNothing (mintInvite jti email role targetL2Id issuedBy ttlHours : InviteProg J _) := by
  rcases mintInvite_cases (J := J) jti email role targetL2Id issuedBy ttlHours with
    heq | ⟨target, heq⟩
  · rw [heq]
    exact .done
  · rw [heq]
    exact .call (fun _ _ => rfl) fun (_ : Int) => .call (fun _ _ => rfl) fun _ => .done

theorem revokeInvite_createsNothing (inviteId : Nat) :
    CreatesNothing (revokeInvite inviteId : InviteProg J _) := by
  refine .call (fun _ _ => rfl) fun (row : Option Invite) => ?_
  cases row with
  | none => exact .done
  | some inv =>
      dsimp only
      split
      · exact .done
      · exact .call (fun _ _ => rfl) fun (_ : Int) => .call (fun _ _ => rfl) fun (_ : Unit) =>
          .call (fun _ _ => rfl) fun _ => .done

/-! ### The bearer of a claim -/

/-- The bearer was good at some time, and the invite it names is there. -/
def Carries (token : J.Token) (s : InviteStore) : Prop :=
  ∃ jti, jti ≠ "" ∧ (∃ now, now ≤ s.clock ∧ J.decode token now = .ok jti) ∧
    ∃ id inv, s.invites.find id = some inv ∧ inv.jti = jti

theorem Carries.later {token : J.Token} {s s' : InviteStore} (h : Carries token s)
    (hlater : Later s s') : Carries token s' := by
  obtain ⟨jti, hne, ⟨now, hle, hdecode⟩, id, inv, hinv, hjti⟩ := h
  obtain ⟨inv', hinv', hjti'⟩ := hlater.invites id inv hinv
  exact ⟨jti, hne, ⟨now, Int.le_trans hle hlater.clock, hdecode⟩, id, inv', hinv',
    hjti'.trans hjti⟩

theorem validate_upholds (token : J.Token) (hclean : ¬ Creator w i) :
    Upholds (fun v w => ¬ Creator w i ∧ (v ≠ none → Carries token w.db)) i
      (validateInviteJwt token) w := by
  intro w₁ _ hseen _
  have hclean₁ := clean_exec (q := .decodeJwt token) hclean hseen rfl
  cases hdecode : J.decode token w₁.db.clock with
  | expired =>
      simp only [InviteStmt.exec_decodeJwt, hdecode]
      exact ⟨hclean₁, fun h => absurd rfl h⟩
  | invalid =>
      simp only [InviteStmt.exec_decodeJwt, hdecode]
      exact ⟨hclean₁, fun h => absurd rfl h⟩
  | ok jti =>
      simp only [InviteStmt.exec_decodeJwt, hdecode]
      split
      · exact ⟨hclean₁, fun h => absurd rfl h⟩
      · rename_i hne
        intro w₂ _ hseen₂ _
        have hclean₂ := clean_exec (q := .byJti jti) hclean₁ hseen₂ rfl
        have hlater : Later w₁.db w₂.db := (later_exec w₁ i (.decodeJwt token)).trans hseen₂.later
        cases hrow : w₂.db.byJti jti with
        | none =>
            simp only [InviteStmt.exec_byJti, hrow]
            exact ⟨hclean₂, fun h => absurd rfl h⟩
        | some inv =>
            simp only [InviteStmt.exec_byJti, hrow]
            obtain ⟨hmem, hjti⟩ := InviteStore.byJti_eq_some_iff.mp hrow
            have hcarries : Carries token w₂.db :=
              ⟨jti, hne, ⟨w₁.db.clock, hlater.clock, hdecode⟩, inv.id, inv,
                Table.find_key hmem, hjti⟩
            intro w₃ _ hseen₃ _
            have hclean₃ := clean_exec (q := .statusOf inv) hclean₂ hseen₃ rfl
            dsimp only
            split
            · exact ⟨hclean₃, fun _ => hcarries.later hseen₃.later⟩
            · exact ⟨hclean₃, fun h => absurd rfl h⟩

/-! ### A request that has created an account -/

/-- A request that has created this account and no other. -/
structure Creating (username : String) (u : Account) (i : Nat) (w : InviteWorld J) : Prop where
  user : w.db.users.find username = some u
  created : Created w i username
  only : ∀ name, Created w i name → name = username

theorem Creating.exec {u : Account} (h : Creating username u i w) (hseen : SeenBy i w w')
    {q : InviteStmt J}
    (hq : createdName (did i q (Database.exec (A := InviteStmt.Answer) q w'.db).1) = none) :
    Creating username u i (w'.exec i q) where
  user := q.exec_find_user (hseen.later.users _ _ h.user)
  created := (created_exec_iff hq).mpr (hseen.created.mpr h.created)
  only := fun name hname => h.only name (hseen.created.mp ((created_exec_iff hq).mp hname))

/-- A claim of an invite that is open, for a user, matches it. -/
theorem claim_open {s : InviteStore} {id userId : Nat} {now : Int} {inv : Invite}
    (hinv : s.invites.find id = some inv) (hopen : inv.claimedAt = none ∧ inv.revokedAt = none)
    (huser : s.HasUser userId) : (s.claim id now userId).1 = some 1 := by
  unfold InviteStore.claim
  split
  · rename_i hnone
    cases hinv.symm.trans hnone
  · rename_i inv' hinv'
    cases hinv.symm.trans hinv'
    rw [if_pos hopen, dif_pos huser]

theorem HasClaimed.later (h : HasClaimed w i username) (hseen : SeenBy i w w') :
    HasClaimed w' i username := by
  obtain ⟨u, hu, e, he, htask, hmatched⟩ := h
  have hown : e ∈ w'.own i := hseen.own ▸ World.mem_own.mpr ⟨he, htask⟩
  exact ⟨u, hseen.later.users _ _ hu, e, (World.mem_own.mp hown).1, htask, hmatched⟩

theorem HasClaimed.exec (h : HasClaimed w i username) (q : InviteStmt J) :
    HasClaimed (w.exec i q) i username := by
  obtain ⟨u, hu, e, he, htask, hmatched⟩ := h
  exact ⟨u, q.exec_find_user hu, e, .tail _ he, htask, hmatched⟩

theorem claimRow_upholds {u : Account} {inv : Invite} (h : Creating username u i w) :
    Upholds (fun o w => (∃ inv, o = some ⟨.ok, some inv⟩) ∧ Creating username u i w ∧
      HasClaimed w i username) i (claimRow inv u.id) w := by
  intro w₁ _ hseen₁ hok₁
  have h₁ := h.exec (q := .statusOf inv) hseen₁ rfl
  have hpending : inv.status w₁.db.clock = .pending :=
    hok₁ (hseen₁.creator.mpr h.created.creator)
  simp only [InviteStmt.exec_statusOf, hpending]
  intro w₂ _ hseen₂ _
  have h₂ := h₁.exec (q := .readClock) hseen₂ rfl
  intro w₃ _ hseen₃ hok₃
  have h₃ := h₂.exec (q := .claim inv.id w₂.db.clock u.id) hseen₃ rfl
  obtain ⟨row, hrow, hopen⟩ := hok₃.1 (hseen₃.creator.mpr h₂.created.creator)
  have hfind : w₃.db.users.find username = some u := hseen₃.later.users _ _ h₂.user
  have huser : w₃.db.HasUser u.id := ⟨u, (Table.find_eq_some_iff.mp hfind).1, rfl⟩
  have hanswer : (w₃.db.claim inv.id w₂.db.clock u.id).1 = some 1 := claim_open hrow hopen huser
  have hclaimed : HasClaimed (w₃.exec i (.claim inv.id w₂.db.clock u.id)) i username := by
    refine ⟨u, h₃.user, _, .head _, rfl, (inv.id, u.id), ?_, rfl⟩
    change matchedClaim (did i (.claim inv.id w₂.db.clock u.id)
      (w₃.db.claim inv.id w₂.db.clock u.id).1) = _
    rw [hanswer]
    rfl
  simp only [InviteStmt.exec_readClock, InviteStmt.exec_claim, hanswer]
  intro w₄ _ hseen₄ _
  exact ⟨⟨_, rfl⟩, h₃.exec hseen₄ rfl, (hclaimed.later hseen₄).exec _⟩

theorem claimInvite_upholds {u : Account} {token : J.Token} (h : Creating username u i w)
    (hcarries : Carries token w.db) :
    Upholds (fun o w => (∃ inv, o = some ⟨.ok, some inv⟩) ∧ Creating username u i w ∧
      HasClaimed w i username) i (claimInvite token u.id) w := by
  intro w₁ _ hseen₁ hok₁
  have h₁ := h.exec (q := .decodeJwt token) hseen₁ rfl
  obtain ⟨jti, hne, ⟨now, hle, hdecode⟩, id, inv, hinv, hjti⟩ := hcarries.later hseen₁.later
  have hdecode₁ : J.decode token w₁.db.clock = .ok jti := by
    rcases J.decode_later token jti now _ hle hdecode with hok | hexpired
    · exact hok
    · exact absurd hexpired (hok₁ (hseen₁.creator.mpr h.created.creator))
  simp only [InviteStmt.exec_decodeJwt, hdecode₁, if_neg hne]
  intro w₂ _ hseen₂ _
  have h₂ := h₁.exec (q := .byJti jti) hseen₂ rfl
  have hlater : Later w₁.db w₂.db := (later_exec w₁ i (.decodeJwt token)).trans hseen₂.later
  obtain ⟨inv', hinv', hjti'⟩ := hlater.invites id inv hinv
  have hrow : w₂.db.byJti jti = some inv' :=
    InviteStore.byJti_eq_some_iff.mpr ⟨(Table.find_eq_some_iff.mp hinv').1, hjti'.trans hjti⟩
  simp only [InviteStmt.exec_byJti, hrow]
  exact claimRow_upholds h₂

theorem ensureUser_upholds (host : Host) (password : String) (role : InviteRole)
    {token : J.Token} (hclean : ¬ Creator w i) (hcarries : Carries token w.db) :
    Upholds (fun r w => Carries token w.db ∧
        (¬ Creator w i ∨ ∃ u : Account, r = some u.id ∧ Creating username u i w)) i
      (ensureUser host username password role) w := by
  intro w₁ _ hseen₁ _
  have hclean₁ := clean_exec (q := .getUser username) hclean hseen₁ rfl
  have hcarries₁ := hcarries.later (hseen₁.later.trans (later_exec w₁ i (.getUser username)))
  cases hfind : w₁.db.users.find username with
  | some u =>
      simp only [InviteStmt.exec_getUser, hfind]
      exact ⟨hcarries₁, .inl hclean₁⟩
  | none =>
      simp only [InviteStmt.exec_getUser, hfind]
      intro w₂ _ hseen₂ _
      have hcarries₂ := hcarries₁.later (hseen₂.later.trans (later_exec w₂ i
        (.createUser username (host.hashPassword password) role.text
          (configuredTenancy host.env))))
      cases hcreate : w₂.db.createUser username (host.hashPassword password) role.text
          (configuredTenancy host.env) with
      | none =>
          have hclean₂ := clean_exec (q := .createUser username (host.hashPassword password)
            role.text (configuredTenancy host.env)) hclean₁ hseen₂
            (by simp only [InviteStmt.exec_createUser, hcreate]; rfl)
          simp only [InviteStmt.exec_createUser, hcreate]
          exact ⟨hcarries₂, .inl hclean₂⟩
      | some s' =>
          obtain ⟨row, hname, -, hins, -⟩ := InviteStore.createUser_eq_some hcreate
          have hcreating : Creating username row i (w₂.exec i (.createUser username
              (host.hashPassword password) role.text (configuredTenancy host.env))) := by
            refine ⟨?_, ⟨_, .head _, rfl, ?_⟩, fun name h => ?_⟩
            · simp only [World.exec_db, InviteStmt.exec_createUser, hcreate]
              exact hname ▸ Table.find_insert_self hins
            · simp only [InviteStmt.exec_createUser, hcreate]
              rfl
            · rcases created_exec h with hold | ⟨-, _, _, _, _, hq, -⟩
              · exact absurd (hseen₂.created.mp hold).creator hclean₁
              · injection hq with hq
                exact hq.symm
          simp only [InviteStmt.exec_createUser, hcreate]
          intro w₃ _ hseen₃ _
          have hfound : w₃.db.users.find username = some row :=
            hseen₃.later.users _ _ hcreating.user
          simp only [InviteStmt.exec_getUser, hfound]
          exact ⟨hcarries₂.later (hseen₃.later.trans (later_exec w₃ i (.getUser username))),
            .inr ⟨row, rfl, hcreating.exec (q := .getUser username) hseen₃ rfl⟩⟩

/-! ### How a request ends -/

/-- What is asked of the end of a request: it has claimed an invite for what it has created,
and has created nothing if it is refused. -/
structure EndsWell (i : Nat) (a : RouteAnswer) (w : InviteWorld J) : Prop where
  claimed : ∀ username, Created w i username → HasClaimed w i username
  unrefused : ∀ r, a = .refused r → ¬ Creator w i

theorem endsWell_of_clean {a : RouteAnswer} (h : ¬ Creator w i) : EndsWell i a w :=
  ⟨fun _ hcreated => absurd hcreated.creator h, fun _ _ => h⟩

theorem CreatesNothing.endsWell {p : InviteProg J RouteAnswer} (hp : CreatesNothing p)
    (hclean : ¬ Creator w i) : Upholds (EndsWell i) i p w :=
  (hp.upholds hclean).imp fun _ _ => endsWell_of_clean

theorem answerClaim_upholds {u : Account} {inv : Option Invite} (h : Creating username u i w)
    (hclaimed : HasClaimed w i username) :
    Upholds (EndsWell i) i (answerClaim username (some ⟨.ok, inv⟩)) w := by
  intro w₁ hinv hseen₁ _
  have h₁ := h.exec (q := .getPersona username) hseen₁ rfl
  have hclaimed₁ := (hclaimed.later hseen₁).exec (.getPersona username)
  -- whoever has just been created has no persona
  obtain ⟨_, -, hpersona, -⟩ := hinv.created i username (hseen₁.created.mpr h.created)
  simp only [InviteStmt.exec_getPersona, hpersona]
  refine ⟨fun name hname => ?_, fun r hr => by cases hr⟩
  rw [h₁.only name hname]
  exact hclaimed₁

theorem claimInviteRoute_upholds (host : Host) (token : J.Token) (password : String)
    (hclean : ¬ Creator w i) :
    Upholds (EndsWell i) i (claimInviteRoute host token password) w := by
  refine (validate_upholds token hclean).bind fun v w₁ h₁ => ?_
  obtain ⟨hclean₁, hcarries₁⟩ := h₁
  cases v with
  | none => exact (refuseClaim_createsNothing token).endsWell hclean₁
  | some invite =>
      refine (ensureUser_upholds host password invite.role hclean₁
        (hcarries₁ (Option.some_ne_none _))).bind fun r w₂ h₂ => ?_
      obtain ⟨hcarries₂, hclean₂ | ⟨u, rfl, hcreating⟩⟩ := h₂
      · cases r with
        | none => exact endsWell_of_clean hclean₂
        | some userId =>
            exact ((claimInvite_createsNothing token userId).bind fun outcome =>
              answerClaim_createsNothing invite.email outcome).endsWell hclean₂
      · refine (claimInvite_upholds hcreating hcarries₂).bind fun o w₃ h₃ => ?_
        obtain ⟨⟨inv, rfl⟩, hcreating₃, hclaimed⟩ := h₃
        exact answerClaim_upholds hcreating₃ hclaimed

theorem routeCall_upholds (host : Host) (call : RouteCall J) (hclean : ¬ Creator w i) :
    Upholds (EndsWell i) i (call.prog host) w := by
  cases call with
  | mint admin jti email role targetL2Id ttlHours =>
      refine CreatesNothing.endsWell (.call (fun _ _ => rfl) fun (user : Option Account) => ?_)
        hclean
      cases user with
      | none => exact .done
      | some u =>
          exact (mintInvite_createsNothing jti email role targetL2Id u.id ttlHours).bind
            fun _ => .done
  | claim token password => exact claimInviteRoute_upholds host token password hclean
  | revoke admin inviteId =>
      refine CreatesNothing.endsWell (.call (fun _ _ => rfl) fun (user : Option Account) => ?_)
        hclean
      cases user with
      | none => exact .done
      | some u => exact (revokeInvite_createsNothing inviteId).bind fun _ => .done
  | tick d =>
      exact CreatesNothing.endsWell (.call (fun _ _ => rfl) fun (_ : Unit) => .done) hclean

/-- A request that is cut off ends no worse. -/
theorem cutOff_upholds {p : InviteProg J RouteAnswer} (h : Upholds (EndsWell i) i p w) (n : Nat) :
    Upholds (EndsWell i) i (cutOff n p) w := by
  induction n generalizing p w with
  | zero =>
      intro w' _ hseen hok
      refine ⟨fun username hcreated => ?_, fun r hr => nomatch hr⟩
      obtain ⟨e, he, htask, hname⟩ := (created_exec_iff (q := .crash) rfl).mp hcreated
      exact (hok e he htask username hname).exec .crash
  | succ n ih =>
      cases p with
      | done a => exact h
      | call q k =>
          intro w' hinv hseen hok
          exact ih (h w' hinv hseen hok)

theorem request_upholds (host : Host) (r : Request J) (hclean : ¬ Creator w i) :
    Upholds (EndsWell i) i (r.prog host) w := by
  unfold Request.prog
  split
  · exact routeCall_upholds host r.call hclean
  · exact cutOff_upholds (routeCall_upholds host r.call hclean) _

end Requests

/-! ## The accounts of a run -/

/-- Of every request that has ended: for an account that it has created exactly one invite is
claimed, and if it was refused it has created none. -/
def FromClaimedInvites (c : Config InviteStore (InviteStmt.Answer (J := J)) RouteAnswer) : Prop :=
  ∀ i a, c.Answered i a →
    (∀ username, Created c.world i username → ∃ u, c.world.db.users.find username = some u ∧
      ∃! inv, inv ∈ c.world.db.invites ∧ inv.claimedBy = some u.id) ∧
    ∀ r, a = .refused r → ∀ username, ¬ Created c.world i username

theorem requests_hold (host : Host) (s : InviteStore) (requests : List (Request J))
    {schedule : List Nat}
    (hmeets : (routesStart host s requests).Meets (Config.NextIn Undisturbed) schedule) :
    AccountInv ((routesStart host s requests).run schedule).world ∧
      ∀ i a, ((routesStart host s requests).run schedule).Answered i a →
        ∃ w, SeenBy i w ((routesStart host s requests).run schedule).world ∧ EndsWell i a w := by
  refine Config.run_upholds SeenBy.refl (fun i w₁ w₂ w₃ h h' => SeenBy.trans h h')
    (fun i q w hinv hok => accountInv_exec hinv hok)
    (fun i j q w hne => seenBy_exec hne q w) (accountInv_start s) (fun i p hp => ?_) hmeets
  obtain ⟨r, -, rfl⟩ := List.mem_map.mp (List.mem_of_getElem? hp)
  refine ⟨⟨s, []⟩, SeenBy.refl i _, request_upholds host r ?_⟩
  intro hcreator
  obtain ⟨e, he, -⟩ := hcreator
  cases he

theorem fromClaimedInvites_run (host : Host) (s : InviteStore) (requests : List (Request J))
    {schedule : List Nat}
    (hmeets : (routesStart host s requests).Meets (Config.NextIn Undisturbed) schedule) :
    FromClaimedInvites ((routesStart host s requests).run schedule) := by
  intro i a hanswered
  obtain ⟨hinv, hends⟩ := requests_hold host s requests hmeets
  obtain ⟨w, hseen, hwell⟩ := hends i a hanswered
  constructor
  · intro username hcreated
    obtain ⟨u, hu, -, hunique⟩ := hinv.created i username hcreated
    -- what the request has claimed is claimed to this day
    obtain ⟨u', hu', e, he, -, p, hp, hfor⟩ :=
      (hwell.claimed username (hseen.created.mp hcreated)).later hseen
    cases hu.symm.trans hu'
    obtain ⟨inv, hfind, -, hby⟩ := hinv.claimed e he p hp
    rw [hfor] at hby
    have hmem := (Table.find_eq_some_iff.mp hfind).1
    exact ⟨u, hu, inv, ⟨hmem, hby⟩, fun inv' h' => hunique inv' h'.1 inv hmem h'.2 hby⟩
  · intro r hr username hcreated
    exact hwell.unrefused r hr (hseen.created.mp hcreated).creator

/-- **Accounts come from claimed invites.** No request changes a user that is there. In every
run in which a request that has created an account is left alone until it has claimed, and
no account gets a second invite, every account has exactly one claimed invite, and a
refused request has created none. -/
theorem accounts_from_invites (host : Host) (s : InviteStore) (requests : List (Request J))
    (earlier later : List Nat) :
    (∀ u ∈ ((routesStart host s requests).run earlier).world.db.users,
        u ∈ ((routesStart host s requests).run (earlier ++ later)).world.db.users) ∧
      ((routesStart host s requests).Meets (Config.NextIn Undisturbed) (earlier ++ later) →
        FromClaimedInvites ((routesStart host s requests).run (earlier ++ later))) := by
  refine ⟨fun u hu => ?_, fun hmeets => fromClaimedInvites_run host s requests hmeets⟩
  rw [Config.run_append]
  have hlater := later_run ((routesStart host s requests).run earlier) later
  exact (Table.find_eq_some_iff.mp (hlater.users _ _ (Table.find_key hu))).1

/-! ### A claim that is overtaken

One request claims the invite of `bob@acme`; another revokes it. -/

instance (i : Nat) (q : InviteStmt J) (w : InviteWorld J) : Decidable (Undisturbed i q w) :=
  have hcreator : Decidable (Creator w i) := inferInstanceAs (Decidable (∃ e ∈ w.log, _))
  have hfrom : ∀ userId, Decidable (FromInvite w userId) := fun userId =>
    inferInstanceAs (Decidable (∃ e ∈ w.log, _))
  have hclaimed : ∀ username, Decidable (HasClaimed w i username) := fun username =>
    inferInstanceAs (Decidable (∃ u ∈ w.db.users.find username, _))
  match q with
  | .decodeJwt _ | .statusOf _ => inferInstanceAs (Decidable (_ → _))
  | .claim _ _ _ => inferInstanceAs (Decidable (_ ∧ _))
  | .crash => inferInstanceAs (Decidable (∀ e ∈ w.log, _))
  | .tick _ | .readClock | .decodeLoose _ | .insertInvite _ _ _ _ _ _ _ | .byJti _ | .byId _
  | .revoke _ _ | .getUser _ | .createUser _ _ _ _ | .getPersona _ =>
      inferInstanceAs (Decidable True)

/-- An L2 without a tenancy of its own. -/
def sampleHost : Host where
  hashPassword password := password
  env := ⟨fun _ => none⟩

/-- A claim and a revocation; neither is cut off. -/
def claimThenRevoke : List (Request sampleJwt) :=
  [⟨.claim "j1" "secret", none⟩, ⟨.revoke "alice" 1, none⟩]

/-- The claim by itself makes an account of its invite. -/
theorem accounts_from_invites_sample :
    FromClaimedInvites ((routesStart sampleHost sampleStore claimThenRevoke).run
      ([] ++ [0, 0, 0, 0, 0, 0, 0, 0, 0, 0, 0, 0, 0])) :=
  (accounts_from_invites sampleHost sampleStore claimThenRevoke []
    [0, 0, 0, 0, 0, 0, 0, 0, 0, 0, 0, 0, 0]).2 (by decide +kernel)

/-- The invite is revoked when the account is there: the claim is refused, and the account
stays. -/
theorem refused_with_account :
    ((routesStart sampleHost sampleStore claimThenRevoke).run
        [0, 0, 0, 0, 0, 0, 1, 1, 1, 1, 1, 0, 0, 0]).Answered 0 (.refused .revoked) ∧
      ((routesStart sampleHost sampleStore claimThenRevoke).run
        [0, 0, 0, 0, 0, 0, 1, 1, 1, 1, 1, 0, 0, 0]).world.db.users.find "bob@acme" ≠ none ∧
      ¬ FromClaimedInvites ((routesStart sampleHost sampleStore claimThenRevoke).run
        [0, 0, 0, 0, 0, 0, 1, 1, 1, 1, 1, 0, 0, 0]) := by
  have hrefused : ((routesStart sampleHost sampleStore claimThenRevoke).run
      [0, 0, 0, 0, 0, 0, 1, 1, 1, 1, 1, 0, 0, 0]).Answered 0 (.refused .revoked) :=
    Config.answered_iff_result.mpr (by decide +kernel)
  refine ⟨hrefused, by decide +kernel, fun hfrom => ?_⟩
  have hcreated : ∃ e ∈ ((routesStart sampleHost sampleStore claimThenRevoke).run
      [0, 0, 0, 0, 0, 0, 1, 1, 1, 1, 1, 0, 0, 0]).world.log,
        e.task = 0 ∧ createdName e = some "bob@acme" := by
    decide +kernel
  exact (hfrom 0 _ hrefused).2 _ rfl "bob@acme" hcreated

end EighthLayer.Invites
