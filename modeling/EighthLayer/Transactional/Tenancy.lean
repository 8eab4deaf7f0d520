import EighthLayer.Transactional.Send

/-!
# EighthLayer.Transactional.Tenancy

The tables that the tenancy check reads, as the server writes them.

Only `create_persona` gives a user an address, and only to a stub that it has just created, which
has the tenancy of the schema's defaults. So whoever has an address is of one tenancy
(`run_oneTenancy`), and it does not matter which row the check takes (`enforceTenancy_iff`). An
invite is pending as long as it is neither claimed nor revoked, whatever its expiry.
-/

namespace EighthLayer.Transactional

open Lib Knowledge

/-! ## The tables -/

/-- A row of `users`, with the name that it is inserted under. -/
structure Account extends UserRow where
  username : String

/-- A row of `invites`, with its key and its expiry. -/
structure DatedInvite extends InviteRow where
  id : Nat
  expiresAt : Int

/-- The two tables, with the last ids given out. -/
structure TenancyTables where
  accounts : List Account
  invites : List DatedInvite
  lastUserId : Nat
  lastInviteId : Nat

def TenancyTables.empty : TenancyTables := ⟨[], [], 0, 0⟩

def TenancyTables.users (d : TenancyTables) : List UserRow := d.accounts.map Account.toUserRow

def TenancyTables.inviteRows (d : TenancyTables) : List InviteRow := d.invites.map DatedInvite.toInviteRow

/-- The `server_default` of the tenancy columns. -/
def defaultEnterprise : String := "default-enterprise"
def defaultGroup : String := "default-group"

/-- What the server writes into them. -/
inductive Write where
  /-- `create_user`, by any caller; `none` leaves the tenancy to the defaults. -/
  | createUser (username : String) (tenancy : Option (String × String))
  /-- `set_user_email`, of a stub that `create_persona` has created without a tenancy. -/
  | setStubEmail (username email : String)
  /-- `mint_invite`. -/
  | mintInvite (email : String) (issuedBy : Nat) (expiresAt : Int)
  /-- The UPDATE of `claim_invite`. -/
  | claimInvite (id : Nat) (claimedAt : String)
  /-- The UPDATE of `revoke_invite`. -/
  | revokeInvite (id : Nat) (revokedAt : String)

/-- The row is the stub of that name. -/
def Account.isStub (username : String) (a : Account) : Bool :=
  a.username = username && a.enterpriseId = defaultEnterprise && a.groupId = defaultGroup

/-- An UPDATE of the open invite with that id. -/
def TenancyTables.updateInvite (d : TenancyTables) (id : Nat) (f : DatedInvite → DatedInvite) : TenancyTables :=
  { d with
    invites := d.invites.map fun i =>
      if i.id = id ∧ i.claimedAt = none ∧ i.revokedAt = none then f i else i }

/-- One write; an `IntegrityError` leaves the tables as they are. -/
def TenancyTables.write (d : TenancyTables) : Write → TenancyTables
  | .createUser username tenancy =>
      if d.accounts.any (fun a => a.username = username) then d
      else
        let (enterpriseId, groupId) := tenancy.getD (defaultEnterprise, defaultGroup)
        { d with
          accounts := d.accounts ++ [⟨⟨d.lastUserId + 1, none, enterpriseId, groupId⟩, username⟩]
          lastUserId := d.lastUserId + 1 }
  -- the unique index compares addresses as they are
  | .setStubEmail username email =>
      if d.accounts.any (fun a => a.email = some email && a.username ≠ username) then d
      else
        { d with
          accounts := d.accounts.map fun a =>
            if a.isStub username then { a with email := some email } else a }
  | .mintInvite email issuedBy expiresAt =>
      { d with
        invites := d.invites ++ [⟨⟨email, issuedBy, none, none⟩, d.lastInviteId + 1, expiresAt⟩]
        lastInviteId := d.lastInviteId + 1 }
  | .claimInvite id claimedAt =>
      d.updateInvite id fun i => { i with claimedAt := some claimedAt }
  -- `revoke_invite` asks for `revoked_at IS NULL` only
  | .revokeInvite id revokedAt =>
      { d with
        invites := d.invites.map fun i =>
          if i.id = id ∧ i.revokedAt = none then { i with revokedAt := some revokedAt } else i }

/-- The tables after some writes. -/
def TenancyTables.run (writes : List Write) : TenancyTables := writes.foldl TenancyTables.write .empty

/-! ## One tenancy -/

/-- Whoever has an address has the default tenancy. -/
def TenancyTables.OneTenancy (d : TenancyTables) : Prop :=
  ∀ a ∈ d.accounts, a.email ≠ none → a.enterpriseId = defaultEnterprise ∧ a.groupId = defaultGroup

/-- **The step lemma.** -/
theorem write_oneTenancy {d : TenancyTables} (h : d.OneTenancy) (w : Write) :
    (d.write w).OneTenancy := by
  cases w with
  | createUser username tenancy =>
      unfold TenancyTables.write
      dsimp only
      split
      · exact h
      · intro a ha hemail
        rcases List.mem_append.mp ha with ha | ha
        · exact h a ha hemail
        · rw [List.mem_singleton.mp ha] at hemail
          exact absurd rfl hemail
  | setStubEmail username email =>
      unfold TenancyTables.write
      dsimp only
      split
      · exact h
      · intro a ha hemail
        obtain ⟨old, hold, rfl⟩ := List.mem_map.mp ha
        by_cases hstub : old.isStub username = true
        · rw [if_pos hstub]
          simp only [Account.isStub, Bool.and_eq_true, decide_eq_true_eq] at hstub
          exact ⟨hstub.1.2, hstub.2⟩
        · rw [if_neg hstub] at hemail ⊢
          exact h old hold hemail
  | mintInvite email issuedBy expiresAt => exact h
  | claimInvite id claimedAt => exact h
  | revokeInvite id revokedAt => exact h

/-- **The run lemma.** -/
theorem run_oneTenancy (writes : List Write) : (TenancyTables.run writes).OneTenancy := by
  have hfold : ∀ (writes : List Write) (d : TenancyTables), d.OneTenancy →
      (writes.foldl TenancyTables.write d).OneTenancy := by
    intro writes
    induction writes with
    | nil => exact fun d h => h
    | cons w writes ih => exact fun d h => ih (d.write w) (write_oneTenancy h w)
  exact hfold writes .empty fun a ha => absurd ha List.not_mem_nil

/-! ## The check -/

section Check

variable [Casing]

/-- One address up to letter case. -/
def SameAddress (address address' : String) : Prop := Casing.lower address = Casing.lower address'

/-- A user of the tenancy has the address. -/
def TenancyTables.HasUser (d : TenancyTables) (enterpriseId groupId recipient : String) : Prop :=
  ∃ u ∈ d.users, u.enterpriseId = enterpriseId ∧ u.groupId = groupId ∧
    ∃ email ∈ u.email, SameAddress email recipient

/-- The invite has been issued by a user of the tenancy. -/
def TenancyTables.IssuedBy (d : TenancyTables) (enterpriseId groupId : String) (i : DatedInvite) : Prop :=
  ∃ u ∈ d.users, u.id = i.issuedBy ∧ u.enterpriseId = enterpriseId ∧ u.groupId = groupId

/-- An invite of the tenancy to the address has been neither claimed nor revoked. -/
def TenancyTables.HasPendingInvite (d : TenancyTables) (enterpriseId groupId recipient : String) : Prop :=
  ∃ i ∈ d.invites, i.claimedAt = none ∧ i.revokedAt = none ∧
    d.IssuedBy enterpriseId groupId i ∧ SameAddress i.email recipient

/-- SQLite lowers each address of the tables as Python does: they differ on letters that are not
ASCII only. -/
structure TenancyTables.LowersAlike (d : TenancyTables) : Prop where
  users : ∀ u ∈ d.users, ∀ email ∈ u.email, sqlLower email = Casing.lower email
  invites : ∀ i ∈ d.invites, sqlLower i.email = Casing.lower i.email

theorem email_match_iff {u : UserRow} {recipient : String}
    (hlower : ∀ email ∈ u.email, sqlLower email = Casing.lower email) :
    u.email.map sqlLower = some (Casing.lower recipient) ↔
      ∃ email ∈ u.email, SameAddress email recipient := by
  rw [Option.map_eq_some_iff]
  constructor
  · rintro ⟨email, hemail, heq⟩
    exact ⟨email, hemail, (hlower email hemail).symm.trans heq⟩
  · rintro ⟨email, hemail, heq⟩
    exact ⟨email, hemail, (hlower email hemail).trans heq⟩

/-- The row that the check takes is of the tenancy. -/
def takesUser (users : List UserRow) (enterpriseId groupId recipient : String) : Bool :=
  (users.find? fun u => u.email.map sqlLower = some (Casing.lower recipient)).any fun u =>
    u.enterpriseId = enterpriseId && u.groupId = groupId

/-- The check finds an open invite. -/
def findsInvite (users : List UserRow) (invites : List InviteRow)
    (enterpriseId groupId recipient : String) : Bool :=
  invites.any fun i => sqlLower i.email = Casing.lower recipient && i.claimedAt.isNone &&
    i.revokedAt.isNone && users.any fun u =>
      u.id = i.issuedBy && u.enterpriseId = enterpriseId && u.groupId = groupId

theorem enforceTenancy_eq (users : List UserRow) (invites : List InviteRow)
    (enterpriseId groupId recipient : String) (category : Category) :
    enforceTenancy users invites enterpriseId groupId recipient category =
      (takesUser users enterpriseId groupId recipient ||
        (!category.userOnly && findsInvite users invites enterpriseId groupId recipient)) := by
  unfold enforceTenancy takesUser findsInvite
  dsimp only
  cases users.find? fun u => u.email.map sqlLower = some (Casing.lower recipient) with
  | none =>
      cases category.userOnly with
      | true => rfl
      | false => rfl
  | some u =>
      dsimp only [Option.any_some]
      by_cases htenancy : (u.enterpriseId = enterpriseId && u.groupId = groupId) = true
      · rw [if_pos htenancy, htenancy, Bool.true_or]
      · rw [if_neg htenancy, Bool.eq_false_iff.mpr htenancy, Bool.false_or]
        cases category.userOnly with
        | true => rfl
        | false => rfl

/-- The row that the check takes is as good as any. -/
theorem takesUser_iff {d : TenancyTables} (hone : d.OneTenancy) (hlower : d.LowersAlike)
    (enterpriseId groupId recipient : String) :
    takesUser d.users enterpriseId groupId recipient = true ↔
      d.HasUser enterpriseId groupId recipient := by
  have htenancy : ∀ u ∈ d.users, u.email ≠ none →
      u.enterpriseId = defaultEnterprise ∧ u.groupId = defaultGroup := by
    intro u hu hemail
    obtain ⟨a, ha, rfl⟩ := List.mem_map.mp hu
    exact hone a ha hemail
  unfold takesUser
  cases hfind : d.users.find? fun u => u.email.map sqlLower = some (Casing.lower recipient) with
  | none =>
      simp only [Option.any_none, Bool.false_eq_true, false_iff]
      rintro ⟨u, hu, -, -, hemail⟩
      have hno := List.find?_eq_none.mp hfind u hu
      exact hno (decide_eq_true ((email_match_iff (hlower.users u hu)).mpr hemail))
  | some u =>
      have hu := List.mem_of_find?_eq_some hfind
      have hfound := List.find?_some hfind
      obtain ⟨email, hemail, hsame⟩ :=
        (email_match_iff (hlower.users u hu)).mp (of_decide_eq_true hfound)
      have hdefault := htenancy u hu (by rw [hemail]; exact Option.some_ne_none email)
      simp only [Option.any_some, Bool.and_eq_true, decide_eq_true_eq]
      constructor
      · rintro ⟨hent, hgrp⟩
        exact ⟨u, hu, hent, hgrp, email, hemail, hsame⟩
      · rintro ⟨u', hu', hent, hgrp, email', hemail', -⟩
        have hdefault' := htenancy u' hu' (by rw [hemail']; exact Option.some_ne_none email')
        exact ⟨hdefault.1.trans (hdefault'.1.symm.trans hent),
          hdefault.2.trans (hdefault'.2.symm.trans hgrp)⟩

theorem findsInvite_iff {d : TenancyTables} (hlower : d.LowersAlike)
    (enterpriseId groupId recipient : String) :
    findsInvite d.users d.inviteRows enterpriseId groupId recipient = true ↔
      d.HasPendingInvite enterpriseId groupId recipient := by
  unfold findsInvite TenancyTables.inviteRows
  simp only [List.any_map, List.any_eq_true, Function.comp, Bool.and_eq_true, decide_eq_true_eq,
    Option.isNone_iff_eq_none]
  constructor
  · rintro ⟨i, hi, ⟨⟨hemail, hclaimed⟩, hrevoked⟩, u, hu, ⟨hid, hent⟩, hgrp⟩
    exact ⟨i, hi, hclaimed, hrevoked, ⟨u, hu, hid, hent, hgrp⟩,
      (hlower.invites i hi).symm.trans hemail⟩
  · rintro ⟨i, hi, hclaimed, hrevoked, ⟨u, hu, hid, hent, hgrp⟩, hsame⟩
    exact ⟨i, hi, ⟨⟨(hlower.invites i hi).trans hsame, hclaimed⟩, hrevoked⟩,
      u, hu, ⟨hid, hent⟩, hgrp⟩

/-- **The tenancy check.** Over tables that the server has written, a send is allowed exactly if a
user of the caller's tenancy has the address up to letter case, or, in the categories that admit
invitees, an invite of that tenancy that is neither claimed nor revoked has it. -/
theorem enforceTenancy_iff (writes : List Write) (hlower : (TenancyTables.run writes).LowersAlike)
    (enterpriseId groupId recipient : String) (category : Category) :
    enforceTenancy (TenancyTables.run writes).users (TenancyTables.run writes).inviteRows enterpriseId
        groupId recipient category = true ↔
      (TenancyTables.run writes).HasUser enterpriseId groupId recipient ∨
        (category.userOnly = false ∧
          (TenancyTables.run writes).HasPendingInvite enterpriseId groupId recipient) := by
  rw [enforceTenancy_eq, Bool.or_eq_true, Bool.and_eq_true, Bool.not_eq_true',
    takesUser_iff (run_oneTenancy writes) hlower, findsInvite_iff hlower]

end Check

/-! ### An admin and an invite

The admin of the L2 `acme/ops` invites Bob. -/

/-- The invite expires at 100. -/
def tenancyWrites : List Write :=
  [.createUser "admin" (some ("acme", "ops")), .mintInvite "bob@acme.io" 1 100]

local instance tenancyCasing : Casing := asciiCasing

/-- Bob may be written to. -/
theorem enforceTenancy_sample :
    enforceTenancy (TenancyTables.run tenancyWrites).users
      (TenancyTables.run tenancyWrites).inviteRows "acme" "ops" "Bob@Acme.io" .inviteMagicLink =
        true := by
  have hlower : (TenancyTables.run tenancyWrites).LowersAlike :=
    ⟨fun _ _ _ _ => rfl, fun _ _ => rfl⟩
  refine (enforceTenancy_iff tenancyWrites hlower _ _ _ _).mpr (.inr ⟨rfl, ?_⟩)
  refine ⟨⟨⟨"bob@acme.io", 1, none, none⟩, 1, 100⟩, List.mem_singleton.mpr rfl, rfl, rfl, ?_, ?_⟩
  · exact ⟨⟨1, none, "acme", "ops"⟩, List.mem_singleton.mpr rfl, rfl, rfl, rfl⟩
  · exact (by decide +kernel : Casing.lower "bob@acme.io" = Casing.lower "Bob@Acme.io")

/-- Python's lower case, as far as the letter `É`. -/
abbrev accentCasing : Casing :=
  ⟨fun s => String.ofList (s.toList.map fun c => if c = 'É' then 'é' else c.toLower)⟩

/-- A stub with the address of Émile. -/
def accentWrites : List Write :=
  [.createUser "emile" none, .setStubEmail "emile" "É@acme.io"]

/-- At 200 the invite has expired, and nobody has Bob's address; still he may be written to. And the
user whose address is Émile's may not be written to at that very address. -/
theorem expired_invite_admits :
    ((TenancyTables.run tenancyWrites).users.map UserRow.email = [none] ∧
      (TenancyTables.run tenancyWrites).invites.map DatedInvite.expiresAt = [100] ∧
      (100 : Int) ≤ 200 ∧
      enforceTenancy (TenancyTables.run tenancyWrites).users
        (TenancyTables.run tenancyWrites).inviteRows "acme" "ops" "bob@acme.io" .inviteMagicLink =
          true) ∧
    (TenancyTables.run accentWrites).users.map
        (fun u => (u.email, u.enterpriseId, u.groupId)) =
      [(some "É@acme.io", "default-enterprise", "default-group")] ∧
    @enforceTenancy accentCasing (TenancyTables.run accentWrites).users
      (TenancyTables.run accentWrites).inviteRows "default-enterprise" "default-group" "É@acme.io"
        .accountEvent = false := by
  decide +kernel

end EighthLayer.Transactional
