import EighthLayer.Auth.KeyLimit
import EighthLayer.Lib.Crash
import EighthLayer.Lib.Trim

/-!
# EighthLayer.Auth.AgentKeys

Minting the key of an agent (`mint_agent_key`): a stub of a user, its persona and its key, each
written by a transaction of its own.

A request that is cut off leaves nothing behind exactly if that is before the stub's transaction.
Afterwards the name is taken (`mint_atomic_iff`).
-/

namespace EighthLayer.Auth

open Lib
open Aigrp (strip)
open Bootstrap (hashSecret secretPrefix parseTtl)
open Knowledge (Casing resolveTenancy)

section Mint

variable [Casing]

/-! ## The route -/

/-- The characters of a slug. -/
def isSlugChar (c : Char) : Bool := ('a' ≤ c && c ≤ 'z') || ('0' ≤ c && c ≤ '9')

/-- `re.sub(r"[^a-z0-9]+", "-", text)`, from where a run has begun or not. -/
def hyphenate (inRun : Bool) : List Char → List Char
  | [] => []
  | c :: s =>
    if isSlugChar c = true then c :: hyphenate false s
    else if inRun = true then hyphenate true s
    else '-' :: hyphenate true s

/-- `_SLUG_MAX`. -/
def slugMax : Nat := 48

/-- `_slugify_agent_name`; `none` is a 422. -/
def slugifyAgentName (agentName : String) : Option String :=
  let slug := trim (· = '-') (hyphenate false (Casing.lower (strip agentName)).toList)
  let slug := trim (· = '-') (slug.take slugMax)
  if slug = [] then none else some (String.ofList slug)

/-- `HarnessEnum`. -/
inductive Harness where
  | claudeCode
  | claudeDesktop
  | openclaw
  | other
deriving DecidableEq

def Harness.text : Harness → String
  | claudeCode => "claude-code"
  | claudeDesktop => "claude-desktop"
  | openclaw => "openclaw"
  | other => "other"

/-- `MintAgentKeyRequest`. -/
structure MintRequest where
  agentName : String
  harness : Harness
  ttl : String
deriving DecidableEq

/-- What the route answers. -/
inductive MintAnswer where
  /-- `MintAgentKeyResponse`. -/
  | minted (key : ApiKeyPublic) (agentUsername token enterpriseId l2 : String)
  /-- 422. -/
  | invalidTtl (ttl : String)
  /-- 422, "agent_name must contain at least one letter or digit". -/
  | invalidName
  /-- 409. -/
  | alreadyExists (agentName username : String)
  /-- 500, "agent user vanished after creation". -/
  | vanished
  /-- An exception that is not an `HTTPException`. -/
  | internalError
deriving DecidableEq

/-- The environment, what keys are set up with, and the hash of a stub's password. -/
structure MintSetup extends KeySetup where
  env : Environ
  stubHash : String

/-- The row of an agent's key. -/
def agentKey (setup : MintSetup) (draw : KeyDraw) (userId : Nat) (req : MintRequest)
    (expiresAt createdAt : Int) : ApiKey :=
  newKey setup.toKeySetup draw userId req.agentName req.ttl
    ["harness:" ++ req.harness.text, "persona:agent"] expiresAt createdAt

/-- The third step: the key of the stub. -/
def mintKey (setup : MintSetup) (draw : KeyDraw) (req : MintRequest) (duration : Int)
    (username enterpriseId groupId : String) : KeyProg MintAnswer :=
  .call (.getUser username) fun (newUser : Option KeyUser) =>
    match newUser with
    | none => .done .vanished
    | some u => .call .readClock fun (now : Int) =>
      .call .readClock fun (createdAt : Int) =>
        .call (.createKey (agentKey setup draw u.id req (now + duration) createdAt))
          fun (inserted : Bool) =>
            if inserted then .call .readClock fun (at_ : Int) =>
              .done (.minted (toPublic at_ (agentKey setup draw u.id req (now + duration) createdAt))
                username (encodeToken draw.keyId (generateSecret draw.raw)) enterpriseId groupId)
            else .done .internalError

/-- The second step: the persona of the stub. -/
def mintPersona (setup : MintSetup) (draw : KeyDraw) (admin : String) (req : MintRequest)
    (duration : Int) (username enterpriseId groupId : String) : KeyProg MintAnswer :=
  .call .readClock fun (now : Int) =>
    .call (.upsertAssignment username .agent now admin .created none) fun (assigned : Bool) =>
      if assigned then .call (.getAssignment username) fun (_ : Option Personas.Assignment) =>
        mintKey setup draw req duration username enterpriseId groupId
      else .done .internalError

/-- The name of an agent's stub, and the life of its key, of a request that is valid. -/
def MintRequest.validated (setup : MintSetup) (req : MintRequest) :
    Except MintAnswer (String × Int) :=
  match parseTtl setup.decimal req.ttl with
  | none => .error (.invalidTtl req.ttl)
  | some duration => match slugifyAgentName req.agentName with
    | none => .error .invalidName
    | some slug => .ok ("agent-" ++ slug, duration)

/-- `_resolve_admin_tenancy`. -/
def adminTenancy (env : Environ) (admin : Option KeyUser) : String × String :=
  let row : Knowledge.UserRow := ⟨admin.map KeyUser.enterpriseId, admin.map KeyUser.groupId⟩
  ((resolveTenancy env row).1, (resolveTenancy env row).2.1)

/-- `mint_agent_key`, with what it draws. -/
def mintAgentKey (setup : MintSetup) (draw : KeyDraw) (admin : String) (req : MintRequest) :
    KeyProg MintAnswer :=
  match req.validated setup with
  | .error answer => .done answer
  | .ok (username, duration) =>
    .call (.getUser username) fun (existing : Option KeyUser) =>
      match existing with
      | some _ => .done (.alreadyExists req.agentName username)
      | none => .call (.getUser admin) fun (adminUser : Option KeyUser) =>
        .call .readClock fun (createdAt : Int) =>
          .call (.createUser username setup.stubHash "user" (adminTenancy setup.env adminUser).1
            (adminTenancy setup.env adminUser).2 createdAt) fun (created : Bool) =>
              if created then mintPersona setup draw admin req duration username
                (adminTenancy setup.env adminUser).1 (adminTenancy setup.env adminUser).2
              else .done (.alreadyExists req.agentName username)

/-! ## What is left behind -/

/-- The tables of two stores are the same. -/
def SameTables (s s' : KeyStore) : Prop :=
  s'.users = s.users ∧ s'.assignments = s.assignments ∧ s'.audit = s.audit ∧ s'.keys = s.keys

/-- A request that is refused before anything is written. -/
def Refused (setup : MintSetup) (s : KeyStore) (req : MintRequest) : Prop :=
  ∀ username duration, req.validated setup = .ok (username, duration) →
    s.users.find username ≠ none

/-- One row more. -/
def OneMore {ρ : Type} (rows rows' : List ρ) : Prop := ∃ r, rows' = rows ++ [r]

/-- A key whose id and hash are not taken. -/
def FreshDraw (setup : MintSetup) (s : KeyStore) (draw : KeyDraw) : Prop :=
  s.keys.find (String.ofList draw.keyId.hex) = none ∧
    hashSecret (generateSecret draw.raw) setup.pepper ∉ s.keys.rows.map ApiKey.keyHash

omit [Casing] in
/-- Users are never removed. -/
theorem exec_keeps_user {username : String} {s : KeyStore} (h : s.users.find username ≠ none)
    (q : KeyStmt) : (q.exec s).2.users.find username ≠ none := by
  cases q with
  | createUser username' passwordHash role enterpriseId groupId createdAt =>
      cases hcreate : s.createUser username' passwordHash role enterpriseId groupId createdAt with
      | none => simpa only [KeyStmt.exec, hcreate, orUnchanged] using h
      | some s' =>
          obtain ⟨-, -, -, -, hnone, hrows⟩ := createUser_keys hcreate
          obtain ⟨u, hu⟩ := Option.ne_none_iff_exists'.mp h
          obtain ⟨hmem, hname⟩ := Table.find_eq_some_iff.mp hu
          have hmem' : u ∈ s'.users := by
            rw [Table.mem_def, hrows]
            exact List.mem_append_left _ hmem
          simp only [KeyStmt.exec, hcreate, orUnchanged]
          rw [Table.find_eq_some_iff.mpr ⟨hmem', hname⟩]
          exact Option.some_ne_none u
  | createKey k =>
      cases hcreate : s.createKey k with
      | none => simpa only [KeyStmt.exec, hcreate, orUnchanged] using h
      | some s' =>
          simp only [KeyStmt.exec, hcreate, orUnchanged]
          rw [(createKey_rows hcreate).2.2.1]
          exact h
  | upsertAssignment username' persona assignedAt assignedBy action oldPersona =>
      cases hupsert : s.upsertAssignment username' persona assignedAt assignedBy action oldPersona with
      | none => simpa only [KeyStmt.exec, hupsert, orUnchanged] using h
      | some s' =>
          simp only [KeyStmt.exec, hupsert, orUnchanged]
          rw [(upsertAssignment_keys hupsert).2.2.1]
          exact h
  | tick _ | readClock | getUser _ | countActive _ _ | getKey _ _ | revokeKey _ _ _
  | getAssignment _ => exact h

omit [Casing] in
/-- Nor are they by a program that is cut off. -/
theorem cut_keeps_user {α : Type} {username : String} {s : KeyStore}
    (h : s.users.find username ≠ none) (p : KeyProg α) (n : Nat) :
    (p.cut n s).users.find username ≠ none := by
  induction n generalizing p s with
  | zero =>
      cases p with
      | done a => exact h
      | call q k => exact h
  | succ n ih =>
      cases p with
      | done a => exact h
      | call q k => exact ih (exec_keeps_user h q) _

omit [Casing] in
/-- An insert of a user whose name is free. -/
theorem createUser_of_free {s : KeyStore} {username : String} (h : s.users.find username = none)
    (passwordHash role enterpriseId groupId : String) (createdAt : Int) :
    ∃ s', s.createUser username passwordHash role enterpriseId groupId createdAt = some s' := by
  cases hcreate : s.createUser username passwordHash role enterpriseId groupId createdAt with
  | some s' => exact ⟨s', rfl⟩
  | none =>
      exfalso
      unfold KeyStore.createUser at hcreate
      split at hcreate
      · rename_i hinsert
        obtain ⟨u, hu, hname⟩ := Table.insert_eq_none_iff.mp hinsert
        exact Table.find_eq_none_iff.mp h u hu hname
      · cases hcreate

omit [Casing] in
theorem find_of_createUser {s s' : KeyStore} {username passwordHash role ent grp : String}
    {createdAt : Int} (h : s.createUser username passwordHash role ent grp createdAt = some s') :
    s'.users.find username =
      some ⟨s.lastUserId + 1, username, passwordHash, role, ent, grp, createdAt⟩ := by
  refine Table.find_eq_some_iff.mpr ⟨?_, rfl⟩
  rw [Table.mem_def, (createUser_keys h).2.2.2.2.2]
  exact List.mem_append_right _ List.mem_cons_self

/-- A valid request whose name is free: three reads, the stub's transaction, and the rest. -/
theorem mintAgentKey_of_free {setup : MintSetup} {req : MintRequest} {s : KeyStore}
    {username : String} {duration : Int} (draw : KeyDraw) (admin : String)
    (hvalid : req.validated setup = .ok (username, duration))
    (hfree : s.users.find username = none) :
    ∃ s₁ ent grp, s.createUser username setup.stubHash "user" ent grp s.clock = some s₁ ∧
      (∀ n, (mintAgentKey setup draw admin req).cut n s =
        if n ≤ 3 then s
        else (mintPersona setup draw admin req duration username ent grp).cut (n - 4) s₁) ∧
      (mintAgentKey setup draw admin req).alone s =
        (mintPersona setup draw admin req duration username ent grp).alone s₁ := by
  obtain ⟨s₁, hs₁⟩ := createUser_of_free hfree setup.stubHash "user"
    (adminTenancy setup.env (s.users.find admin)).1 (adminTenancy setup.env (s.users.find admin)).2
    s.clock
  have hexec : Database.exec (A := KeyStmt.Answer) (.createUser username setup.stubHash "user"
      (adminTenancy setup.env (s.users.find admin)).1
      (adminTenancy setup.env (s.users.find admin)).2 s.clock) s = (true, s₁) := by
    show orUnchanged s _ = _
    rw [hs₁]
    rfl
  have hread : ∀ username, Database.exec (A := KeyStmt.Answer) (.getUser username) s =
      (s.users.find username, s) := fun _ => rfl
  have hclock : Database.exec (A := KeyStmt.Answer) .readClock s = (s.clock, s) := rfl
  refine ⟨s₁, _, _, hs₁, fun n => ?_, ?_⟩
  · unfold mintAgentKey
    rw [hvalid]
    match n with
    | 0 => rfl
    | 1 => rw [if_pos (by omega), Prog.cut, hread, hfree]; rfl
    | 2 => rw [if_pos (by omega), Prog.cut, hread, hfree, Prog.cut, hread]; rfl
    | 3 => rw [if_pos (by omega), Prog.cut, hread, hfree, Prog.cut, hread, Prog.cut, hclock]; rfl
    | n + 4 =>
        rw [if_neg (by omega), Prog.cut, hread, hfree, Prog.cut, hread, Prog.cut, hclock, Prog.cut,
          hexec]
        rfl
  · unfold mintAgentKey
    rw [hvalid]
    dsimp only
    rw [Prog.alone_call, hread, hfree]
    dsimp only
    rw [Prog.alone_call, hread, Prog.alone_call, hclock, Prog.alone_call, hexec]
    rfl

omit [Casing] in
/-- The persona of a stub that has none, and then its key. -/
theorem mintPersona_alone (setup : MintSetup) (draw : KeyDraw) (admin : String) (req : MintRequest)
    (ent grp : String) (duration : Int) {s : KeyStore} {username : String} {u : KeyUser}
    (huser : s.users.find username = some u) (hnone : s.assignments.find username = none) :
    ∃ s₂, s₂.users = s.users ∧ s₂.keys = s.keys ∧ s₂.clock = s.clock ∧
      s₂.assignments.rows = s.assignments.rows ++ [⟨username, .agent, s.clock, admin, none⟩] ∧
      (mintPersona setup draw admin req duration username ent grp).alone s =
        (mintKey setup draw req duration username ent grp).alone s₂ := by
  obtain ⟨s₂, hs₂⟩ : ∃ s₂, s.upsertAssignment username .agent s.clock admin .created none =
      some s₂ := by
    unfold KeyStore.upsertAssignment
    rw [dif_neg (by rw [huser]; exact Option.some_ne_none u)]
    exact ⟨_, rfl⟩
  obtain ⟨hkeys, hclock, husers, hassignments⟩ := upsertAssignment_keys hs₂
  have hexec : Database.exec (A := KeyStmt.Answer)
      (.upsertAssignment username .agent s.clock admin .created none) s = (true, s₂) := by
    show orUnchanged s _ = _
    rw [hs₂]
    rfl
  have hread : Database.exec (A := KeyStmt.Answer) .readClock s = (s.clock, s) := rfl
  refine ⟨s₂, husers, hkeys, hclock, ?_, ?_⟩
  · rw [hassignments]
    exact Table.rows_upsert_of_none hnone
  · unfold mintPersona
    rw [Prog.alone_call, hread, Prog.alone_call, hexec]
    rfl

omit [Casing] in
/-- The key of a stub. -/
theorem mintKey_alone {setup : MintSetup} {draw : KeyDraw} {req : MintRequest} {s : KeyStore}
    {username ent grp : String} {duration : Int} {u : KeyUser}
    (huser : s.users.find username = some u) :
    (mintKey setup draw req duration username ent grp).alone s =
      match s.createKey (agentKey setup draw u.id req (s.clock + duration) s.clock) with
      | none => (.internalError, s)
      | some s₃ => (.minted (toPublic s₃.clock
            (agentKey setup draw u.id req (s.clock + duration) s.clock)) username
          (encodeToken draw.keyId (generateSecret draw.raw)) ent grp, s₃) := by
  have hget : Database.exec (A := KeyStmt.Answer) (.getUser username) s = (some u, s) := by
    rw [← huser]
    rfl
  have hread : Database.exec (A := KeyStmt.Answer) .readClock s = (s.clock, s) := rfl
  unfold mintKey
  rw [Prog.alone_call, hget]
  dsimp only
  rw [Prog.alone_call, hread, Prog.alone_call, hread, Prog.alone_call]
  have hexec : Database.exec (A := KeyStmt.Answer) (.createKey
      (agentKey setup draw u.id req (s.clock + duration) s.clock)) s =
      orUnchanged s (s.createKey (agentKey setup draw u.id req (s.clock + duration) s.clock)) := rfl
  rw [hexec]
  cases s.createKey (agentKey setup draw u.id req (s.clock + duration) s.clock) with
  | none => rfl
  | some s₃ => rfl

omit [Casing] in
/-- A key of a user is inserted exactly if it is fresh. -/
theorem createKey_isSome_iff {s : KeyStore} {k : ApiKey} (huser : ∃ u ∈ s.users, u.id = k.userId) :
    (∃ s', s.createKey k = some s') ↔
      s.keys.find k.id = none ∧ k.keyHash ∉ s.keys.rows.map ApiKey.keyHash := by
  unfold KeyStore.createKey
  have huser' : ∃ u ∈ s.users.rows, u.id = k.userId := huser
  rw [dif_pos huser']
  constructor
  · rintro ⟨s', h⟩
    split at h
    · cases h
    · rename_i hhash
      split at h
      · cases h
      · rename_i keys hkeys
        exact ⟨Table.find_none_of_insert hkeys, hhash⟩
  · rintro ⟨hid, hhash⟩
    rw [dif_neg hhash]
    split
    · rename_i hnone
      obtain ⟨k', hk', heq⟩ := Table.insert_eq_none_iff.mp hnone
      exact absurd heq (Table.find_eq_none_iff.mp hid k' hk')
    · exact ⟨_, rfl⟩

omit [Casing] in
theorem cut_done {α : Type} (a : α) (n : Nat) (s : KeyStore) :
    (Prog.done a : KeyProg α).cut n s = s := by
  cases n with
  | zero => rfl
  | succ n => rfl

/-- A request that is refused leaves everything as it is. -/
theorem mintAgentKey_of_refused {setup : MintSetup} {req : MintRequest} {s : KeyStore}
    (h : Refused setup s req) (draw : KeyDraw) (admin : String) :
    (∀ n, (mintAgentKey setup draw admin req).cut n s = s) ∧
      (∀ key username token ent grp,
        ((mintAgentKey setup draw admin req).alone s).1 ≠ .minted key username token ent grp) := by
  unfold mintAgentKey
  cases hvalid : req.validated setup with
  | error answer =>
      refine ⟨fun n => cut_done answer n s, fun key username token ent grp heq => ?_⟩
      unfold MintRequest.validated at hvalid
      split at hvalid
      · cases hvalid
        cases heq
      · split at hvalid
        · cases hvalid
          cases heq
        · cases hvalid
  | ok result =>
      obtain ⟨username, duration⟩ := result
      obtain ⟨u, hu⟩ := Option.ne_none_iff_exists'.mp (h username duration hvalid)
      have hread : Database.exec (A := KeyStmt.Answer) (.getUser username) s = (some u, s) := by
        rw [← hu]
        rfl
      constructor
      · intro n
        cases n with
        | zero => rfl
        | succ n =>
            dsimp only
            rw [Prog.cut, hread]
            exact cut_done _ n s
      · intro key username' token ent grp
        dsimp only
        rw [Prog.alone_call, hread]
        exact fun heq => nomatch heq

/-- A request that is not refused is answered with a key exactly if it has drawn a fresh one. Then
there is one row more in each table. -/
theorem mintAgentKey_alone {setup : MintSetup} {draw : KeyDraw} {admin : String}
    {req : MintRequest} {s : KeyStore} {username : String} {duration : Int}
    (hvalid : req.validated setup = .ok (username, duration))
    (hfree : s.users.find username = none) :
    ((∃ key username token ent grp,
        ((mintAgentKey setup draw admin req).alone s).1 = .minted key username token ent grp) ↔
      FreshDraw setup s draw) ∧
    ((∃ key username token ent grp,
        ((mintAgentKey setup draw admin req).alone s).1 = .minted key username token ent grp) →
      OneMore s.users.rows ((mintAgentKey setup draw admin req).alone s).2.users.rows ∧
      OneMore s.assignments.rows ((mintAgentKey setup draw admin req).alone s).2.assignments.rows ∧
      OneMore s.keys.rows ((mintAgentKey setup draw admin req).alone s).2.keys.rows) := by
  obtain ⟨s₁, ent, grp, hs₁, -, halone⟩ := mintAgentKey_of_free draw admin hvalid hfree
  obtain ⟨hkeys₁, -, hassigned₁, -, -, husers₁⟩ := createUser_keys hs₁
  have hstub := find_of_createUser hs₁
  have hnone : s₁.assignments.find username = none := by
    rw [hassigned₁]
    refine Table.find_eq_none_iff.mpr fun a ha heq => s.assigned_user a ha ?_
    rw [heq]
    exact hfree
  obtain ⟨s₂, husers₂, hkeys₂, -, hassigned₂, halone₂⟩ :=
    mintPersona_alone setup draw admin req ent grp duration hstub hnone
  rw [halone, halone₂, mintKey_alone (husers₂ ▸ hstub)]
  have hfresh := createKey_isSome_iff (s := s₂) (k := agentKey setup draw (s.lastUserId + 1) req
    (s₂.clock + duration) s₂.clock) ⟨_, husers₂ ▸ (Table.find_eq_some_iff.mp hstub).1, by
      rw [agentKey, newKey_userId]⟩
  rw [agentKey, newKey_id, newKey_keyHash, hkeys₂, hkeys₁, ← agentKey] at hfresh
  cases hcreate : s₂.createKey (agentKey setup draw (s.lastUserId + 1) req (s₂.clock + duration)
      s₂.clock) with
  | none =>
      rw [hcreate] at hfresh
      refine ⟨⟨?_, fun h => ?_⟩, ?_⟩
      · rintro ⟨key, username', token, ent', grp', heq⟩
        cases heq
      · obtain ⟨s₃, hs₃⟩ := hfresh.mpr h
        cases hs₃
      · rintro ⟨key, username', token, ent', grp', heq⟩
        cases heq
  | some s₃ =>
      obtain ⟨hkeys₃, -, husers₃, hassigned₃, -⟩ := createKey_rows hcreate
      refine ⟨⟨fun _ => hfresh.mp ⟨s₃, hcreate⟩, fun _ => ⟨_, _, _, _, _, rfl⟩⟩, fun _ => ⟨?_, ?_, ?_⟩⟩
      · exact ⟨_, by rw [husers₃, husers₂, husers₁]⟩
      · exact ⟨_, by rw [hassigned₃, hassigned₂, hassigned₁]⟩
      · exact ⟨_, by rw [hkeys₃, hkeys₂, hkeys₁]⟩

/-- **Minting a key.** A request that is cut off leaves the tables as they were exactly if that is
before the transaction of the stub, or the request is refused. Afterwards every request for the
name is refused. A request is answered with a key exactly if it is not refused and draws a fresh
one; then there is one user, one assignment and one key more. -/
theorem mint_atomic_iff (setup : MintSetup) (draw : KeyDraw) (admin : String) (req : MintRequest)
    (s : KeyStore) :
    (∀ n, SameTables s ((mintAgentKey setup draw admin req).cut n s) ↔
      n ≤ 3 ∨ Refused setup s req) ∧
    (∀ n username duration, req.validated setup = .ok (username, duration) → 3 < n →
      ∀ draw' admin' req' duration', req'.validated setup = .ok (username, duration') →
        ((mintAgentKey setup draw' admin' req').alone
          ((mintAgentKey setup draw admin req).cut n s)).1 =
            .alreadyExists req'.agentName username) ∧
    ((∃ key username token ent grp,
        ((mintAgentKey setup draw admin req).alone s).1 = .minted key username token ent grp) ↔
      ¬ Refused setup s req ∧ FreshDraw setup s draw) ∧
    ((∃ key username token ent grp,
        ((mintAgentKey setup draw admin req).alone s).1 = .minted key username token ent grp) →
      OneMore s.users.rows ((mintAgentKey setup draw admin req).alone s).2.users.rows ∧
      OneMore s.assignments.rows ((mintAgentKey setup draw admin req).alone s).2.assignments.rows ∧
      OneMore s.keys.rows ((mintAgentKey setup draw admin req).alone s).2.keys.rows) := by
  have htaken : ∀ {s' : KeyStore} {username : String} {duration' : Int} {req' : MintRequest}
      (draw' : KeyDraw) (admin' : String), req'.validated setup = .ok (username, duration') →
      s'.users.find username ≠ none →
        ((mintAgentKey setup draw' admin' req').alone s').1 =
          .alreadyExists req'.agentName username := by
    intro s' username duration' req' draw' admin' hvalid' hne
    obtain ⟨u, hu⟩ := Option.ne_none_iff_exists'.mp hne
    have hread : Database.exec (A := KeyStmt.Answer) (.getUser username) s' = (some u, s') := by
      rw [← hu]
      rfl
    unfold mintAgentKey
    rw [hvalid']
    dsimp only
    rw [Prog.alone_call, hread]
    rfl
  by_cases hrefused : Refused setup s req
  · obtain ⟨hcut, hanswer⟩ := mintAgentKey_of_refused hrefused draw admin
    refine ⟨fun n => ?_, ?_, ?_, ?_⟩
    · rw [hcut]
      exact iff_of_true ⟨rfl, rfl, rfl, rfl⟩ (.inr hrefused)
    · intro n username duration hvalid _ draw' admin' req' duration' hvalid'
      rw [hcut]
      exact htaken draw' admin' hvalid' (hrefused username duration hvalid)
    · refine iff_of_false ?_ fun h => h.1 hrefused
      rintro ⟨key, username, token, ent, grp, heq⟩
      exact hanswer _ _ _ _ _ heq
    · rintro ⟨key, username, token, ent, grp, heq⟩
      exact absurd heq (hanswer _ _ _ _ _)
  · obtain ⟨username, duration, hvalid, hfree⟩ : ∃ username duration,
        req.validated setup = .ok (username, duration) ∧ s.users.find username = none := by
      unfold Refused at hrefused
      push Not at hrefused
      exact hrefused
    obtain ⟨s₁, ent, grp, hs₁, hcut, -⟩ := mintAgentKey_of_free draw admin hvalid hfree
    have hleft : ∀ n, 3 < n →
        ((mintAgentKey setup draw admin req).cut n s).users.find username ≠ none := by
      intro n hn
      rw [hcut, if_neg (by omega)]
      refine cut_keeps_user ?_ _ _
      rw [find_of_createUser hs₁]
      exact Option.some_ne_none _
    refine ⟨fun n => ?_, ?_, ?_, ?_⟩
    · constructor
      · intro hsame
        rcases Nat.lt_or_ge 3 n with hn | hn
        · exact absurd (hsame.1 ▸ hfree) (hleft n hn)
        · exact .inl hn
      · intro h
        rw [hcut, if_pos (h.resolve_right hrefused)]
        exact ⟨rfl, rfl, rfl, rfl⟩
    · intro n username' duration' hvalid' hn draw' admin' req' duration'' hvalid''
      obtain ⟨rfl, -⟩ := Prod.mk.inj (Except.ok.inj (hvalid.symm.trans hvalid'))
      exact htaken draw' admin' hvalid'' (hleft n hn)
    · rw [and_iff_right hrefused]
      exact (mintAgentKey_alone hvalid hfree).1
    · exact (mintAgentKey_alone hvalid hfree).2

end Mint

section Sample

local instance mintCasing : Casing := Knowledge.asciiCasing

/-- An L2 with an admin, and no keys. -/
def adminOnly : KeyStore where
  clock := 0
  users := .single ⟨1, "root", "hash", "admin", "acme", "lab", 0⟩
  lastUserId := 1
  keys := .empty
  assignments := .empty
  audit := []
  id_le := by
    intro u hu
    rw [List.mem_singleton.mp hu]
  key_user := by simp
  keyHash_nodup := List.nodup_nil
  assigned_user := by simp

def sampleMintSetup : MintSetup where
  toKeySetup := keySetup
  env := ⟨fun _ => none⟩
  stubHash := "stub"

/-- A key for a build agent. -/
def buildAgent : MintRequest := ⟨"Build Bot", .claudeCode, "60d"⟩

def sampleDraw : KeyDraw := ⟨⟨7, by decide⟩, List.replicate 32 7⟩

/-- The insert of the key fails: the stub and its persona are there, and the name is taken. -/
theorem mint_leaves_stub :
    ¬ SameTables adminOnly
        ((mintAgentKey sampleMintSetup sampleDraw "root" buildAgent).cut 10 adminOnly) ∧
      ((mintAgentKey sampleMintSetup sampleDraw "root" buildAgent).alone
        ((mintAgentKey sampleMintSetup sampleDraw "root" buildAgent).cut 10 adminOnly)).1 =
          .alreadyExists "Build Bot" "agent-build-bot" := by
  constructor
  · intro hsame
    exact absurd (congrArg (fun t => t.rows.length) hsame.1) (by decide +kernel)
  · decide +kernel

/-- Nothing is left behind where the insert of the stub fails. -/
theorem mint_atomic_sample :
    SameTables adminOnly
      ((mintAgentKey sampleMintSetup sampleDraw "root" buildAgent).cut 3 adminOnly) :=
  ((mint_atomic_iff sampleMintSetup sampleDraw "root" buildAgent adminOnly).1 3).mpr
    (.inl (by decide))

end Sample

end EighthLayer.Auth
