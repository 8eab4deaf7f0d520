import EighthLayer.Auth.KeyStore

/-!
# EighthLayer.Auth.KeyLimit

A user's own keys: the routes that create and revoke them, several at once.

A key is created after a count of the active ones. The count and the insert are two statements, so
the limit holds exactly where every insert finds room (`key_limit`), as it does when no more keys
are active than its request has counted.
-/

namespace EighthLayer.Auth

open Lib
open Aigrp (strip)
open Bootstrap (hashSecret secretPrefix parseTtl)

/-! ## The routes -/

/-- `MAX_ACTIVE_API_KEYS_PER_USER`. -/
def maxActiveKeys : Nat := 20

/-- `_normalise_labels`. -/
def normaliseLabels (labels : List String) : List String :=
  ((labels.map strip).filter (· ≠ "")).eraseDups

/-- `CreateApiKeyRequest`. -/
structure CreateKeyRequest where
  name : String
  ttl : String
  labels : List String
deriving DecidableEq

/-- What a request draws: an id and the bytes of a secret. -/
structure KeyDraw where
  keyId : Uuid
  raw : Bytes
deriving DecidableEq

/-- `ApiKeyPublic`. -/
structure ApiKeyPublic where
  id : String
  name : String
  labels : List String
  keyPrefix : String
  ttl : String
  expiresAt : Int
  createdAt : Int
  lastUsedAt : Option Int
  revokedAt : Option Int
  isExpired : Bool
  isActive : Bool
deriving DecidableEq

/-- `_to_public`, at a time. -/
def toPublic (now : Int) (k : ApiKey) : ApiKeyPublic where
  id := k.id
  name := k.name
  labels := k.labels
  keyPrefix := k.keyPrefix
  ttl := k.ttl
  expiresAt := k.expiresAt
  createdAt := k.createdAt
  lastUsedAt := k.lastUsedAt
  revokedAt := k.revokedAt
  isExpired := k.expiresAt ≤ now
  isActive := k.revokedAt = none && !decide (k.expiresAt ≤ now)

/-- What the routes answer. -/
inductive KeyAnswer where
  /-- `CreateApiKeyResponse`. -/
  | created (key : ApiKeyPublic) (token : String)
  /-- "API key revoked." -/
  | revoked
  /-- 422. -/
  | invalidTtl (ttl : String)
  /-- 404, "User not found". -/
  | userNotFound
  /-- 409, "Maximum of 20 active API keys per user". -/
  | tooManyKeys
  /-- 404, "API key not found". -/
  | keyNotFound
  /-- An exception that is not an `HTTPException`. -/
  | internalError
  | elapsed
deriving DecidableEq

/-- The HTTP status of an answer. -/
def KeyAnswer.status : KeyAnswer → Nat
  | created _ _ => 201
  | revoked | elapsed => 200
  | invalidTtl _ => 422
  | userNotFound | keyNotFound => 404
  | tooManyKeys => 409
  | internalError => 500

/-- The value of a decimal digit, and `CQ_API_KEY_PEPPER`. -/
structure KeySetup where
  decimal : Char → Option Nat
  pepper : String

/-- The row of a new key. -/
def newKey (setup : KeySetup) (draw : KeyDraw) (userId : Nat) (name ttl : String)
    (labels : List String) (expiresAt createdAt : Int) : ApiKey where
  id := String.ofList draw.keyId.hex
  userId := userId
  name := name
  labels := labels
  keyPrefix := secretPrefix (generateSecret draw.raw)
  keyHash := hashSecret (generateSecret draw.raw) setup.pepper
  ttl := ttl
  expiresAt := expiresAt
  createdAt := createdAt
  lastUsedAt := none
  revokedAt := none

@[simp] theorem newKey_userId (setup : KeySetup) (draw : KeyDraw) (userId : Nat) (name ttl : String)
    (labels : List String) (expiresAt createdAt : Int) :
    (newKey setup draw userId name ttl labels expiresAt createdAt).userId = userId := rfl

@[simp] theorem newKey_id (setup : KeySetup) (draw : KeyDraw) (userId : Nat) (name ttl : String)
    (labels : List String) (expiresAt createdAt : Int) :
    (newKey setup draw userId name ttl labels expiresAt createdAt).id =
      String.ofList draw.keyId.hex := rfl

@[simp] theorem newKey_keyHash (setup : KeySetup) (draw : KeyDraw) (userId : Nat)
    (name ttl : String) (labels : List String) (expiresAt createdAt : Int) :
    (newKey setup draw userId name ttl labels expiresAt createdAt).keyHash =
      hashSecret (generateSecret draw.raw) setup.pepper := rfl

attribute [irreducible] newKey

/-- The end of `create_api_key_route`, once there is room. -/
def insertKey (setup : KeySetup) (draw : KeyDraw) (userId : Nat) (request : CreateKeyRequest)
    (duration : Int) : KeyProg KeyAnswer :=
  .call .readClock fun (now : Int) =>
    .call .readClock fun (createdAt : Int) =>
      let key := newKey setup draw userId request.name request.ttl
        (normaliseLabels request.labels) (now + duration) createdAt
      .call (.createKey key) fun (inserted : Bool) =>
        if inserted then .call .readClock fun (now : Int) =>
          .done (.created (toPublic now key) (encodeToken draw.keyId (generateSecret draw.raw)))
        else .done .internalError

/-- `create_api_key_route`, with what it draws. -/
def createApiKey (setup : KeySetup) (username : String) (request : CreateKeyRequest)
    (draw : KeyDraw) : KeyProg KeyAnswer :=
  match parseTtl setup.decimal request.ttl with
  | none => .done (.invalidTtl request.ttl)
  | some duration => .call (.getUser username) fun (user : Option KeyUser) =>
    match user with
    | none => .done .userNotFound
    | some u => .call .readClock fun (now : Int) =>
      .call (.countActive u.id now) fun (active : Nat) =>
        if maxActiveKeys ≤ active then .done .tooManyKeys
        else insertKey setup draw u.id request duration

/-- `revoke_api_key_route`. -/
def revokeApiKey (username keyId : String) : KeyProg KeyAnswer :=
  .call (.getUser username) fun (user : Option KeyUser) =>
    match user with
    | none => .done .userNotFound
    | some u => .call (.getKey u.id keyId) fun (key : Option ApiKey) =>
      match key with
      | none => .done .keyNotFound
      | some _ => .call .readClock fun (now : Int) =>
        .call (.revokeKey u.id keyId now) fun (_ : Unit) => .done .revoked

/-- The requests, and time that passes. -/
inductive KeyCall where
  | create (username : String) (request : CreateKeyRequest) (draw : KeyDraw)
  | revoke (username keyId : String)
  | elapse (d : Nat)
deriving DecidableEq

/-- The program of a call. -/
def KeyCall.prog (setup : KeySetup) : KeyCall → KeyProg KeyAnswer
  | create username request draw => createApiKey setup username request draw
  | revoke username keyId => revokeApiKey username keyId
  | elapse d => .call (.tick d) fun (_ : Unit) => .done .elapsed

/-- Some calls at the start. -/
def keysStart (setup : KeySetup) (s : KeyStore) (calls : List KeyCall) :
    Config KeyStore KeyStmt.Answer KeyAnswer :=
  .start s (calls.map (KeyCall.prog setup))

/-! ## One statement -/

/-- No user has more active keys than the maximum. -/
def WithinLimit (s : KeyStore) : Prop := ∀ userId, s.countActive userId s.clock ≤ maxActiveKeys

/-- An insert of an active key finds room for it. -/
def HasRoom (_i : Nat) : KeyStmt → KeyStore → Prop
  | .createKey k, s => (s.createKey k).isSome = true → k.activeFor k.userId s.clock = true →
      s.countActive k.userId s.clock < maxActiveKeys
  | _, _ => True

instance (i : Nat) (q : KeyStmt) (s : KeyStore) : Decidable (HasRoom i q s) := by
  cases q with
  | createKey k => exact inferInstanceAs (Decidable (_ → _ → _))
  | _ => exact inferInstanceAs (Decidable True)

theorem createKey_rows {s s' : KeyStore} {k : ApiKey} (h : s.createKey k = some s') :
    s'.keys.rows = s.keys.rows ++ [k] ∧ s'.clock = s.clock ∧ s'.users = s.users ∧
      s'.assignments = s.assignments ∧ s'.audit = s.audit := by
  unfold KeyStore.createKey at h
  split at h
  · split at h
    · cases h
    · split at h
      · cases h
      · rename_i keys hkeys
        cases h
        exact ⟨(Table.insert_eq_some_iff.mp hkeys).2, rfl, rfl, rfl, rfl⟩
  · cases h

theorem createUser_keys {s s' : KeyStore} {username passwordHash role enterpriseId groupId : String}
    {createdAt : Int}
    (h : s.createUser username passwordHash role enterpriseId groupId createdAt = some s') :
    s'.keys = s.keys ∧ s'.clock = s.clock ∧ s'.assignments = s.assignments ∧ s'.audit = s.audit ∧
      s.users.find username = none ∧ s'.users.rows = s.users.rows ++
        [⟨s.lastUserId + 1, username, passwordHash, role, enterpriseId, groupId, createdAt⟩] := by
  unfold KeyStore.createUser at h
  split at h
  · cases h
  · rename_i users husers
    cases h
    obtain ⟨hnone, hrows⟩ := Table.insert_eq_some_iff.mp husers
    exact ⟨rfl, rfl, rfl, rfl, hnone, hrows⟩

theorem upsertAssignment_keys {s s' : KeyStore} {username assignedBy : String}
    {persona : Personas.Persona} {assignedAt : Int} {action : Personas.AuditAction}
    {oldPersona : Option Personas.Persona}
    (h : s.upsertAssignment username persona assignedAt assignedBy action oldPersona = some s') :
    s'.keys = s.keys ∧ s'.clock = s.clock ∧ s'.users = s.users ∧
      s'.assignments = s.assignments.upsert ⟨username, persona, assignedAt, assignedBy, none⟩ := by
  unfold KeyStore.upsertAssignment at h
  split at h
  · cases h
  · cases h
    exact ⟨rfl, rfl, rfl, rfl⟩

/-- An inserted key counts among those of its user, if it is active. -/
theorem countActive_createKey {s s' : KeyStore} {k : ApiKey} (h : s.createKey k = some s')
    (userId : Nat) (now : Int) :
    s'.countActive userId now =
      s.countActive userId now + (if k.activeFor userId now = true then 1 else 0) := by
  rw [KeyStore.countActive, KeyStore.countActive, (createKey_rows h).1, List.countP_append,
    List.countP_singleton]

/-- No more keys are active later. -/
theorem countActive_mono (s : KeyStore) (userId : Nat) {now later : Int} (hle : now ≤ later) :
    s.countActive userId later ≤ s.countActive userId now := by
  refine List.countP_mono_left fun k _ h => ?_
  simp only [ApiKey.activeFor, Bool.and_eq_true, decide_eq_true_eq] at h ⊢
  exact ⟨h.1, lt_of_le_of_lt hle h.2⟩

/-- Nor after a revocation. -/
theorem countActive_revokeKey (s : KeyStore) (userId userId' : Nat) (keyId : String)
    (at_ now : Int) :
    (s.revokeKey userId' keyId at_).countActive userId now ≤ s.countActive userId now := by
  unfold KeyStore.countActive KeyStore.revokeKey Table.update
  dsimp only
  rw [List.countP_map]
  refine List.countP_mono_left fun k _ h => ?_
  simp only [Function.comp_apply] at h
  split at h
  · simp [ApiKey.activeFor] at h
  · exact h

/-- **The step lemma.** A statement keeps the limit exactly if it finds room. -/
theorem exec_withinLimit_iff {s : KeyStore} (hwithin : WithinLimit s) (i : Nat) (q : KeyStmt) :
    WithinLimit (q.exec s).2 ↔ HasRoom i q s := by
  cases q with
  | createKey k =>
      unfold HasRoom
      cases h : s.createKey k with
      | none =>
          have hexec : ((KeyStmt.createKey k).exec s).2 = s := by
            simp only [KeyStmt.exec, h, orUnchanged]
          rw [hexec]
          exact iff_of_true hwithin fun hsome => absurd hsome (by simp [h])
      | some s' =>
          have hexec : ((KeyStmt.createKey k).exec s).2 = s' := by
            simp only [KeyStmt.exec, h, orUnchanged]
          rw [hexec]
          have hclock := (createKey_rows h).2.1
          constructor
          · intro hwithin' _ hactive
            have hle := hwithin' k.userId
            rw [countActive_createKey h, hclock, if_pos hactive] at hle
            exact hle
          · intro hroom userId
            have hle := hwithin userId
            rw [countActive_createKey h, hclock]
            split
            · rename_i hactive
              have huser : k.userId = userId := by
                simp only [ApiKey.activeFor, Bool.and_eq_true, decide_eq_true_eq] at hactive
                exact hactive.1.1
              subst huser
              exact hroom (by rw [h]; rfl) hactive
            · exact hle
  | tick d =>
      refine iff_of_true (fun userId => ?_) trivial
      have hle : s.clock ≤ s.clock + d := by omega
      exact Nat.le_trans (countActive_mono s userId hle) (hwithin userId)
  | revokeKey userId keyId now =>
      refine iff_of_true (fun userId' => ?_) trivial
      exact Nat.le_trans (countActive_revokeKey s userId' userId keyId now s.clock) (hwithin userId')
  | createUser username passwordHash role enterpriseId groupId createdAt =>
      refine iff_of_true ?_ trivial
      cases h : s.createUser username passwordHash role enterpriseId groupId createdAt with
      | none => simpa only [KeyStmt.exec, h, orUnchanged] using hwithin
      | some s' =>
          obtain ⟨hkeys, hclock, -⟩ := createUser_keys h
          simp only [KeyStmt.exec, h, orUnchanged]
          intro userId
          rw [KeyStore.countActive, hkeys, hclock]
          exact hwithin userId
  | upsertAssignment username persona assignedAt assignedBy action oldPersona =>
      refine iff_of_true ?_ trivial
      cases h : s.upsertAssignment username persona assignedAt assignedBy action oldPersona with
      | none => simpa only [KeyStmt.exec, h, orUnchanged] using hwithin
      | some s' =>
          obtain ⟨hkeys, hclock, -⟩ := upsertAssignment_keys h
          simp only [KeyStmt.exec, h, orUnchanged]
          intro userId
          rw [KeyStore.countActive, hkeys, hclock]
          exact hwithin userId
  | readClock | getUser _ | countActive _ _ | getKey _ _ | getAssignment _ =>
      exact iff_of_true hwithin trivial

/-! ## What a request has counted -/

/-- The number of active keys of a user that a statement has been answered. -/
def countedKeys (userId : Nat) : Event KeyStmt.Answer → Option Nat
  | ⟨_, .countActive userId' _, n⟩ => if userId' = userId then some n else none
  | _ => none

/-- A request that is about to insert a key has not counted as many as the maximum. -/
def CountedRoom (i : Nat) (past : List (Event KeyStmt.Answer)) (p : KeyProg KeyAnswer) : Prop :=
  ∀ k rest, p = .call (.createKey k) rest →
    ∀ e ∈ past, e.task = i → ∀ n, countedKeys k.userId e = some n → n < maxActiveKeys

/-- An insert finds no more active keys than its request has counted. -/
def CountCurrent (i : Nat) : KeyStmt → KeyWorld → Prop
  | .createKey k, w => ∃ e ∈ w.log, e.task = i ∧ ∃ n ∈ countedKeys k.userId e,
      w.db.countActive k.userId w.db.clock ≤ n
  | _, _ => True

instance (i : Nat) (q : KeyStmt) (w : KeyWorld) : Decidable (CountCurrent i q w) := by
  cases q with
  | createKey k =>
      exact inferInstanceAs (Decidable (∃ e ∈ w.log, e.task = i ∧
        ∃ n ∈ countedKeys k.userId e, w.db.countActive k.userId w.db.clock ≤ n))
  | _ => exact inferInstanceAs (Decidable True)

section Guard

variable {i : Nat} {past : List (Event KeyStmt.Answer)}

theorem countedRoom_done {a : KeyAnswer} :
    (Prog.done a : KeyProg KeyAnswer).Always (CountedRoom i) i past := .done fun _ _ h => nomatch h

theorem countedRoom_call {q : KeyStmt} {k : q.Answer → KeyProg KeyAnswer}
    (hq : ∀ key, q ≠ .createKey key)
    (hrest : ∀ a, (k a).Always (CountedRoom i) i (⟨i, q, a⟩ :: past)) :
    (Prog.call q k).Always (CountedRoom i) i past := by
  refine .call (fun key rest h => ?_) hrest
  injection h with h
  exact absurd h (hq key)

theorem countedRoom_insertKey {setup : KeySetup} {draw : KeyDraw} {userId : Nat}
    {request : CreateKeyRequest} {duration : Int}
    (hpast : ∀ e ∈ past, ∀ n, countedKeys userId e = some n → n < maxActiveKeys) :
    (insertKey setup draw userId request duration).Always (CountedRoom i) i past := by
  refine countedRoom_call (fun _ h => nomatch h) fun (now : Int) => ?_
  refine countedRoom_call (fun _ h => nomatch h) fun (createdAt : Int) => ?_
  refine .call (fun key rest h e he _ n hn => ?_) fun (inserted : Bool) => ?_
  · injection h with h
    injection h with h
    rw [← h, newKey_userId] at hn
    rcases List.mem_cons.mp he with rfl | he
    · cases hn
    · rcases List.mem_cons.mp he with rfl | he
      · cases hn
      · exact hpast e he n hn
  · cases inserted with
    | false => exact countedRoom_done
    | true => exact countedRoom_call (fun _ h => nomatch h) fun (_ : Int) => countedRoom_done

theorem countedRoom_createApiKey (setup : KeySetup) (username : String)
    (request : CreateKeyRequest) (draw : KeyDraw) :
    (createApiKey setup username request draw).Always (CountedRoom i) i [] := by
  unfold createApiKey
  cases parseTtl setup.decimal request.ttl with
  | none => exact countedRoom_done
  | some duration =>
      refine countedRoom_call (fun _ h => nomatch h) fun (user : Option KeyUser) => ?_
      cases user with
      | none => exact countedRoom_done
      | some u =>
          refine countedRoom_call (fun _ h => nomatch h) fun (now : Int) => ?_
          refine countedRoom_call (fun _ h => nomatch h) fun (active : Nat) => ?_
          split
          · exact countedRoom_done
          · rename_i hroom
            refine countedRoom_insertKey fun e he n hn => ?_
            rcases List.mem_cons.mp he with rfl | he
            · rw [countedKeys, if_pos rfl] at hn
              exact Option.some.inj hn ▸ Nat.not_le.mp hroom
            · rcases List.mem_cons.mp he with rfl | he
              · cases hn
              · rw [List.mem_singleton.mp he] at hn
                cases hn

theorem countedRoom_revokeApiKey (username keyId : String) :
    (revokeApiKey username keyId).Always (CountedRoom i) i [] := by
  refine countedRoom_call (fun _ h => nomatch h) fun (user : Option KeyUser) => ?_
  cases user with
  | none => exact countedRoom_done
  | some u =>
      refine countedRoom_call (fun _ h => nomatch h) fun (key : Option ApiKey) => ?_
      cases key with
      | none => exact countedRoom_done
      | some k =>
          refine countedRoom_call (fun _ h => nomatch h) fun (now : Int) => ?_
          exact countedRoom_call (fun _ h => nomatch h) fun (_ : Unit) => countedRoom_done

theorem countedRoom_prog (setup : KeySetup) (call : KeyCall) :
    (call.prog setup).Always (CountedRoom i) i [] := by
  cases call with
  | create username request draw => exact countedRoom_createApiKey setup username request draw
  | revoke username keyId => exact countedRoom_revokeApiKey username keyId
  | elapse d => exact countedRoom_call (fun _ h => nomatch h) fun (_ : Unit) => countedRoom_done

end Guard

/-- Where the count is current there is room. -/
theorem hasRoom_of_current {c : Config KeyStore KeyStmt.Answer KeyAnswer} {i : Nat} {q : KeyStmt}
    {k : q.Answer → KeyProg KeyAnswer} (hcounted : CountedRoom i (c.world.own i) (.call q k))
    (hcurrent : CountCurrent i q c.world) : HasRoom i q c.world.db := by
  cases q with
  | createKey key =>
      obtain ⟨e, he, htask, n, hn, hle⟩ := hcurrent
      have hown : e ∈ c.world.own i := World.mem_own.mpr ⟨he, htask⟩
      have hlt := hcounted key k rfl e hown htask n hn
      exact fun _ _ => Nat.lt_of_le_of_lt hle hlt
  | _ => trivial

/-! ## Runs -/

/-- **The limit of active keys.** It holds all along a run exactly if every insert of an active key
finds room; and an insert finds room where no more keys are active than its request has counted. -/
theorem key_limit (setup : KeySetup) {s : KeyStore} (hwithin : WithinLimit s)
    (calls : List KeyCall) (schedule : List Nat) :
    ((∀ n, WithinLimit ((keysStart setup s calls).run (schedule.take n)).world.db) ↔
      (keysStart setup s calls).Meets (Config.Next HasRoom) schedule) ∧
    ((keysStart setup s calls).Meets (Config.NextIn CountCurrent) schedule →
      WithinLimit ((keysStart setup s calls).run schedule).world.db) := by
  have hexec : ∀ (i : Nat) (q : KeyStmt) (s : KeyStore), WithinLimit s →
      (WithinLimit (Database.exec (A := KeyStmt.Answer) q s).2 ↔ HasRoom i q s) :=
    fun i q s h => exec_withinLimit_iff h i q
  refine ⟨Config.meets_iff_take hexec hwithin, fun hmeets => ?_⟩
  refine Config.run_guarded (P := fun w : KeyWorld => WithinLimit w.db) (T := CountedRoom)
    (fun c i q k hwithin htask hcounted hok => ?_) hwithin (fun i p hp => ?_) hmeets
  · exact (exec_withinLimit_iff hwithin i q).mpr (hasRoom_of_current hcounted (hok.ok htask))
  · obtain ⟨call, -, rfl⟩ := List.mem_map.mp (List.mem_of_getElem? hp)
    exact countedRoom_prog setup call

/-! ### Nineteen keys

Ada has nineteen keys, and creates more. -/

section Sample

/-- Ada's key number `n`. -/
def adaKey (n : Nat) : ApiKey where
  id := String.ofList (Nat.toDigits 10 n)
  userId := 1
  name := "cli"
  labels := []
  keyPrefix := "aaaaaaaa"
  keyHash := [UInt8.ofNat n]
  ttl := "1h"
  expiresAt := 3600000000
  createdAt := 0
  lastUsedAt := none
  revokedAt := none

/-- An L2 with Ada and nineteen keys of hers. -/
def nineteenKeys : KeyStore where
  clock := 0
  users := .single ⟨1, "ada", "hash", "user", "acme", "lab", 0⟩
  lastUserId := 1
  keys := ⟨(List.range 19).map adaKey, by decide +kernel⟩
  assignments := .empty
  audit := []
  id_le := by
    intro u hu
    rw [List.mem_singleton.mp hu]
  key_user := by
    intro k hk
    obtain ⟨n, -, rfl⟩ := List.mem_map.mp hk
    exact ⟨_, List.mem_singleton.mpr rfl, rfl⟩
  keyHash_nodup := by decide +kernel
  assigned_user := by simp

/-- The digits of ASCII, and a pepper. -/
def keySetup : KeySetup where
  decimal := fun c => if c.isDigit then some (c.toNat - 48) else none
  pepper := "pepper"

/-- Ada asks for another key. -/
def adaCreates (n : Nat) : KeyCall :=
  .create "ada" ⟨"cli", "1h", []⟩ ⟨⟨n % 16, Nat.lt_of_lt_of_le (Nat.mod_lt n (by decide)) (by decide)⟩,
    List.replicate 32 (UInt8.ofNat n)⟩

theorem nineteenKeys_within : WithinLimit nineteenKeys := by
  intro userId
  refine Nat.le_trans List.countP_le_length ?_
  decide +kernel

/-- The twentieth key is created. -/
theorem key_limit_sample :
    (∀ n, WithinLimit ((keysStart keySetup nineteenKeys [adaCreates 1]).run
      ([0, 0, 0, 0, 0, 0, 0].take n)).world.db) ∧
    WithinLimit ((keysStart keySetup nineteenKeys [adaCreates 1]).run
      [0, 0, 0, 0, 0, 0, 0]).world.db := by
  have h := key_limit keySetup nineteenKeys_within [adaCreates 1] [0, 0, 0, 0, 0, 0, 0]
  exact ⟨h.1.mpr (by decide +kernel), h.2 (by decide +kernel)⟩

/-- Two requests that have both counted nineteen: Ada has twenty-one keys. -/
theorem twenty_one_keys :
    ¬ WithinLimit ((keysStart keySetup nineteenKeys [adaCreates 1, adaCreates 2]).run
      [0, 0, 0, 1, 1, 1, 0, 0, 0, 1, 1, 1]).world.db := by
  intro hwithin
  exact absurd (hwithin 1) (by decide +kernel)

end Sample

end EighthLayer.Auth
