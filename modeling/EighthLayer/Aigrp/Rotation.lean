import EighthLayer.Aigrp.Identity
import EighthLayer.Knowledge.Unit
import EighthLayer.Lib.Interleave
import EighthLayer.Lib.Staleness

/-!
# EighthLayer.Aigrp.Rotation

The root of an Enterprise while it is rotated (`aigrp/enterprise_root.py`, `aigrp/runtime.py`).

The root is a parameter of the parameter store. Each L2 keeps a copy of it for a while, and keeps the
secrets that it has derived for its peers as long again, in two caches of its process that know
nothing of each other. Calls of all L2s interleave statement by statement, with rotations, and with
invalidations of one cache or the other. Whatever they do, a bearer is made of, and checked against,
a root that was the root at most the two times together ago (`bearers_fresh`); so L2s accept each
other's bearers once a rotation is that old (`bearers_agree`).

`time.monotonic` is read in nanoseconds. Its zero is another in each process, but a process compares
only its own readings.
-/

namespace EighthLayer.Aigrp

open Lib
open Knowledge (Casing)

/-! ## The fleet -/

/-- The parameters of the store, and the caches of each process: `_cache` of `enterprise_root.py` by
Enterprise, `_pair_cache` with `_pair_cache_meta` of `runtime.py` by Enterprise and peer. -/
structure Fleet where
  clock : Int
  parameters : String → History (Option String)
  roots : Nat → String → Option (Entry Bytes)
  pairs : Nat → String × String → Option (Entry Bytes)

/-- What a process does that another may see, or that may see another. -/
inductive FleetStmt where
  | monotonic
  | cachedRoot (process : Nat) (enterpriseId : String)
  /-- `get_parameter`, which may fail for a reason of its own. -/
  | getParameter (path : String) (fails : Bool)
  | cacheRoot (process : Nat) (enterpriseId : String) (entry : Entry Bytes)
  /-- `invalidate_cache`: one root, or all. -/
  | invalidateRoots (process : Nat) (enterpriseId : Option String)
  | cachedPair (process : Nat) (key : String × String)
  | cachePair (process : Nat) (key : String × String) (entry : Entry Bytes)
  /-- `invalidate_pair_cache`. -/
  | invalidatePairs (process : Nat)
  | putParameter (path value : String) (overwrite : Bool)
  | elapse (duration : Nat)

/-- What a statement is answered; no parameter, and no success, is what raises. -/
def FleetStmt.Answer : FleetStmt → Type
  | monotonic => Int
  | cachedRoot _ _ | cachedPair _ _ => Option (Entry Bytes)
  | getParameter _ _ => Option String
  | putParameter _ _ _ => Bool
  | cacheRoot _ _ _ | invalidateRoots _ _ | cachePair _ _ _ | invalidatePairs _ | elapse _ => Unit

def FleetStmt.exec : (q : FleetStmt) → Fleet → q.Answer × Fleet
  | monotonic, s => (s.clock, s)
  | cachedRoot process enterpriseId, s => (s.roots process enterpriseId, s)
  | getParameter path fails, s =>
      (if fails = true then none else (s.parameters path).current, s)
  | cacheRoot process enterpriseId entry, s =>
      ((), { s with roots := fun p id =>
        if p = process ∧ id = enterpriseId then some entry else s.roots p id })
  | invalidateRoots process enterpriseId, s =>
      ((), { s with roots := fun p id =>
        if p = process ∧ enterpriseId.all (· = id) = true then none else s.roots p id })
  | cachedPair process key, s => (s.pairs process key, s)
  | cachePair process key entry, s =>
      ((), { s with pairs := fun p k =>
        if p = process ∧ k = key then some entry else s.pairs p k })
  | invalidatePairs process, s =>
      ((), { s with pairs := fun p k => if p = process then none else s.pairs p k })
  | putParameter path value overwrite, s =>
      if (s.parameters path).current ≠ none ∧ overwrite = false then (false, s)
      else
        (true, { s with parameters := fun p =>
          if p = path then (s.parameters p).set s.clock (some value) else s.parameters p })
  | elapse duration, s => ((), { s with clock := s.clock + duration })

instance : Database Fleet FleetStmt.Answer := ⟨FleetStmt.exec⟩

abbrev FleetProg (α : Type) : Type := Prog FleetStmt.Answer α

/-! ## The root -/

/-- An L2: its environment, and what `_ttl_sec` makes of it. -/
structure L2 where
  env : Environ
  rootTtlSec : Nat

/-- Some seconds. -/
def seconds (n : Nat) : Int := n * 1000000000

/-- `_param_path`; `none` is its `ValueError`. -/
def paramPath (env : Environ) (enterpriseId : String) : Option String :=
  let override := strip (env.get "CQ_ENTERPRISE_ROOT_SSM_PATH" "")
  if override ≠ "" then some override
  else if enterpriseId = "" ∨ '/' ∈ enterpriseId.toList then none
  else some ("/8th-layer/aigrp/enterprise-root/" ++ enterpriseId)

attribute [local irreducible] paramPath

/-- The root that a parameter holds; `none` is the `ValueError`. -/
def rootOfParameter (raw : String) : Option Bytes :=
  (fromHex raw.toList).bind fun root => if root.length = 32 then some root else none

section Programs

variable (l2 : L2) (process : Nat)

/-- The root when the cache has none. -/
def readRootFromSsm (enterpriseId : String) (fails : Bool) (now : Int) : FleetProg (Option Bytes) :=
  (paramPath l2.env enterpriseId).elim (.done none) fun path =>
    .call (.getParameter path fails) fun (raw : Option String) =>
      (raw.bind rootOfParameter).elim (.done none) fun root =>
        .call (.cacheRoot process enterpriseId ⟨root, now⟩) fun _ => .done (some root)

/-- `get_enterprise_root`; `none` when it raises. With no time to live a root is not kept. -/
def getEnterpriseRoot (enterpriseId : String) (fails : Bool) : FleetProg (Option Bytes) :=
  .call .monotonic fun (now : Int) =>
    .call (.cachedRoot process enterpriseId) fun (entry : Option (Entry Bytes)) =>
      (if 0 < l2.rootTtlSec then entry.bind (Entry.fresh (seconds l2.rootTtlSec) now) else none).elim
        (readRootFromSsm l2 process enterpriseId fails now) fun root => .done (some root)

/-- `bootstrap_enterprise_root`, where `root` is drawn; `none` when it raises. The secrets of the
peers stay in their cache. -/
def bootstrapEnterpriseRoot (enterpriseId kmsKeyId : String) (overwrite : Bool) (root : Bytes) :
    FleetProg (Option Bytes) :=
  if kmsKeyId = "" then .done none
  else
    (paramPath l2.env enterpriseId).elim (.done none) fun path =>
      .call (.putParameter path (String.ofList (hex root)) overwrite) fun (put : Bool) =>
        if put = false then .done none
        else .call (.invalidateRoots process (some enterpriseId)) fun _ => .done (some root)

/-- `bootstrap_root_if_needed`: whether a root was minted; `none` when it raises. -/
def bootstrapRootIfNeeded [Casing] (root : Bytes) (fails : Bool) : FleetProg (Option Bool) :=
  if Casing.lower (l2.env.get "CQ_ENTERPRISE_ROOT_BOOTSTRAP" "false") ≠ "true" then .done (some false)
  else
    (getEnterpriseRoot l2 process (enterprise l2.env) fails).bind fun present =>
      if present ≠ none then .done (some false)
      else if l2.env.get "CQ_ENTERPRISE_ROOT_KMS_KEY_ID" "" = "" then .done (some false)
      else
        (bootstrapEnterpriseRoot l2 process (enterprise l2.env)
          (l2.env.get "CQ_ENTERPRISE_ROOT_KMS_KEY_ID" "") false root).bind fun minted =>
            .done (minted.map fun _ => true)

/-! ## Bearers -/

/-- `_pair_cache_ttl_sec`. -/
def pairCacheTtlSec : Nat := 300

/-- The secret when the cache has none. -/
def readPairSecret (peer : String) (fails : Bool) (now : Int) : FleetProg (Option Bytes) :=
  (getEnterpriseRoot l2 process (enterprise l2.env) fails).bind fun root =>
    (root.bind fun r => derivePairSecret r (selfL2Id l2.env) peer).elim (.done none) fun secret =>
      .call (.cachePair process (enterprise l2.env, peer) ⟨secret, now⟩) fun _ => .done (some secret)

/-- `_pair_secret_for_peer`; `none` when it raises. -/
def cachedPairSecret (peer : String) (fails : Bool) : FleetProg (Option Bytes) :=
  if peer = selfL2Id l2.env then .done none
  else
    .call .monotonic fun (now : Int) =>
      .call (.cachedPair process (enterprise l2.env, peer)) fun (entry : Option (Entry Bytes)) =>
        (entry.bind (Entry.fresh (seconds pairCacheTtlSec) now)).elim
          (readPairSecret l2 process peer fails now) fun secret => .done (some secret)

end Programs

/-- What a call answers. -/
inductive FleetAnswer where
  /-- `derive_bearer_token`; `none` when it raises. -/
  | bearer (token : Option String)
  /-- `verify_bearer_against_peer`; `none` when it raises. -/
  | verdict (accepted : Option Bool)
  | minted (root : Option Bool)
  | done

/-- What happens in the fleet. The last three are an operator's, or the clock's. -/
inductive FleetCall where
  | derive (process : Nat) (peer : String) (fails : Bool)
  | verify (process : Nat) (peer presented : String) (fails : Bool)
  | boot (process : Nat) (root : Bytes) (fails : Bool)
  | rotate (process : Nat) (kmsKeyId : String) (root : Bytes)
  | invalidateRoots (process : Nat) (enterpriseId : Option String)
  | invalidatePairs (process : Nat)
  | put (path value : String) (overwrite : Bool)
  | elapse (durations : List Nat)

section Calls

variable (l2s : Nat → L2)

/-- `derive_bearer_token`. -/
def deriveBearer (process : Nat) (peer : String) (fails : Bool) : FleetProg FleetAnswer :=
  if peer = "" then .done (.bearer none)
  else (cachedPairSecret (l2s process) process peer fails).bind fun secret =>
    .done (.bearer (secret.map bearerForSecret))

/-- What is made of a presented bearer. -/
def compareBearer (presented : String) : Option Bytes → Option Bool
  | none => some false
  | some secret =>
      if presented.toList.all fun c => c.toNat < 128 then
        some (bearerForSecret secret = presented)
      else none

/-- `verify_bearer_against_peer`. -/
def verifyBearer (process : Nat) (peer presented : String) (fails : Bool) : FleetProg FleetAnswer :=
  if presented = "" ∨ peer = "" then .done (.verdict (some false))
  else (cachedPairSecret (l2s process) process peer fails).bind fun secret =>
    .done (.verdict (compareBearer presented secret))

def elapse : List Nat → FleetProg FleetAnswer
  | [] => .done .done
  | duration :: rest => .call (.elapse duration) fun _ => elapse rest

variable [Casing]

def FleetCall.prog : FleetCall → FleetProg FleetAnswer
  | derive process peer fails => deriveBearer l2s process peer fails
  | verify process peer presented fails => verifyBearer l2s process peer presented fails
  | boot process root fails =>
      (bootstrapRootIfNeeded (l2s process) process root fails).bind fun minted =>
        .done (.minted minted)
  | rotate process kmsKeyId root =>
      (bootstrapEnterpriseRoot (l2s process) process (enterprise (l2s process).env) kmsKeyId true
        root).bind fun _ => .done .done
  | invalidateRoots process enterpriseId =>
      .call (.invalidateRoots process enterpriseId) fun _ => .done .done
  | invalidatePairs process => .call (.invalidatePairs process) fun _ => .done .done
  | put path value overwrite => .call (.putParameter path value overwrite) fun _ => .done .done
  | elapse durations => Aigrp.elapse durations

/-- The calls before any of them has begun, when the caches are empty. -/
def fleet (parameters : String → History (Option String)) (calls : List FleetCall) :
    Config Fleet FleetStmt.Answer FleetAnswer :=
  .start ⟨0, parameters, fun _ _ => none, fun _ _ => none⟩ (calls.map (FleetCall.prog l2s))

end Calls

/-! ### Calls that only read -/

/-- Whether a statement changes a parameter. -/
def FleetStmt.puts : FleetStmt → Bool
  | putParameter _ _ _ => true
  | _ => false

/-- A program that ends within `n` statements, none of which changes a parameter. -/
inductive Reads {α : Type} : Nat → FleetProg α → Prop
  | done {n : Nat} {a : α} : Reads n (.done a)
  | call {n : Nat} {q : FleetStmt} {k : q.Answer → FleetProg α} (hq : q.puts = false)
      (hrest : ∀ a, Reads n (k a)) : Reads (n + 1) (.call q k)

namespace Reads

variable {α β : Type} {n m : Nat} {p : FleetProg α}

theorem mono (h : Reads n p) (hle : n ≤ m) : Reads m p := by
  induction h generalizing m with
  | done => exact .done
  | @call n q k hq _ ih =>
      cases m with
      | zero => omega
      | succ m => exact .call hq fun a => ih a (by omega)

theorem bind {f : α → FleetProg β} (h : Reads n p) (hf : ∀ a, Reads m (f a)) :
    Reads (n + m) (p.bind f) := by
  induction h with
  | done => exact (hf _).mono (by omega)
  | @call n q k hq _ ih =>
      rw [Prog.call_bind, Nat.succ_add]
      exact .call hq ih

theorem ends (h : Reads n p) : p.EndsWithin n := by
  induction h with
  | done => exact .done
  | call _ _ ih => exact .call ih

theorem preserves (h : Reads n p) (parameters : String → History (Option String)) :
    p.Preserves (fun s : Fleet => s.parameters = parameters) := by
  induction h with
  | done => exact .done
  | @call n q k hq _ ih =>
      refine .call (fun s hs => ?_) fun s _ => ih _
      rw [← hs]
      cases q with
      | putParameter _ _ _ => cases hq
      | _ => rfl

end Reads

section Reading

variable (l2 : L2) (process : Nat)

theorem readRootFromSsm_reads (enterpriseId : String) (fails : Bool) (now : Int) :
    Reads 2 (readRootFromSsm l2 process enterpriseId fails now) := by
  unfold readRootFromSsm
  cases paramPath l2.env enterpriseId with
  | none => exact .done
  | some path =>
      refine .call rfl fun (raw : Option String) => ?_
      cases raw.bind rootOfParameter with
      | none => exact .done
      | some root => exact .call rfl fun _ => .done

theorem getEnterpriseRoot_reads (enterpriseId : String) (fails : Bool) :
    Reads 4 (getEnterpriseRoot l2 process enterpriseId fails) := by
  unfold getEnterpriseRoot
  refine .call rfl fun (now : Int) => .call rfl fun (entry : Option (Entry Bytes)) => ?_
  generalize (if 0 < l2.rootTtlSec then entry.bind (Entry.fresh (seconds l2.rootTtlSec) now)
    else none) = served
  cases served with
  | none => exact readRootFromSsm_reads l2 process enterpriseId fails now
  | some root => exact .done

theorem readPairSecret_reads (peer : String) (fails : Bool) (now : Int) :
    Reads (4 + 1) (readPairSecret l2 process peer fails now) := by
  unfold readPairSecret
  refine (getEnterpriseRoot_reads l2 process _ fails).bind fun root => ?_
  cases root.bind fun r => derivePairSecret r (selfL2Id l2.env) peer with
  | none => exact .done
  | some secret => exact .call rfl fun _ => .done

theorem cachedPairSecret_reads (peer : String) (fails : Bool) :
    Reads 7 (cachedPairSecret l2 process peer fails) := by
  unfold cachedPairSecret
  by_cases hpeer : peer = selfL2Id l2.env
  · rw [if_pos hpeer]
    exact .done
  rw [if_neg hpeer]
  refine .call rfl fun (now : Int) => .call rfl fun (entry : Option (Entry Bytes)) => ?_
  cases entry.bind (Entry.fresh (seconds pairCacheTtlSec) now) with
  | none => exact readPairSecret_reads l2 process peer fails now
  | some secret => exact .done

end Reading

/-- A bearer is derived within seven statements. -/
theorem deriveBearer_reads (l2s : Nat → L2) (process : Nat) (peer : String) (fails : Bool) :
    Reads 7 (deriveBearer l2s process peer fails) := by
  unfold deriveBearer
  by_cases hpeer : peer = ""
  · rw [if_pos hpeer]
    exact .done
  · rw [if_neg hpeer]
    exact (cachedPairSecret_reads (l2s process) process peer fails).bind (m := 0) fun _ => .done

/-- And compared. -/
theorem verifyBearer_reads (l2s : Nat → L2) (process : Nat) (peer presented : String)
    (fails : Bool) : Reads 7 (verifyBearer l2s process peer presented fails) := by
  unfold verifyBearer
  by_cases hempty : presented = "" ∨ peer = ""
  · rw [if_pos hempty]
    exact .done
  · rw [if_neg hempty]
    exact (cachedPairSecret_reads (l2s process) process peer fails).bind (m := 0) fun _ => .done

/-! ## What is kept -/

abbrev FleetWorld : Type := World Fleet FleetStmt.Answer

abbrev FleetEvent : Type := Lib.Event FleetStmt.Answer

/-- The root of an L2 was lately this one, or none that can be read. -/
def RootLately (env : Environ) (enterpriseId : String)
    (parameters : String → History (Option String)) (since : Int) (root : Option Bytes) : Prop :=
  (paramPath env enterpriseId = none ∧ root = none) ∨
    ∃ path raw, paramPath env enterpriseId = some path ∧ (parameters path).Lately since raw ∧
      raw.bind rootOfParameter = root

/-- What may become of a world: time passes, parameters change, and more is done. -/
structure Later (w w' : FleetWorld) : Prop where
  clock : w.db.clock ≤ w'.db.clock
  parameters : ∀ path, History.Extends w.db.clock (w.db.parameters path) (w'.db.parameters path)
  log : w.log <:+ w'.log

/-- What is cached was made of what was the root when its making began, or, where it was made of a
cached root, at most the time before that for which a root is kept. -/
structure Kept (l2s : Nat → L2) (s : Fleet) : Prop where
  roots : ∀ process enterpriseId entry, s.roots process enterpriseId = some entry →
    entry.time ≤ s.clock ∧
      RootLately (l2s process).env enterpriseId s.parameters entry.time (some entry.value)
  pairs : ∀ process key entry, s.pairs process key = some entry →
    entry.time ≤ s.clock ∧ ∃ root,
      RootLately (l2s process).env key.1 s.parameters (entry.time - seconds (l2s process).rootTtlSec)
        (some root) ∧
      derivePairSecret root (selfL2Id (l2s process).env) key.2 = some entry.value

theorem Later.refl (w : FleetWorld) : Later w w :=
  ⟨le_refl _, fun _ => .refl _ _, List.suffix_rfl⟩

theorem Later.trans {w₁ w₂ w₃ : FleetWorld} (h : Later w₁ w₂) (h' : Later w₂ w₃) : Later w₁ w₃ :=
  ⟨h.clock.trans h'.clock, fun path => (h.parameters path).trans h.clock (h'.parameters path),
    h.log.trans h'.log⟩

/-- Whatever a statement does, it does to what comes later. -/
theorem later_exec (w : FleetWorld) (i : Nat) (q : FleetStmt) : Later w (w.exec i q) := by
  have hlog : w.log <:+ (w.exec i q).log := List.suffix_cons _ _
  cases q with
  | putParameter path value overwrite =>
      by_cases hput : (w.db.parameters path).current ≠ none ∧ overwrite = false
      · have hexec : (FleetStmt.putParameter path value overwrite).exec w.db = (false, w.db) :=
          if_pos hput
        refine ⟨?_, fun p => ?_, hlog⟩
        · show w.db.clock ≤ ((FleetStmt.putParameter path value overwrite).exec w.db).2.clock
          rw [hexec]
        · show History.Extends _ _
            (((FleetStmt.putParameter path value overwrite).exec w.db).2.parameters p)
          rw [hexec]
          exact .refl _ _
      · have hexec : (FleetStmt.putParameter path value overwrite).exec w.db = (true, _) :=
          if_neg hput
        refine ⟨?_, fun p => ?_, hlog⟩
        · show w.db.clock ≤ ((FleetStmt.putParameter path value overwrite).exec w.db).2.clock
          rw [hexec]
        · show History.Extends _ _
            (((FleetStmt.putParameter path value overwrite).exec w.db).2.parameters p)
          rw [hexec]
          by_cases hp : p = path
          · simp only [if_pos hp]
            exact .set _ _ _
          · simp only [if_neg hp]
            exact .refl _ _
  | elapse duration =>
      exact ⟨by show _ ≤ w.db.clock + (duration : Int); omega, fun _ => .refl _ _, hlog⟩
  | _ => exact ⟨le_refl _, fun _ => .refl _ _, hlog⟩

theorem RootLately.later {env : Environ} {enterpriseId : String} {w w' : FleetWorld} {since : Int}
    {root : Option Bytes} (h : RootLately env enterpriseId w.db.parameters since root)
    (hle : since ≤ w.db.clock) (hlater : Later w w') :
    RootLately env enterpriseId w'.db.parameters since root := by
  rcases h with hnone | ⟨path, raw, hpath, hraw, hroot⟩
  · exact .inl hnone
  · exact .inr ⟨path, raw, hpath, hraw.extends hle (hlater.parameters path), hroot⟩

theorem RootLately.mono {env : Environ} {enterpriseId : String}
    {parameters : String → History (Option String)} {since since' : Int} {root : Option Bytes}
    (h : RootLately env enterpriseId parameters since root) (hle : since' ≤ since) :
    RootLately env enterpriseId parameters since' root := by
  rcases h with hnone | ⟨path, raw, hpath, hraw, hroot⟩
  · exact .inl hnone
  · exact .inr ⟨path, raw, hpath, hraw.mono hle, hroot⟩

section Kept

variable {l2s : Nat → L2}

/-- What is in the caches stays fit to be there, as time passes and roots are rotated. -/
theorem Kept.later {w w' : FleetWorld} (h : Kept l2s w.db) (hlater : Later w w')
    (hroots : ∀ p id entry, w'.db.roots p id = some entry → w.db.roots p id = some entry)
    (hpairs : ∀ p key entry, w'.db.pairs p key = some entry → w.db.pairs p key = some entry) :
    Kept l2s w'.db where
  roots := by
    intro p id entry hentry
    obtain ⟨htime, hroot⟩ := h.roots p id entry (hroots p id entry hentry)
    exact ⟨htime.trans hlater.clock, hroot.later htime hlater⟩
  pairs := by
    intro p key entry hentry
    obtain ⟨htime, root, hroot, hsecret⟩ := h.pairs p key entry (hpairs p key entry hentry)
    refine ⟨htime.trans hlater.clock, root, hroot.later ?_ hlater, hsecret⟩
    have hpos : 0 ≤ seconds (l2s p).rootTtlSec := by
      unfold seconds
      omega
    omega

/-- Whether a statement puts something into a cache. -/
def FleetStmt.caches : FleetStmt → Bool
  | cacheRoot _ _ _ | cachePair _ _ _ => true
  | _ => false

theorem kept_exec {w : FleetWorld} (h : Kept l2s w.db) {q : FleetStmt} (hq : q.caches = false)
    (i : Nat) : Kept l2s (w.exec i q).db := by
  refine h.later (later_exec w i q) (fun p id entry hentry => ?_) fun p key entry hentry => ?_
  · cases q with
    | cacheRoot _ _ _ => cases hq
    | cachePair _ _ _ => cases hq
    | invalidateRoots process enterpriseId =>
        obtain ⟨-, hold⟩ := Option.ite_none_left_eq_some.mp hentry
        exact hold
    | putParameter path value overwrite =>
        have hexec : ((FleetStmt.putParameter path value overwrite).exec w.db).2.roots =
            w.db.roots := by
          unfold FleetStmt.exec
          exact (apply_ite (fun r : Bool × Fleet => r.2.roots) _ _ _).trans (ite_self _)
        exact hexec ▸ hentry
    | _ => exact hentry
  · cases q with
    | cacheRoot _ _ _ => cases hq
    | cachePair _ _ _ => cases hq
    | invalidatePairs process =>
        obtain ⟨-, hold⟩ := Option.ite_none_left_eq_some.mp hentry
        exact hold
    | putParameter path value overwrite =>
        have hexec : ((FleetStmt.putParameter path value overwrite).exec w.db).2.pairs =
            w.db.pairs := by
          unfold FleetStmt.exec
          exact (apply_ite (fun r : Bool × Fleet => r.2.pairs) _ _ _).trans (ite_self _)
        exact hexec ▸ hentry
    | _ => exact hentry

theorem kept_cacheRoot {w : FleetWorld} (h : Kept l2s w.db) {process : Nat} {enterpriseId : String}
    {entry : Entry Bytes} (htime : entry.time ≤ w.db.clock)
    (hroot : RootLately (l2s process).env enterpriseId w.db.parameters entry.time (some entry.value))
    (i : Nat) : Kept l2s (w.exec i (.cacheRoot process enterpriseId entry)).db where
  roots := by
    intro p id e he
    by_cases hkey : p = process ∧ id = enterpriseId
    · obtain ⟨rfl, rfl⟩ := hkey
      obtain rfl : entry = e := Option.some.inj ((if_pos ⟨rfl, rfl⟩).symm.trans he)
      exact ⟨htime, hroot⟩
    · exact h.roots p id e ((if_neg hkey).symm.trans he)
  pairs := h.pairs

theorem kept_cachePair {w : FleetWorld} (h : Kept l2s w.db) {process : Nat} {key : String × String}
    {entry : Entry Bytes} (htime : entry.time ≤ w.db.clock) {root : Bytes}
    (hroot : RootLately (l2s process).env key.1 w.db.parameters
      (entry.time - seconds (l2s process).rootTtlSec) (some root))
    (hsecret : derivePairSecret root (selfL2Id (l2s process).env) key.2 = some entry.value)
    (i : Nat) : Kept l2s (w.exec i (.cachePair process key entry)).db where
  roots := h.roots
  pairs := by
    intro p k e he
    by_cases hkey : p = process ∧ k = key
    · obtain ⟨rfl, rfl⟩ := hkey
      obtain rfl : entry = e := Option.some.inj ((if_pos ⟨rfl, rfl⟩).symm.trans he)
      exact ⟨htime, root, hroot, hsecret⟩
    · exact h.pairs p k e ((if_neg hkey).symm.trans he)

/-- The caches are kept so, and what comes is later. -/
def rotation (l2s : Nat → L2) : Contract Fleet FleetStmt.Answer where
  inv w := Kept l2s w.db
  rel := Later
  ok _ _ _ := True
  refl := Later.refl
  trans := Later.trans

variable {α : Type} {post : α → FleetWorld → Prop} {i : Nat}

/-- A statement that caches nothing. -/
theorem keeps_call {q : FleetStmt} {k : q.Answer → FleetProg α} {w : FleetWorld}
    (hq : q.caches = false)
    (hk : ∀ w', Kept l2s w'.db → Later w w' →
      (k (q.exec w'.db).1).Keeps (rotation l2s) post i (w'.exec i q)) :
    (Prog.call q k).Keeps (rotation l2s) post i w := fun w' hinv hrel _ =>
  ⟨⟨kept_exec hinv hq i, later_exec w' i q⟩, hk w' hinv hrel⟩

theorem keeps_elim {β : Type} {o : Option β} {p : FleetProg α} {k : β → FleetProg α}
    {w : FleetWorld} (hnone : o = none → p.Keeps (rotation l2s) post i w)
    (hsome : ∀ b, o = some b → (k b).Keeps (rotation l2s) post i w) :
    (o.elim p k).Keeps (rotation l2s) post i w := by
  cases o with
  | none => exact hnone rfl
  | some b => exact hsome b rfl

/-! ### What is served -/

/-- How long ago a root may have been the root that is used: the time for which a secret is kept,
and before that the time for which a root is. -/
def window (l2 : L2) : Int := seconds pairCacheTtlSec + seconds l2.rootTtlSec

/-- What `get_enterprise_root` has read by the end, begun in `w`. -/
def RootRead (l2 : L2) (enterpriseId : String) (fails : Bool) (w : FleetWorld)
    (root : Option Bytes) (w' : FleetWorld) : Prop :=
  Later w w' ∧ ((fails = true ∧ root = none) ∨
    RootLately l2.env enterpriseId w'.db.parameters (w.db.clock - seconds l2.rootTtlSec) root)

theorem seconds_nonneg (n : Nat) : 0 ≤ seconds n := by
  unfold seconds
  omega

theorem keeps_readRootFromSsm {process : Nat} {enterpriseId : String} {fails : Bool}
    {w₀ w : FleetWorld} {now : Int} (hstart : w₀.db.clock ≤ now) (hnow : now ≤ w.db.clock)
    (hlater : Later w₀ w) :
    (readRootFromSsm (l2s process) process enterpriseId fails now).Keeps (rotation l2s)
      (RootRead (l2s process) enterpriseId fails w₀) i w := by
  unfold readRootFromSsm
  have hpos := seconds_nonneg (l2s process).rootTtlSec
  cases hpath : paramPath (l2s process).env enterpriseId with
  | none => exact ⟨hlater, .inr (.inl ⟨hpath, rfl⟩)⟩
  | some path =>
      refine keeps_call rfl fun w' hkept hw' => ?_
      have hread : Later w (w'.exec i (.getParameter path fails)) := hw'.trans (later_exec w' i _)
      cases fails with
      | true => exact ⟨hlater.trans hread, .inl ⟨rfl, rfl⟩⟩
      | false =>
          -- what is read is the current value
          have hcurrent : ∀ root, (w'.db.parameters path).current.bind rootOfParameter = root →
              RootLately (l2s process).env enterpriseId w'.db.parameters now root := by
            intro root hroot
            exact .inr ⟨path, _, hpath, History.lately_current _ _, hroot⟩
          refine keeps_elim (fun hroot => ?_) fun root hroot => ?_
          · exact ⟨hlater.trans hread, .inr ((hcurrent none hroot).mono (by omega))⟩
          · intro w'' hkept' hw'' _
            have hclock : now ≤ w'.db.clock := hnow.trans hw'.clock
            have hroot'' : RootLately (l2s process).env enterpriseId w''.db.parameters now (some root) :=
              (hcurrent _ hroot).later hclock ((later_exec w' i _).trans hw'')
            exact ⟨⟨kept_cacheRoot hkept' (hclock.trans hw''.clock) hroot'' i,
              later_exec w'' i _⟩, hlater.trans (hread.trans (hw''.trans (later_exec w'' i _))),
              .inr (hroot''.mono (by omega))⟩

/-- **A root is read as it was** at most the time before for which it is kept. -/
theorem keeps_getEnterpriseRoot {process : Nat} {enterpriseId : String} {fails : Bool}
    {w : FleetWorld} :
    (getEnterpriseRoot (l2s process) process enterpriseId fails).Keeps (rotation l2s)
      (RootRead (l2s process) enterpriseId fails w) i w := by
  unfold getEnterpriseRoot
  refine keeps_call rfl fun w₁ _ hw₁ => keeps_call rfl fun w₂ hkept hw₂ => ?_
  have hlater : Later w (w₂.exec i (.cachedRoot process enterpriseId)) :=
    hw₁.trans ((later_exec w₁ i _).trans (hw₂.trans (later_exec w₂ i _)))
  have hclock : w₁.db.clock ≤ w₂.db.clock := hw₂.clock
  refine keeps_elim (fun _ => keeps_readRootFromSsm hw₁.clock hclock hlater) fun root hserved => ?_
  obtain ⟨-, hserved⟩ := Option.ite_none_right_eq_some.mp hserved
  obtain ⟨entry, hentry, hfresh⟩ := Option.bind_eq_some_iff.mp hserved
  obtain ⟨rfl, hage⟩ := Entry.of_fresh hfresh
  have hage' : w₁.db.clock - seconds (l2s process).rootTtlSec < entry.time := hage
  have hstart := hw₁.clock
  exact ⟨hlater, .inr ((hkept.roots process enterpriseId entry hentry).2.mono (by omega))⟩

/-- What a call of an L2 was served, at a time that it has read: a root that was the root at most
the window before, or none, if its own reading has failed. -/
def ServedBy (l2 : L2) (i : Nat) (fails : Bool) (root : Option Bytes) (w : FleetWorld) : Prop :=
  ∃ now : Int, (⟨i, .monotonic, now⟩ : FleetEvent) ∈ w.log ∧ now ≤ w.db.clock ∧
    ((fails = true ∧ root = none) ∨
      RootLately l2.env (enterprise l2.env) w.db.parameters (now - window l2) root)

/-- The secret of a peer is that of a root which the call was served. -/
def SecretServed (l2 : L2) (i : Nat) (peer : String) (fails : Bool) (secret : Option Bytes)
    (w : FleetWorld) : Prop :=
  ∃ root, secret = pairSecretForPeer l2.env root peer ∧
    (peer = selfL2Id l2.env ∨ ServedBy l2 i fails root w)

theorem pairSecretForPeer_of_ne {env : Environ} {peer : String} (hpeer : peer ≠ selfL2Id env)
    (root : Option Bytes) :
    pairSecretForPeer env root peer = root.bind fun r => derivePairSecret r (selfL2Id env) peer :=
  if_neg hpeer

theorem keeps_readPairSecret {process : Nat} {peer : String} {fails : Bool} {w : FleetWorld}
    {now : Int} (hpeer : peer ≠ selfL2Id (l2s process).env) (hnow : now ≤ w.db.clock)
    (hlog : (⟨i, .monotonic, now⟩ : FleetEvent) ∈ w.log) :
    (readPairSecret (l2s process) process peer fails now).Keeps (rotation l2s)
      (SecretServed (l2s process) i peer fails) i w := by
  unfold readPairSecret
  refine Prog.Keeps.bind keeps_getEnterpriseRoot fun root w' hread => ?_
  obtain ⟨hlater, hroot⟩ := hread
  have hpos := seconds_nonneg pairCacheTtlSec
  have hwindow : window (l2s process) = seconds pairCacheTtlSec + seconds (l2s process).rootTtlSec :=
    rfl
  have hserved : ServedBy (l2s process) i fails root w' := by
    refine ⟨now, hlater.log.subset hlog, hnow.trans hlater.clock, hroot.imp_right fun h => ?_⟩
    exact h.mono (by omega)
  have hclock : now ≤ w'.db.clock := hnow.trans hlater.clock
  refine keeps_elim (fun hsecret => ?_) fun secret hsecret => ?_
  · refine ⟨root, ?_, .inr hserved⟩
    rw [pairSecretForPeer_of_ne hpeer, hsecret]
  · obtain ⟨r, rfl, hderived⟩ := Option.bind_eq_some_iff.mp hsecret
    intro w'' hkept hw'' _
    have hr : RootLately (l2s process).env (enterprise (l2s process).env) w'.db.parameters
        (now - seconds (l2s process).rootTtlSec) (some r) := by
      rcases hroot with ⟨-, hnone⟩ | hroot
      · cases hnone
      · exact hroot.mono (by omega)
    have hrootPos := seconds_nonneg (l2s process).rootTtlSec
    have hend : Later w' (w''.exec i (.cachePair process (enterprise (l2s process).env, peer)
        ⟨secret, now⟩)) := hw''.trans (later_exec w'' i _)
    have hr'' : RootLately (l2s process).env (enterprise (l2s process).env) w''.db.parameters
        (now - seconds (l2s process).rootTtlSec) (some r) := hr.later (by omega) hw''
    have hkept' := @kept_cachePair l2s w'' hkept process (enterprise (l2s process).env, peer)
      ⟨secret, now⟩ (hclock.trans hw''.clock) r hr'' hderived i
    refine ⟨⟨hkept', later_exec w'' i _⟩, some r, ?_, .inr ⟨now, ?_, ?_, .inr ?_⟩⟩
    · rw [pairSecretForPeer_of_ne hpeer, hsecret]
    · exact hend.log.subset (hlater.log.subset hlog)
    · exact hclock.trans hend.clock
    · exact (hr.later (by omega) hend).mono (by omega)

/-- **A secret is that of a root** which was the root at most the window before. -/
theorem keeps_cachedPairSecret {process : Nat} {peer : String} {fails : Bool} {w : FleetWorld} :
    (cachedPairSecret (l2s process) process peer fails).Keeps (rotation l2s)
      (SecretServed (l2s process) i peer fails) i w := by
  unfold cachedPairSecret
  by_cases hpeer : peer = selfL2Id (l2s process).env
  · rw [if_pos hpeer]
    exact ⟨none, (if_pos hpeer).symm, .inl hpeer⟩
  rw [if_neg hpeer]
  refine keeps_call rfl fun w₁ _ hw₁ => keeps_call rfl fun w₂ hkept hw₂ => ?_
  have hclock : w₁.db.clock ≤ w₂.db.clock := hw₂.clock
  have hlog : (⟨i, .monotonic, w₁.db.clock⟩ : FleetEvent) ∈
      (w₂.exec i (.cachedPair process (enterprise (l2s process).env, peer))).log :=
    (hw₂.trans (later_exec w₂ i _)).log.subset List.mem_cons_self
  refine keeps_elim (fun _ => keeps_readPairSecret hpeer hclock hlog) fun secret hserved => ?_
  obtain ⟨entry, hentry, hfresh⟩ := Option.bind_eq_some_iff.mp hserved
  obtain ⟨rfl, hage⟩ := Entry.of_fresh hfresh
  have hage' : w₁.db.clock - seconds pairCacheTtlSec < entry.time := hage
  obtain ⟨-, root, hroot, hsecret⟩ := hkept.pairs process _ entry hentry
  refine ⟨some root, ?_, .inr ⟨w₁.db.clock, hlog, hclock, .inr (hroot.mono ?_)⟩⟩
  · rw [pairSecretForPeer_of_ne hpeer]
    exact hsecret.symm
  · unfold window
    omega

/-! ### What calls answer -/

/-- The answer of a call, by the root that it was served, unless it refuses its peer. -/
def FleetCall.AnswersBy (l2s : Nat → L2) (i : Nat) (a : FleetAnswer) (w : FleetWorld) :
    FleetCall → Prop
  | derive process peer fails => ∃ root,
      a = .bearer (deriveBearerToken (l2s process).env root peer) ∧
        (peer = "" ∨ peer = selfL2Id (l2s process).env ∨ ServedBy (l2s process) i fails root w)
  | verify process peer presented fails => ∃ root,
      a = .verdict (verifyBearerAgainstPeer (l2s process).env root peer presented) ∧
        (presented = "" ∨ peer = "" ∨ peer = selfL2Id (l2s process).env ∨
          ServedBy (l2s process) i fails root w)
  | _ => True

theorem verifyBearerAgainstPeer_eq (env : Environ) (root : Option Bytes) {peer presented : String}
    (h : ¬ (presented = "" ∨ peer = "")) :
    verifyBearerAgainstPeer env root peer presented =
      compareBearer presented (pairSecretForPeer env root peer) := by
  unfold verifyBearerAgainstPeer
  rw [if_neg h]
  cases pairSecretForPeer env root peer with
  | none => rfl
  | some secret => rfl

theorem keeps_bootstrap {process : Nat} {enterpriseId kmsKeyId : String} {overwrite : Bool}
    {root : Bytes} {w : FleetWorld} :
    (bootstrapEnterpriseRoot (l2s process) process enterpriseId kmsKeyId overwrite root).Keeps
      (rotation l2s) (fun _ _ => True) i w := by
  unfold bootstrapEnterpriseRoot
  by_cases hkms : kmsKeyId = ""
  · rw [if_pos hkms]
    trivial
  rw [if_neg hkms]
  refine keeps_elim (fun _ => trivial) fun path _ => keeps_call rfl fun w' _ _ => ?_
  generalize ((FleetStmt.putParameter path (String.ofList (hex root)) overwrite).exec w'.db).1 = put
  cases put with
  | false => trivial
  | true => exact keeps_call rfl fun _ _ _ => trivial

theorem keeps_bootstrapIfNeeded [Casing] {process : Nat} {root : Bytes} {fails : Bool}
    {w : FleetWorld} :
    (bootstrapRootIfNeeded (l2s process) process root fails).Keeps (rotation l2s)
      (fun _ _ => True) i w := by
  unfold bootstrapRootIfNeeded
  by_cases henabled : Casing.lower ((l2s process).env.get "CQ_ENTERPRISE_ROOT_BOOTSTRAP" "false") ≠
      "true"
  · rw [if_pos henabled]
    trivial
  rw [if_neg henabled]
  refine Prog.Keeps.bind keeps_getEnterpriseRoot fun present w' _ => ?_
  by_cases hpresent : present ≠ none
  · rw [if_pos hpresent]
    trivial
  rw [if_neg hpresent]
  by_cases hkms : (l2s process).env.get "CQ_ENTERPRISE_ROOT_KMS_KEY_ID" "" = ""
  · rw [if_pos hkms]
    trivial
  rw [if_neg hkms]
  exact Prog.Keeps.bind keeps_bootstrap fun _ _ _ => trivial

theorem keeps_elapse (durations : List Nat) {w : FleetWorld} :
    (elapse durations).Keeps (rotation l2s) (fun _ _ => True) i w := by
  induction durations generalizing w with
  | nil => trivial
  | cons duration rest ih => exact keeps_call rfl fun _ _ _ => ih

/-- Every call keeps the caches, and answers by what it was served. -/
theorem keeps_prog [Casing] (call : FleetCall) {w : FleetWorld} :
    (call.prog l2s).Keeps (rotation l2s) (fun a w' => call.AnswersBy l2s i a w') i w := by
  cases call with
  | derive process peer fails =>
      show (deriveBearer l2s process peer fails).Keeps _ _ _ _
      unfold deriveBearer
      by_cases hpeer : peer = ""
      · rw [if_pos hpeer]
        exact ⟨none, congrArg _ (if_pos hpeer).symm, .inl hpeer⟩
      rw [if_neg hpeer]
      refine Prog.Keeps.bind keeps_cachedPairSecret fun secret w' hserved => ?_
      obtain ⟨root, rfl, hserved⟩ := hserved
      exact ⟨root, congrArg _ (if_neg hpeer).symm, .inr hserved⟩
  | verify process peer presented fails =>
      show (verifyBearer l2s process peer presented fails).Keeps _ _ _ _
      unfold verifyBearer
      by_cases hempty : presented = "" ∨ peer = ""
      · rw [if_pos hempty]
        exact ⟨none, congrArg _ (if_pos hempty).symm, by tauto⟩
      rw [if_neg hempty]
      refine Prog.Keeps.bind keeps_cachedPairSecret fun secret w' hserved => ?_
      obtain ⟨root, rfl, hserved⟩ := hserved
      exact ⟨root, congrArg _ (verifyBearerAgainstPeer_eq _ root hempty).symm,
        .inr (.inr hserved)⟩
  | boot process root fails => exact Prog.Keeps.bind keeps_bootstrapIfNeeded fun _ _ _ => trivial
  | rotate process kmsKeyId root => exact Prog.Keeps.bind keeps_bootstrap fun _ _ _ => trivial
  | invalidateRoots process enterpriseId => exact keeps_call rfl fun _ _ _ => trivial
  | invalidatePairs process => exact keeps_call rfl fun _ _ _ => trivial
  | put path value overwrite => exact keeps_call rfl fun _ _ _ => trivial
  | elapse durations => exact keeps_elapse durations

end Kept

/-! ## Runs -/

theorem ServedBy.later {l2 : L2} {i : Nat} {fails : Bool} {root : Option Bytes}
    {w w' : FleetWorld} (h : ServedBy l2 i fails root w) (hlater : Later w w') :
    ServedBy l2 i fails root w' := by
  obtain ⟨now, hlog, hnow, hroot⟩ := h
  have hpos := seconds_nonneg pairCacheTtlSec
  have hrootPos := seconds_nonneg l2.rootTtlSec
  refine ⟨now, hlater.log.subset hlog, hnow.trans hlater.clock, hroot.imp_right fun h => ?_⟩
  refine h.later ?_ hlater
  unfold window
  omega

theorem FleetCall.AnswersBy.later {l2s : Nat → L2} {i : Nat} {a : FleetAnswer} {w w' : FleetWorld}
    {call : FleetCall} (h : call.AnswersBy l2s i a w) (hlater : Later w w') :
    call.AnswersBy l2s i a w' := by
  cases call with
  | derive process peer fails =>
      obtain ⟨root, ha, hserved⟩ := h
      exact ⟨root, ha, hserved.imp_right fun h => h.imp_right fun h => h.later hlater⟩
  | verify process peer presented fails =>
      obtain ⟨root, ha, hserved⟩ := h
      exact ⟨root, ha, hserved.imp_right fun h => h.imp_right fun h =>
        h.imp_right fun h => h.later hlater⟩
  | _ => trivial

section Runs

variable [Casing] {l2s : Nat → L2} {parameters : String → History (Option String)}
  {calls : List FleetCall} {schedule : List Nat}

/-- In every run each call that has ended has answered by what it was served. -/
theorem answersBy_run {i : Nat} {call : FleetCall} {a : FleetAnswer} (hcall : calls[i]? = some call)
    (hanswered : ((fleet l2s parameters calls).run schedule).Answered i a) :
    call.AnswersBy l2s i a ((fleet l2s parameters calls).run schedule).world := by
  have hstart : (rotation l2s).Holds
      (fun i a w => (calls[i]?.getD (.elapse [])).AnswersBy l2s i a w)
      (fleet l2s parameters calls) := by
    refine .start ⟨fun _ _ _ h => absurd h (Option.some_ne_none _).symm,
      fun _ _ _ h => absurd h (Option.some_ne_none _).symm⟩ fun j p hp => ?_
    rw [List.getElem?_map, Option.map_eq_some_iff] at hp
    obtain ⟨call', hcall', rfl⟩ := hp
    rw [hcall']
    exact keeps_prog call'
  have hmeets : (fleet l2s parameters calls).Meets (rotation l2s).Allows schedule :=
    (Config.meets_true _ _).imp fun _ _ _ _ _ _ => trivial
  obtain ⟨w, hlater, hby⟩ := (Contract.run hstart hmeets).1.answered hanswered
  rw [hcall] at hby
  exact FleetCall.AnswersBy.later hby hlater

end Runs

/-- Bearers are made of, and checked against, a root that was the root at most the window before
the call read the clock, or none at all, if the call's own reading of the root has failed. -/
def BearersFresh (l2s : Nat → L2) (calls : List FleetCall)
    (c : Config Fleet FleetStmt.Answer FleetAnswer) : Prop :=
  (∀ i process peer fails a, calls[i]? = some (.derive process peer fails) → c.Answered i a →
    ∃ root, a = .bearer (deriveBearerToken (l2s process).env root peer) ∧
      (peer = "" ∨ peer = selfL2Id (l2s process).env ∨
        ServedBy (l2s process) i fails root c.world)) ∧
  ∀ i process peer presented fails a,
    calls[i]? = some (.verify process peer presented fails) → c.Answered i a →
    ∃ root, a = .verdict (verifyBearerAgainstPeer (l2s process).env root peer presented) ∧
      (presented = "" ∨ peer = "" ∨ peer = selfL2Id (l2s process).env ∨
        ServedBy (l2s process) i fails root c.world)

/-- **Bearers are fresh.** However the calls of all L2s interleave with rotations, invalidations and
the passing of time, each bearer is that of a root which was the root at most the two times to live
before the call, and so is what a presented bearer is compared with. -/
theorem bearers_fresh [Casing] (l2s : Nat → L2) (parameters : String → History (Option String))
    (calls : List FleetCall) (schedule : List Nat) :
    BearersFresh l2s calls ((fleet l2s parameters calls).run schedule) :=
  ⟨fun _ _ _ _ _ hcall hanswered => answersBy_run hcall hanswered,
    fun _ _ _ _ _ _ hcall hanswered => answersBy_run hcall hanswered⟩

/-- The root of an L2 is at a path, and has been left alone since the window before any time that
a call has read. -/
def SettledFor (l2 : L2) (path : String) (i : Nat) (w : FleetWorld) : Prop :=
  paramPath l2.env (enterprise l2.env) = some path ∧
    ∀ now : Int, (⟨i, .monotonic, now⟩ : FleetEvent) ∈ w.log →
      (w.db.parameters path).Settled (now - window l2)

/-- What a call is served of a settled root is the root. -/
theorem ServedBy.eq_current {l2 : L2} {path : String} {i : Nat} {fails : Bool}
    {root : Option Bytes} {w : FleetWorld} (h : ServedBy l2 i fails root w)
    (hsettled : SettledFor l2 path i w) (hread : fails = true → root ≠ none) :
    root = (w.db.parameters path).current.bind rootOfParameter := by
  obtain ⟨hpath, hsettled⟩ := hsettled
  obtain ⟨now, hlog, -, ⟨hfails, hnone⟩ | ⟨hno, -⟩ | ⟨path', raw, hpath', hraw, rfl⟩⟩ := h
  · exact absurd hnone (hread hfails)
  · rw [hpath] at hno
    cases hno
  · cases hpath.symm.trans hpath'
    rw [hraw.eq_current (hsettled now hlog)]

/-- A bearer is made of a root, for another. -/
theorem root_of_bearer {env : Environ} {root : Option Bytes} {peer token : String}
    (h : deriveBearerToken env root peer = some token) :
    root ≠ none ∧ peer ≠ "" ∧ peer ≠ selfL2Id env := by
  unfold deriveBearerToken pairSecretForPeer at h
  obtain ⟨hpeer, h⟩ := Option.ite_none_left_eq_some.mp h
  obtain ⟨secret, hsecret, -⟩ := Option.map_eq_some_iff.mp h
  obtain ⟨hself, hsecret⟩ := Option.ite_none_left_eq_some.mp hsecret
  obtain ⟨r, rfl, -⟩ := Option.bind_eq_some_iff.mp hsecret
  exact ⟨Option.some_ne_none r, hpeer, hself⟩

/-- What is refused without a root is refused. -/
theorem verify_of_refused {env : Environ} (root : Option Bytes) {peer presented : String}
    (h : presented = "" ∨ peer = "" ∨ peer = selfL2Id env) :
    verifyBearerAgainstPeer env root peer presented = some false := by
  by_cases hempty : presented = "" ∨ peer = ""
  · exact if_pos hempty
  · have hself : peer = selfL2Id env := by tauto
    rw [verifyBearerAgainstPeer_eq env root hempty, pairSecretForPeer, if_pos hself]
    rfl

/-- **L2s agree on bearers once a rotation is over.** In every run, what one L2 has derived for
another is accepted there as the other's, if the reading of the root does not fail there and the
root, at one path for both, was last changed more than the two times to live before either call. -/
theorem bearers_agree [Casing] {l2s : Nat → L2} {parameters : String → History (Option String)}
    {calls : List FleetCall} {schedule : List Nat} {i j p q : Nat} {fails : Bool}
    {token path : String} {verdict : Option Bool}
    (hderive : calls[i]? = some (.derive p (selfL2Id (l2s q).env) fails))
    (hverify : calls[j]? = some (.verify q (selfL2Id (l2s p).env) token false))
    (hderived : ((fleet l2s parameters calls).run schedule).Answered i (.bearer (some token)))
    (hverified : ((fleet l2s parameters calls).run schedule).Answered j (.verdict verdict))
    (hsettled : SettledFor (l2s p) path i ((fleet l2s parameters calls).run schedule).world)
    (hsettled' : SettledFor (l2s q) path j ((fleet l2s parameters calls).run schedule).world) :
    verdict = some true := by
  obtain ⟨root, htoken, hserved⟩ := answersBy_run hderive hderived
  obtain ⟨root', hverdict, hserved'⟩ := answersBy_run hverify hverified
  generalize ((fleet l2s parameters calls).run schedule).world = w at *
  cases hverdict
  have htoken : deriveBearerToken (l2s p).env root (selfL2Id (l2s q).env) = some token :=
    (FleetAnswer.bearer.inj htoken).symm
  obtain ⟨hroot, hpeer, hself⟩ := root_of_bearer htoken
  have haccepted := verifyBearer_deriveBearer htoken
  have hserved := (hserved.resolve_left hpeer).resolve_left hself
  have hcurrent := hserved.eq_current hsettled fun _ => hroot
  by_cases hrefused : token = "" ∨ selfL2Id (l2s p).env = "" ∨
      selfL2Id (l2s p).env = selfL2Id (l2s q).env
  · rw [verify_of_refused root hrefused] at haccepted
    cases haccepted
  · have hserved' : ServedBy (l2s q) j false root' w := by tauto
    have hcurrent' := hserved'.eq_current hsettled' fun hfails => absurd hfails Bool.false_ne_true
    rw [hcurrent', ← hcurrent]
    exact haccepted

/-! ### Two L2s -/

section Sample

local instance rotationCasing : Casing := Knowledge.asciiCasing

/-- Two L2s of one Enterprise. -/
def siblings (process : Nat) : L2 where
  env := ⟨fun name =>
    if name = "CQ_ENTERPRISE" then some "acme"
    else if name = "CQ_GROUP" then some (if process = 0 then "eng" else "sol")
    else none⟩
  rootTtlSec := 300

def rootOfZeros : Bytes := List.replicate 32 0

/-- A store that holds one root. -/
def parametersOfZeros (_ : String) : History (Option String) :=
  ⟨[], some (String.ofList (hex rootOfZeros))⟩

def bearerOfZeros : String :=
  (deriveBearerToken (siblings 0).env (some rootOfZeros) (selfL2Id (siblings 1).env)).getD ""

def callsOfSiblings : List FleetCall :=
  [.derive 0 (selfL2Id (siblings 1).env) false,
    .verify 1 (selfL2Id (siblings 0).env) bearerOfZeros false]

theorem siblings_path (p : Nat) : paramPath (siblings p).env (enterprise (siblings p).env) =
    some "/8th-layer/aigrp/enterprise-root/acme" := by
  have hoverride : (siblings p).env.get "CQ_ENTERPRISE_ROOT_SSM_PATH" "" = "" := rfl
  have henterprise : enterprise (siblings p).env = "acme" := rfl
  unfold paramPath
  rw [hoverride, henterprise]
  decide

/-- The zeros make a bearer. -/
theorem bearerOfZeros_derived :
    deriveBearerToken (siblings 0).env (some rootOfZeros) (selfL2Id (siblings 1).env) =
      some bearerOfZeros := by
  have hpeer : selfL2Id (siblings 1).env ≠ "" := by decide
  have hself : selfL2Id (siblings 1).env ≠ selfL2Id (siblings 0).env := by decide
  have hpair : ∃ id, canonicalPairId (selfL2Id (siblings 0).env) (selfL2Id (siblings 1).env) =
      some id := Option.isSome_iff_exists.mp (by decide)
  obtain ⟨id, hid⟩ := hpair
  have hroot : ¬ rootOfZeros.length ≠ 32 := by decide
  unfold bearerOfZeros deriveBearerToken
  rw [if_neg hpeer, pairSecretForPeer_of_ne hself, Option.bind_some, derivePairSecret,
    if_neg hroot, hid]
  rfl

def runOfSiblings : Config Fleet FleetStmt.Answer FleetAnswer :=
  (fleet siblings parametersOfZeros callsOfSiblings).run (List.replicate 7 0 ++ List.replicate 7 1)

theorem siblings_parameters : runOfSiblings.world.db.parameters = parametersOfZeros := by
  suffices hreads : ∀ p ∈ (fleet siblings parametersOfZeros callsOfSiblings).tasks,
      p.Preserves (fun s : Fleet => s.parameters = parametersOfZeros) from
    @Config.run_preserves _ _ _ _ _ (fun s : Fleet => s.parameters = parametersOfZeros)
      (fleet siblings parametersOfZeros callsOfSiblings) rfl hreads _
  intro p hp
  obtain ⟨call, hcall, rfl⟩ := List.mem_map.mp hp
  simp only [callsOfSiblings, List.mem_cons, List.not_mem_nil, or_false] at hcall
  rcases hcall with rfl | rfl
  · exact (deriveBearer_reads siblings 0 _ false).preserves parametersOfZeros
  · exact (verifyBearer_reads siblings 1 _ bearerOfZeros false).preserves parametersOfZeros

theorem siblings_root (path : String) :
    (runOfSiblings.world.db.parameters path).current.bind rootOfParameter = some rootOfZeros := by
  rw [siblings_parameters]
  show rootOfParameter (String.ofList (hex rootOfZeros)) = _
  unfold rootOfParameter
  rw [String.toList_ofList, fromHex_hex]
  rfl

theorem siblings_settled (p i : Nat) :
    SettledFor (siblings p) "/8th-layer/aigrp/enterprise-root/acme" i runOfSiblings.world := by
  refine ⟨siblings_path p, fun now _ change hchange => ?_⟩
  rw [siblings_parameters] at hchange
  cases hchange

/-- What the first derives for the second is accepted there. -/
theorem bearers_agree_siblings : runOfSiblings.Answered 1 (.verdict (some true)) := by
  have hderive : callsOfSiblings[0]? =
      some (.derive 0 (selfL2Id (siblings 1).env) false) := rfl
  have hverify : callsOfSiblings[1]? =
      some (.verify 1 (selfL2Id (siblings 0).env) bearerOfZeros false) := rfl
  obtain ⟨a, ha⟩ : ∃ a, runOfSiblings.Answered 0 a :=
    Config.answered_of_count (c := fleet siblings parametersOfZeros callsOfSiblings) rfl
      (deriveBearer_reads siblings 0 _ false).ends (by decide)
  obtain ⟨b, hb⟩ : ∃ b, runOfSiblings.Answered 1 b :=
    Config.answered_of_count (c := fleet siblings parametersOfZeros callsOfSiblings) rfl
      (verifyBearer_reads siblings 1 _ bearerOfZeros false).ends (by decide)
  obtain ⟨root, rfl, hserved⟩ := answersBy_run hderive ha
  obtain ⟨root', rfl, -⟩ := answersBy_run hverify hb
  have hserved : ServedBy (siblings 0) 0 false root runOfSiblings.world :=
    (hserved.resolve_left (by decide)).resolve_left (by decide)
  have hroot : root = some rootOfZeros :=
    (hserved.eq_current (siblings_settled 0 0) fun h => absurd h Bool.false_ne_true).trans
      (siblings_root _)
  rw [hroot, bearerOfZeros_derived] at ha
  have hagree := bearers_agree hderive hverify ha hb (siblings_settled 0 0) (siblings_settled 1 1)
  exact hagree ▸ hb

end Sample

end EighthLayer.Aigrp
