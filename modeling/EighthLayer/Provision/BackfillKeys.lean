import EighthLayer.Environ
import EighthLayer.Lib.Bytes
import EighthLayer.Lib.Runs
import Mathlib.Logic.Function.Basic

/-!
# EighthLayer.Provision.BackfillKeys

The script that gives an L2 its `tx_send_key` (`bin/backfill-tx-keys.py`): it writes one key to two accounts,
the control plane's first and the L2's after it, and takes the first write back if the second one fails.

The first write is taken back only where there was a key before. So the accounts stay in step exactly if no
run that installs a first key fails at its second write, and no write that is reported as failed has been
done (`backfill_in_step_iff`).
-/

namespace EighthLayer.Provision

open Lib

/-! ## Parameters -/

/-- The parameters of an account by name. -/
abbrev Account := String → Option String

/-- `_ssm_param_name`. -/
def ssmParamName (enterprise group : String) : String :=
  "/8th-layer/l2/" ++ enterprise ++ "/" ++ group ++ "/tx_send_key"

/-- `_mint_key`, of 32 random bytes. -/
def mintKey (raw : Bytes) : String := String.ofList (hex raw)

/-- How a write fails: nothing has been done, or it has been done and the answer is lost. -/
inductive WriteFault where
  | refused
  | unanswered
deriving DecidableEq

/-- `_write_param`: whether it returns, and the account after it. -/
def writeParam (a : Account) (name value : String) (overwrite dryRun : Bool)
    (fault : Option WriteFault) : Bool × Account :=
  if dryRun then (true, a)
  else if fault = some .refused then (false, a)
  -- `ParameterAlreadyExists`
  else if (a name).isSome && !overwrite then (false, a)
  else (fault.isNone, Function.update a name (some value))

/-! ## One L2 -/

/-- The account of an L2, and that of the control plane. -/
structure Accounts where
  l2 : Account
  controlPlane : Account

/-- A run for one L2: its flags, what it draws, and how its writes fail. -/
structure BackfillRun where
  dryRun : Bool
  rotate : Bool
  force : Bool
  /-- `cp_session` is given. -/
  controlPlane : Bool
  raw : Bytes
  raw_length : raw.length = 32
  cpFault : Option WriteFault
  l2Fault : Option WriteFault
  rollbackFault : Option WriteFault

/-- How `backfill_one` ends: it returns, or raises what a write raises. -/
inductive BackfillEnd where
  | returned (success : Bool)
  | raised
deriving DecidableEq

/-- `existing`. -/
def BackfillRun.existing (r : BackfillRun) (name : String) (s : Accounts) : Option String :=
  if r.dryRun then none else s.l2 name

/-- `overwrite`. -/
def BackfillRun.overwrite (r : BackfillRun) (name : String) (s : Accounts) : Bool :=
  truthy (r.existing name s) || r.rotate || r.force

/-- The writes of `backfill_one`. -/
def writeBoth (name : String) (r : BackfillRun) (s : Accounts) : BackfillEnd × Accounts :=
  let newKey := mintKey r.raw
  let cp := if r.controlPlane then
      writeParam s.controlPlane name newKey (r.overwrite name s) r.dryRun r.cpFault
    else (true, s.controlPlane)
  if cp.1 = false then (.raised, { s with controlPlane := cp.2 })
  else
    let l2 := writeParam s.l2 name newKey (r.overwrite name s) r.dryRun r.l2Fault
    if l2.1 then (.returned true, ⟨l2.2, cp.2⟩)
    else
      let existing := r.existing name s
      let rolledBack := if r.controlPlane && truthy existing then
          (writeParam cp.2 name (existing.getD "") true r.dryRun r.rollbackFault).2
        else cp.2
      (.returned false, ⟨l2.2, rolledBack⟩)

/-- `backfill_one`. -/
def backfillOne (enterprise group : String) (r : BackfillRun) (s : Accounts) :
    BackfillEnd × Accounts :=
  let name := ssmParamName enterprise group
  if truthy (r.existing name s) && !(r.rotate || r.force) then (.returned false, s)
  else writeBoth name r s

/-- Runs one after the other, whatever becomes of each. -/
def backfillRuns (enterprise group : String) (s : Accounts) (runs : List BackfillRun) : Accounts :=
  runs.foldl (fun s r => (backfillOne enterprise group r s).2) s

/-! ## In step -/

/-- The two accounts hold the same key, or neither holds one. -/
structure InStep (name : String) (s : Accounts) : Prop where
  same : s.controlPlane name = s.l2 name
  nonempty : s.l2 name ≠ some ""

/-- A run in which no write fails, with both accounts. -/
structure BackfillRun.Smooth (r : BackfillRun) : Prop where
  wet : r.dryRun = false
  both : r.controlPlane = true
  cp : r.cpFault = none
  l2 : r.l2Fault = none
  rollback : r.rollbackFault = none

/-- Both accounts with a key. -/
def Accounts.install (s : Accounts) (name key : String) : Accounts :=
  ⟨Function.update s.l2 name (some key), Function.update s.controlPlane name (some key)⟩

/-- What is promised of a run. -/
structure Kept (enterprise group : String) (r : BackfillRun) (s : Accounts) : Prop where
  /-- The accounts are in step after it. -/
  inStep : InStep (ssmParamName enterprise group) (backfillOne enterprise group r s).2
  /-- One that fails leaves both as they were. -/
  failed : (backfillOne enterprise group r s).1 ≠ .returned true →
    (backfillOne enterprise group r s).2 = s
  /-- A further one in which no write fails installs its key, unless one is there and is not to be
  overwritten. -/
  again : ∀ r' : BackfillRun, r'.Smooth →
    (truthy ((backfillOne enterprise group r s).2.l2 (ssmParamName enterprise group)) = true →
      r'.rotate = true ∨ r'.force = true) →
    backfillOne enterprise group r' (backfillOne enterprise group r s).2 =
      (.returned true, (backfillOne enterprise group r s).2.install (ssmParamName enterprise group)
        (mintKey r'.raw))

/-- A run that gets to its writes, and whose writes fail as they must not: the L2's first key is refused
after the control plane has it, or a new key is written and the write is reported as failed. -/
structure Disturbs (name : String) (r : BackfillRun) (s : Accounts) : Prop where
  wet : r.dryRun = false
  writes : truthy (s.l2 name) = true → r.rotate = true ∨ r.force = true
  faults : (r.cpFault = some .unanswered ∧ s.l2 name ≠ some (mintKey r.raw)) ∨
    (r.cpFault = none ∧ r.l2Fault = some .refused ∧ s.l2 name = none) ∨
    (r.cpFault = none ∧ r.l2Fault = some .unanswered ∧ s.l2 name ≠ some (mintKey r.raw))

/-! ## Writes -/

theorem mintKey_ne_empty {raw : Bytes} (h : raw.length = 32) : mintKey raw ≠ "" := by
  intro heq
  have hlength := congrArg String.length heq
  rw [mintKey, String.length_ofList, hex_length, h] at hlength
  exact absurd hlength (by decide)

/-- A write that may overwrite what is there. -/
theorem writeParam_wet {a : Account} {name value : String} {overwrite : Bool}
    (h : (a name).isSome = true → overwrite = true) (fault : Option WriteFault) :
    writeParam a name value overwrite false fault =
      (fault.isNone, if fault = some .refused then a else Function.update a name (some value)) := by
  have hfree : ((a name).isSome && !overwrite) = false := by
    cases hsome : (a name).isSome with
    | false => rfl
    | true => rw [h hsome]; rfl
  unfold writeParam
  rw [if_neg Bool.false_ne_true, hfree]
  cases fault with
  | none => rfl
  | some fault => cases fault <;> rfl

section
variable {name : String} {r : BackfillRun} {s : Accounts}

theorem InStep.truthy_iff (h : InStep name s) : truthy (s.l2 name) = (s.l2 name).isSome := by
  have hnonempty := h.nonempty
  cases hkey : s.l2 name with
  | none => rfl
  | some key =>
    have hne : key ≠ "" := fun heq => hnonempty (by rw [hkey, heq])
    simp [truthy, hne]

/-- In step, both writes may overwrite what is there. -/
theorem InStep.writeBoth (h : InStep name s) (hwet : r.dryRun = false) (hboth : r.controlPlane = true)
    (hrollback : r.rollbackFault = none) :
    writeBoth name r s =
      (if r.cpFault ≠ none then
        (.raised, { s with
          controlPlane :=
            if r.cpFault = some .refused then s.controlPlane
            else Function.update s.controlPlane name (some (mintKey r.raw)) })
      else if r.l2Fault = none then (.returned true, s.install name (mintKey r.raw))
      else (.returned false,
        ⟨if r.l2Fault = some .refused then s.l2
          else Function.update s.l2 name (some (mintKey r.raw)),
        if (s.l2 name).isSome then s.controlPlane
        else Function.update s.controlPlane name (some (mintKey r.raw))⟩)) := by
  have hexisting : r.existing name s = s.l2 name := by simp [BackfillRun.existing, hwet]
  have hover : (s.l2 name).isSome = true → r.overwrite name s = true := fun hsome => by
    simp [BackfillRun.overwrite, hexisting, h.truthy_iff, hsome]
  have hcp := @writeParam_wet s.controlPlane name (mintKey r.raw) _ (h.same ▸ hover) r.cpFault
  have hl2 := @writeParam_wet s.l2 name (mintKey r.raw) _ hover r.l2Fault
  unfold Provision.writeBoth
  simp only [hboth, if_true, hwet, hcp, hl2, hexisting, hrollback, Bool.true_and, h.truthy_iff]
  cases hfault : r.cpFault with
  | some fault => simp
  | none =>
    cases hfault' : r.l2Fault with
    | none => simp [Accounts.install]
    | some fault =>
      -- what is written back is what the control plane had
      have hback := @writeParam_wet (Function.update s.controlPlane name (some (mintKey r.raw))) name
        ((s.l2 name).getD "") true (fun _ => rfl) none
      cases hkey : s.l2 name with
      | none => simp
      | some key =>
        have hcontrol : Function.update s.controlPlane name (some key) = s.controlPlane := by
          rw [← hkey, ← h.same]
          exact Function.update_eq_self name s.controlPlane
        rw [hkey, Option.getD_some, Function.update_idem, hcontrol] at hback
        simp [hback]

/-! ## Runs -/

/-- A dry run does nothing. -/
theorem backfillOne_dry (enterprise group : String) (hdry : r.dryRun = true) :
    backfillOne enterprise group r s = (.returned true, s) := by
  have hcp : ∀ (a : Account) (name value : String) (overwrite : Bool) (fault : Option WriteFault),
      writeParam a name value overwrite true fault = (true, a) := fun _ _ _ _ _ => rfl
  simp [backfillOne, writeBoth, BackfillRun.existing, hdry, hcp, truthy]

variable {enterprise group : String}

/-- A run that is refused, and one that goes on. -/
theorem backfillOne_wet (hwet : r.dryRun = false) : backfillOne enterprise group r s =
    if truthy (s.l2 (ssmParamName enterprise group)) = true ∧ r.rotate = false ∧ r.force = false then
      (.returned false, s)
    else writeBoth (ssmParamName enterprise group) r s := by
  simp [backfillOne, BackfillRun.existing, hwet]

theorem inStep_install {raw : Bytes} (hraw : raw.length = 32) :
    InStep name (s.install name (mintKey raw)) where
  same := by simp [Accounts.install]
  nonempty := by simpa [Accounts.install] using mintKey_ne_empty hraw

/-- Accounts in step can be given a key. -/
theorem InStep.again (h : InStep (ssmParamName enterprise group) s) (hr : r.Smooth)
    (hguard : truthy (s.l2 (ssmParamName enterprise group)) = true →
      r.rotate = true ∨ r.force = true) :
    backfillOne enterprise group r s =
      (.returned true, s.install (ssmParamName enterprise group) (mintKey r.raw)) := by
  have hpass : ¬ (truthy (s.l2 (ssmParamName enterprise group)) = true ∧ r.rotate = false ∧
      r.force = false) := by
    intro ⟨hkey, hrotate, hforce⟩
    rcases hguard hkey with h | h
    · exact absurd (hrotate.symm.trans h) (by decide)
    · exact absurd (hforce.symm.trans h) (by decide)
  rw [backfillOne_wet hr.wet, if_neg hpass, h.writeBoth hr.wet hr.both hr.rollback]
  simp [hr.cp, hr.l2]

/-- A run that leaves the accounts in step, and as they were if it fails, is all that is asked for. -/
theorem Kept.of_inStep {e : BackfillEnd} {s' : Accounts}
    (hrun : backfillOne enterprise group r s = (e, s'))
    (h : InStep (ssmParamName enterprise group) s') (hfailed : e ≠ .returned true → s' = s) :
    Kept enterprise group r s where
  inStep := by rwa [hrun]
  failed := by rwa [hrun]
  again := fun r' hr' hguard => by
    rw [hrun] at hguard ⊢
    exact h.again hr' hguard

/-- **One run**, of accounts that are in step. -/
theorem InStep.kept_iff (h : InStep (ssmParamName enterprise group) s) (hboth : r.controlPlane = true)
    (hrollback : r.rollbackFault = none) :
    Kept enterprise group r s ↔ ¬ Disturbs (ssmParamName enterprise group) r s := by
  cases hdry : r.dryRun with
  | true =>
    refine iff_of_true (.of_inStep (backfillOne_dry enterprise group hdry) h (absurd rfl)) fun hd => ?_
    exact absurd (hd.wet.symm.trans hdry) (by decide)
  | false =>
  have hwet := @backfillOne_wet r s enterprise group hdry
  by_cases hguard : truthy (s.l2 (ssmParamName enterprise group)) = true ∧ r.rotate = false ∧
      r.force = false
  · rw [if_pos hguard] at hwet
    refine iff_of_true (.of_inStep hwet h fun _ => rfl) fun hd => ?_
    rcases hd.writes hguard.1 with hflag | hflag
    · exact absurd (hguard.2.1.symm.trans hflag) (by decide)
    · exact absurd (hguard.2.2.symm.trans hflag) (by decide)
  rw [if_neg hguard, h.writeBoth hdry hboth hrollback] at hwet
  have hwrites : truthy (s.l2 (ssmParamName enterprise group)) = true →
      r.rotate = true ∨ r.force = true := by
    intro hkey
    rw [← Bool.not_eq_false, ← Bool.not_eq_false, ← not_and_or]
    exact fun hflags => hguard ⟨hkey, hflags⟩
  -- setting what is there already changes nothing
  have hsame : ∀ a : Account, a (ssmParamName enterprise group) = some (mintKey r.raw) →
      Function.update a (ssmParamName enterprise group) (some (mintKey r.raw)) = a := by
    intro a ha
    rw [← ha]
    exact Function.update_eq_self _ a
  cases hcp : r.cpFault with
  | some fault =>
    rw [if_pos (by simp [hcp])] at hwet
    cases fault with
    | refused =>
      rw [if_pos hcp] at hwet
      refine iff_of_true (.of_inStep hwet h fun _ => rfl) fun hd => ?_
      rcases hd.faults with hf | hf | hf
      · exact absurd (hcp.symm.trans hf.1) (by decide)
      · exact absurd (hcp.symm.trans hf.1) (by decide)
      · exact absurd (hcp.symm.trans hf.1) (by decide)
    | unanswered =>
      rw [if_neg (by simp [hcp])] at hwet
      by_cases hkey : s.l2 (ssmParamName enterprise group) = some (mintKey r.raw)
      · rw [hsame _ (h.same.trans hkey)] at hwet
        refine iff_of_true (.of_inStep hwet h fun _ => rfl) fun hd => ?_
        rcases hd.faults with hf | hf | hf
        · exact hf.2 hkey
        · exact absurd (hcp.symm.trans hf.1) (by decide)
        · exact absurd (hcp.symm.trans hf.1) (by decide)
      · refine iff_of_false (fun hk => hkey ?_) (not_not.mpr ⟨hdry, hwrites, .inl ⟨hcp, hkey⟩⟩)
        have hstep := hk.inStep.same
        rw [hwet] at hstep
        simpa using hstep.symm
  | none =>
    rw [if_neg (by simp [hcp])] at hwet
    cases hl2 : r.l2Fault with
    | none =>
      rw [if_pos hl2] at hwet
      refine iff_of_true (.of_inStep hwet (inStep_install r.raw_length) (absurd rfl)) fun hd => ?_
      rcases hd.faults with hf | hf | hf
      · exact absurd (hcp.symm.trans hf.1) (by decide)
      · exact absurd (hl2.symm.trans hf.2.1) (by decide)
      · exact absurd (hl2.symm.trans hf.2.1) (by decide)
    | some fault =>
      rw [if_neg (by simp [hl2])] at hwet
      cases fault with
      | refused =>
        rw [if_pos hl2] at hwet
        cases hkey : s.l2 (ssmParamName enterprise group) with
        | some key =>
          rw [hkey, Option.isSome_some, if_pos rfl] at hwet
          refine iff_of_true (.of_inStep hwet h fun _ => rfl) fun hd => ?_
          rcases hd.faults with hf | hf | hf
          · exact absurd (hcp.symm.trans hf.1) (by decide)
          · exact absurd (hkey.symm.trans hf.2.2) (Option.some_ne_none key)
          · exact absurd (hl2.symm.trans hf.2.1) (by decide)
        | none =>
          rw [hkey, Option.isSome_none, if_neg Bool.false_ne_true] at hwet
          refine iff_of_false (fun hk => ?_)
            (not_not.mpr ⟨hdry, hwrites, .inr (.inl ⟨hcp, hl2, hkey⟩)⟩)
          -- the control plane has a key, and the L2 has none
          have hstep := hk.inStep.same
          rw [hwet] at hstep
          simp [hkey] at hstep
      | unanswered =>
        rw [if_neg (by simp [hl2])] at hwet
        by_cases hkey : s.l2 (ssmParamName enterprise group) = some (mintKey r.raw)
        · rw [hsame _ hkey, hkey, Option.isSome_some, if_pos rfl] at hwet
          refine iff_of_true (.of_inStep hwet h fun _ => rfl) fun hd => ?_
          rcases hd.faults with hf | hf | hf
          · exact absurd (hcp.symm.trans hf.1) (by decide)
          · exact absurd (hl2.symm.trans hf.2.1) (by decide)
          · exact hf.2.2 hkey
        · refine iff_of_false (fun hk => hkey ?_)
            (not_not.mpr ⟨hdry, hwrites, .inr (.inr ⟨hcp, hl2, hkey⟩)⟩)
          have hfailed := congrArg (fun a => a.l2 (ssmParamName enterprise group))
            (hk.failed (by simp [hwet]))
          rw [hwet] at hfailed
          simpa using hfailed.symm

end

/-- **Runs for one L2**, of accounts that are in step at the start: each keeps what is promised exactly if
none disturbs them. -/
theorem backfill_in_step_iff (enterprise group : String) (s : Accounts)
    (hstart : InStep (ssmParamName enterprise group) s) (runs : List BackfillRun)
    (hboth : ∀ r ∈ runs, r.controlPlane = true ∧ r.rollbackFault = none) :
    (∀ n r, runs[n]? = some r →
      Kept enterprise group r (backfillRuns enterprise group s (runs.take n))) ↔
    ∀ n r, runs[n]? = some r →
      ¬ Disturbs (ssmParamName enterprise group) r (backfillRuns enterprise group s (runs.take n)) := by
  have hits : ∀ {n : Nat} {r : BackfillRun}, runs[n]? = some r →
      r.controlPlane = true ∧ r.rollbackFault = none := fun hr => hboth _ (List.mem_of_getElem? hr)
  constructor
  · intro hkept n r hr
    have hinStep := @run_invariant_of _ _ (fun s r => (backfillOne enterprise group r s).2)
      (InStep (ssmParamName enterprise group)) (fun s r => Kept enterprise group r s) s hstart
      (fun _ _ _ h => h.inStep) runs hkept n
    exact (hinStep.kept_iff (hits hr).1 (hits hr).2).mp (hkept n r hr)
  · intro hcalm n r hr
    have hinStep := @run_invariant_of _ _ (fun s r => (backfillOne enterprise group r s).2)
      (InStep (ssmParamName enterprise group))
      (fun s r => (r.controlPlane = true ∧ r.rollbackFault = none) ∧
        ¬ Disturbs (ssmParamName enterprise group) r s) s hstart
      (fun s r h hok => ((h.kept_iff hok.1.1 hok.1.2).mpr hok.2).inStep) runs
      (fun n r hr => ⟨hits hr, hcalm n r hr⟩) n
    exact (hinStep.kept_iff (hits hr).1 (hits hr).2).mpr (hcalm n r hr)

/-! ### Runs for one L2 -/

/-- Accounts without a key. -/
def noKeys : Accounts := ⟨fun _ => none, fun _ => none⟩

/-- A run without flags, by the bytes that it draws and what becomes of its writes. -/
def plainRun (b : UInt8) (cpFault l2Fault : Option WriteFault) : BackfillRun where
  dryRun := false
  rotate := false
  force := false
  controlPlane := true
  raw := List.replicate 32 b
  raw_length := List.length_replicate
  cpFault
  l2Fault
  rollbackFault := none

/-- A first key that is refused at the control plane. -/
theorem backfill_in_step_sample :
    Kept "acme" "eng" (plainRun 1 (some .refused) none) noKeys :=
  (backfill_in_step_iff "acme" "eng" noKeys ⟨rfl, Option.some_ne_none "" |>.symm⟩
    [plainRun 1 (some .refused) none]
    (fun r hr => by rw [List.mem_singleton.mp hr]; exact ⟨rfl, rfl⟩)).mpr
    (fun n r hr hd => by
      obtain rfl := List.mem_singleton.mp (List.mem_of_getElem? hr)
      rcases hd.faults with h | h | h <;> exact absurd h.1 (by decide)) 0 _ rfl

/-- A first key that is refused at the L2 stays with the control plane, and from then on a plain run fails
though none of its writes would. -/
theorem first_key_left_behind :
    (backfillOne "acme" "eng" (plainRun 1 none (some .refused)) noKeys).1 = .returned false ∧
      ¬ InStep (ssmParamName "acme" "eng")
        (backfillOne "acme" "eng" (plainRun 1 none (some .refused)) noKeys).2 ∧
      (backfillOne "acme" "eng" (plainRun 2 none none)
        (backfillOne "acme" "eng" (plainRun 1 none (some .refused)) noKeys).2).1 = .raised := by
  refine ⟨by decide, fun h => ?_, by decide⟩
  exact absurd h.same (by decide)

end EighthLayer.Provision
