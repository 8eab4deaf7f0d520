import EighthLayer.Directory.Peerings
import EighthLayer.Knowledge.Unit
import Mathlib.Data.List.Infix
import Mathlib.Data.List.Induction
import Mathlib.Data.Nat.Find

/-!
# EighthLayer.Plugin.Reminders

The reminders that the hook of Claude Code puts into a session
(`plugins/cq/hooks/claude_code/cq_cc_hook.py`).

What has been reminded of is kept by a key. The key of concentrated work is its surface. The key of a
recovery is the surface and the second of the success, and not the failed call that it recovers from,
which stays in the history for four more calls. So a failed call is reminded of once, and each of them,
just where recoveries of a surface fall into one second exactly if they are from the same failed call
(`recoveries_spaced_iff`).
-/

namespace EighthLayer.Plugin

open Lib

/-! ## Tool calls -/

section
variable [Knowledge.Casing]

/-- Python's `str`, which is the text itself for a text. -/
class PyStr where
  str : Json → String

/-- What the hook reads of an event. Of the two spellings of a key it takes the first that has
something; an `exitCode` is one that is an integer. -/
structure Payload where
  toolName : String
  toolInput : List (String × Json)
  toolResponse : Json
  isError : Json
  exitCode : Option Int

/-- `tool_input.get(key)`. -/
def Payload.input (p : Payload) (key : String) : Json := (p.toolInput.lookup key).getD .null

/-- `HISTORY_WINDOW`. -/
def historyWindow : Nat := 5

/-- `MAX_INPUT_SNIPPET`. -/
def maxInputSnippet : Nat := 200

/-- `needle in s`. -/
def contains (needle s : String) : Bool := needle.toList <:+: s.toList

/-- `_detect_error`. -/
def detectError (p : Payload) : Bool :=
  (match p.isError with
    | .bool b => b
    | _ => false) ||
  (match p.exitCode with
    | some code => code ≠ 0
    | none => false) ||
  match p.toolResponse with
  | .obj response =>
    (match response.lookup "is_error" with
      | some (.bool b) => b
      | _ => false) ||
    (match response.lookup "error" with
      | some (.str err) => err ≠ ""
      | _ => false)
  | .str response =>
    let lowered := Knowledge.Casing.lower response
    contains "error:" lowered || contains "traceback" lowered || contains "command failed" lowered
  | _ => false

/-- `_truncate`. -/
def truncate (value : String) (limit : Nat) : String :=
  if value.length ≤ limit then value else String.ofList (value.toList.take limit) ++ "…"

/-- `str(a or b or "")`. -/
def firstText [PyStr] (a b : Json) : String :=
  let v := if Directory.isTrue a then a else if Directory.isTrue b then b else .str ""
  match v with
  | .str s => s
  | v => PyStr.str v

/-- The first word of a command. -/
def firstWord (cmd : String) : String :=
  String.ofList ((cmd.toList.dropWhile Aigrp.isSpace).takeWhile fun c => !Aigrp.isSpace c)

/-- `_surface_fingerprint`. -/
def surfaceFingerprint [PyStr] (p : Payload) : String :=
  if p.toolName ∈ ["Edit", "Write", "Read", "NotebookEdit"] then
    truncate (firstText (p.input "file_path") (p.input "path")) maxInputSnippet
  else if p.toolName ∈ ["Bash", "Shell"] then
    truncate (firstWord (firstText (p.input "command") .null)) maxInputSnippet
  else if p.toolName = "Grep" then
    truncate (firstText (p.input "path") (p.input "pattern")) maxInputSnippet
  else p.toolName

/-! ## The hook -/

/-- An entry of the history. -/
structure Entry where
  tool : String
  surface : String
  error : Bool
  ts : Nat
deriving DecidableEq

inductive Reminder where
  | recovery
  | concentrated
deriving DecidableEq

/-- `RECOVERY_REMINDER` and `CONCENTRATED_REMINDER`. -/
def Reminder.text : Reminder → String
  | recovery => "[8l-cq] You just recovered from a tool error. If the workaround would help another " ++
      "agent in the same situation, propose a KU now via mcp__cq__propose."
  | concentrated => "[8l-cq] Several recent tool calls hit the same surface. If you've discovered a " ++
      "non-obvious pattern, propose a KU now via mcp__cq__propose."

/-- The files of a session: the recent calls, and the keys of the reminders. -/
structure HookState where
  history : List Entry
  fired : List String

def recoveryKey (surface : String) (ts : Nat) : String :=
  "recovery:" ++ surface ++ ":" ++ toString ts

def concentratedKey (surface : String) : String := "concentrated:" ++ surface

/-- Rule 2 of `_decide`: the last three calls are successes on one surface. -/
def concentratedWork (history : List Entry) (latest : Entry) (fired : List String) :
    Option (String × Reminder) :=
  let lastThree := history.drop (history.length - 3)
  if 3 ≤ history.length && lastThree.all (fun e => !e.error && e.surface = latest.surface) &&
      !fired.contains (concentratedKey latest.surface) then
    some (concentratedKey latest.surface, .concentrated)
  else none

/-- `_decide`. -/
def decideReminder (history : List Entry) (fired : List String) : Option (String × Reminder) :=
  match history.getLast? with
  | none => none
  | some latest =>
    if latest.error then none
    else if (history.dropLast.any fun prior => prior.error && prior.surface = latest.surface) &&
        !fired.contains (recoveryKey latest.surface latest.ts) then
      some (recoveryKey latest.surface latest.ts, .recovery)
    else concentratedWork history latest fired

omit [Knowledge.Casing] in
theorem decideReminder_concat (past : List Entry) (latest : Entry) (fired : List String) :
    decideReminder (past ++ [latest]) fired =
      if latest.error then none
      else if (past.any fun prior => prior.error && prior.surface = latest.surface) &&
          !fired.contains (recoveryKey latest.surface latest.ts) then
        some (recoveryKey latest.surface latest.ts, .recovery)
      else concentratedWork (past ++ [latest]) latest fired := by
  unfold decideReminder
  rw [List.getLast?_concat, List.dropLast_concat]

omit [Knowledge.Casing] in
theorem concentratedWork_eq_some {history : List Entry} {latest : Entry} {fired : List String}
    {key : String} {r : Reminder} (h : concentratedWork history latest fired = some (key, r)) :
    r = .concentrated ∧ key = concentratedKey latest.surface ∧ key ∉ fired := by
  unfold concentratedWork at h
  dsimp only at h
  split at h
  · rename_i hcond
    cases h
    rw [Bool.and_eq_true, Bool.not_eq_true', ← Bool.not_eq_true, List.contains_iff_mem] at hcond
    exact ⟨rfl, rfl, hcond.2⟩
  · cases h

/-- The call of the hook after a tool has been used: what it is given, the second, and whether a rate
limit is in force. -/
structure HookCall where
  payload : Payload
  now : Nat
  rateLimited : Bool

/-- The entry of a call. -/
def HookCall.entry [PyStr] (c : HookCall) : Entry where
  tool := c.payload.toolName
  surface := surfaceFingerprint c.payload
  error := detectError c.payload
  ts := c.now

/-- `run_post_tool_use`: the files after it, and what is kept as fired and written out. -/
def runPostToolUse [PyStr] (s : HookState) (c : HookCall) : HookState × Option (String × Reminder) :=
  if c.payload.toolName = "" then (s, none)
  else
    let history := (s.history ++ [c.entry]).drop (s.history.length + 1 - historyWindow)
    if c.rateLimited then ({ s with history }, none)
    else match decideReminder history s.fired with
      | none => ({ s with history }, none)
      | some (key, reminder) =>
        (⟨history, if s.fired.contains key then s.fired else key :: s.fired⟩, some (key, reminder))

/-- A call that names its tool. -/
structure ToolUse extends HookCall where
  named : payload.toolName ≠ ""

/-- The files of a session after some calls. -/
def hookAfter [PyStr] (calls : List ToolUse) : HookState :=
  calls.foldl (fun s c => (runPostToolUse s c.toHookCall).1) ⟨[], []⟩

/-- What the `j`-th call of a session is answered with. -/
def fires [PyStr] (calls : List ToolUse) (j : Nat) : Option (String × Reminder) :=
  calls[j]?.bind fun c => (runPostToolUse (hookAfter (calls.take j)) c.toHookCall).2

/-! ### Keys -/

omit [Knowledge.Casing] in
theorem split_at_last {α : Type} {x : α} {s s' t t' : List α} (ht : x ∉ t) (ht' : x ∉ t')
    (h : s ++ x :: t = s' ++ x :: t') : s = s' ∧ t = t' := by
  induction s generalizing s' with
  | nil =>
      cases s' with
      | nil => exact ⟨rfl, (List.cons.inj h).2⟩
      | cons y s' =>
          exact absurd ((List.cons.inj h).2 ▸ List.mem_append_right s' List.mem_cons_self) ht
  | cons y s ih =>
      cases s' with
      | nil =>
          exact absurd ((List.cons.inj h).2 ▸ List.mem_append_right s List.mem_cons_self) ht'
      | cons y' s' =>
          obtain ⟨rfl, hrest⟩ := List.cons.inj h
          obtain ⟨rfl, rfl⟩ := ih hrest
          exact ⟨rfl, rfl⟩

omit [Knowledge.Casing] in
/-- A key tells of which surface and of which second it is. -/
theorem recoveryKey_inj {surface surface' : String} {ts ts' : Nat}
    (h : recoveryKey surface ts = recoveryKey surface' ts') : surface = surface' ∧ ts = ts' := by
  have htext : ∀ (surface : String) (ts : Nat), (recoveryKey surface ts).toList =
      "recovery:".toList ++ (surface.toList ++ ':' :: Nat.toDigits 10 ts) := by
    intro surface ts
    have hdigits : (toString ts).toList = Nat.toDigits 10 ts := Nat.toList_repr
    unfold recoveryKey
    rw [String.toList_append, String.toList_append, String.toList_append, hdigits,
      List.append_assoc, List.append_assoc]
    rfl
  have hcolon : ∀ ts, ':' ∉ Nat.toDigits 10 ts := fun ts hmem =>
    absurd (Nat.isDigit_of_mem_toDigits (by decide) (by decide) hmem) (by decide)
  have hlist := congrArg String.toList h
  rw [htext, htext] at hlist
  obtain ⟨hsurface, hts⟩ := split_at_last (hcolon ts) (hcolon ts') (List.append_cancel_left hlist)
  have hvalue := congrArg (fun ds => Nat.ofDigitChars 10 ds 0) hts
  rw [Nat.ofDigitChars_ten_toDigits, Nat.ofDigitChars_ten_toDigits] at hvalue
  exact ⟨String.toList_inj.mp hsurface, hvalue⟩

omit [Knowledge.Casing] in
theorem recoveryKey_ne_concentratedKey (surface surface' : String) (ts : Nat) :
    recoveryKey surface ts ≠ concentratedKey surface' := by
  intro h
  have hlist := congrArg String.toList h
  unfold recoveryKey concentratedKey at hlist
  rw [String.toList_append, String.toList_append, String.toList_append, String.toList_append,
    List.append_assoc, List.append_assoc] at hlist
  have hhead : 'r' = 'c' := (List.cons.inj hlist).1
  exact absurd hhead (by decide)

/-! ## Recoveries -/

section
variable [PyStr]

/-- The surface that a call has touched. -/
def ToolUse.surface (c : ToolUse) : String := surfaceFingerprint c.payload

/-- A call that failed on a surface. -/
def FailedOn (calls : List ToolUse) (i : Nat) (surface : String) : Prop :=
  ∃ c, calls[i]? = some c ∧ detectError c.payload = true ∧ c.surface = surface

/-- A success on the surface of a failed call that is still in the history, the last one before it. -/
structure Recovers (calls : List ToolUse) (c : ToolUse) (j i : Nat) : Prop where
  at_ : calls[j]? = some c
  succeeded : detectError c.payload = false
  unlimited : c.rateLimited = false
  before : i < j
  recent : j ≤ i + 4
  failed : FailedOn calls i c.surface
  last : ∀ k, i < k → k < j → ¬ FailedOn calls k c.surface

/-- A call is answered with a reminder. -/
def Reminds (calls : List ToolUse) (j : Nat) (r : Reminder) : Prop :=
  ∃ key, fires calls j = some (key, r)

/-- What may be expected of the reminders of a session: one for a failed call, one for concentrated work
on a surface, and none left out for a recovery from another failed call. -/
structure RemindsOnce (calls : List ToolUse) : Prop where
  ofFailure : ∀ j, Reminds calls j .recovery → ∃ c i, Recovers calls c j i
  perFailure : ∀ j j' i c c', j < j' → Recovers calls c j i → Recovers calls c' j' i →
    Reminds calls j .recovery → ¬ Reminds calls j' .recovery
  perSurface : ∀ (j j' : Nat) (c c' : ToolUse), j < j' → calls[j]? = some c →
    calls[j']? = some c' → c.surface = c'.surface → Reminds calls j .concentrated →
    ¬ Reminds calls j' .concentrated
  apart : ∀ j i c, Recovers calls c j i → Reminds calls j .recovery ∨
    ∃ j₀ < j, ∃ c₀, Recovers calls c₀ j₀ i ∧ Reminds calls j₀ .recovery

/-- Recoveries of a surface fall into one second exactly if they are from the same failed call. -/
def Spaced (calls : List ToolUse) : Prop :=
  ∀ j j' i i' c c', j < j' → Recovers calls c j i → Recovers calls c' j' i' →
    c.surface = c'.surface → (i = i' ↔ c.now = c'.now)

/-! ### The files of a session -/

theorem runPostToolUse_named (s : HookState) (c : ToolUse) :
    runPostToolUse s c.toHookCall =
      (⟨(s.history ++ [c.entry]).drop (s.history.length + 1 - historyWindow),
        match (runPostToolUse s c.toHookCall).2 with
        | some (key, _) => if s.fired.contains key then s.fired else key :: s.fired
        | none => s.fired⟩,
      if c.rateLimited then none
      else decideReminder ((s.history ++ [c.entry]).drop (s.history.length + 1 - historyWindow))
        s.fired) := by
  unfold runPostToolUse
  rw [if_neg c.named]
  dsimp only
  by_cases hlimited : c.rateLimited = true
  · rw [if_pos hlimited, if_pos hlimited]
  · rw [if_neg hlimited, if_neg hlimited]
    cases decideReminder ((s.history ++ [c.entry]).drop (s.history.length + 1 - historyWindow))
        s.fired with
    | none => rfl
    | some r => rfl

theorem hookAfter_concat (calls : List ToolUse) (c : ToolUse) :
    hookAfter (calls ++ [c]) = (runPostToolUse (hookAfter calls) c.toHookCall).1 := by
  unfold hookAfter
  rw [List.foldl_append]
  rfl

/-- The history has the last five calls. -/
theorem history_hookAfter (calls : List ToolUse) :
    (hookAfter calls).history =
      (calls.map fun c => c.entry).drop (calls.length - historyWindow) := by
  induction calls using List.reverseRecOn with
  | nil => rfl
  | append_singleton calls c ih =>
      rw [hookAfter_concat, runPostToolUse_named]
      dsimp only
      rw [ih, List.length_drop, List.length_map, List.map_append, List.length_append,
        List.length_singleton, List.map_singleton]
      unfold historyWindow
      have hle : calls.length - 5 ≤ (calls.map fun c => c.entry).length := by
        rw [List.length_map]
        omega
      rw [← List.drop_append_of_le_length hle, List.drop_drop]
      congr 1
      omega

omit [Knowledge.Casing] [PyStr] in
theorem take_succ_of_getElem? {calls : List ToolUse} {j : Nat} {c : ToolUse}
    (h : calls[j]? = some c) : calls.take (j + 1) = calls.take j ++ [c] := by
  rw [List.take_add_one, h]
  rfl

/-- The fired keys are those of the reminders. -/
theorem mem_fired_iff {calls : List ToolUse} {j : Nat} (hj : j ≤ calls.length) {key : String} :
    key ∈ (hookAfter (calls.take j)).fired ↔ ∃ j₀ < j, ∃ r, fires calls j₀ = some (key, r) := by
  induction j with
  | zero => exact iff_of_false (List.not_mem_nil) fun ⟨_, hlt, _⟩ => absurd hlt (Nat.not_lt_zero _)
  | succ j ih =>
      obtain ⟨c, hc⟩ : ∃ c, calls[j]? = some c := ⟨_, List.getElem?_eq_getElem hj⟩
      have hfires : fires calls j = (runPostToolUse (hookAfter (calls.take j)) c.toHookCall).2 := by
        rw [fires, hc, Option.bind_some]
      have hsplit : (∃ j₀ < j + 1, ∃ r, fires calls j₀ = some (key, r)) ↔
          (∃ j₀ < j, ∃ r, fires calls j₀ = some (key, r)) ∨ ∃ r, fires calls j = some (key, r) := by
        constructor
        · intro h
          obtain ⟨j₀, hlt, hr⟩ := h
          rcases Nat.lt_succ_iff_lt_or_eq.mp hlt with hlt | rfl
          · exact .inl ⟨j₀, hlt, hr⟩
          · exact .inr hr
        · intro h
          rcases h with ⟨j₀, hlt, hr⟩ | hr
          · exact ⟨j₀, Nat.lt_succ_of_lt hlt, hr⟩
          · exact ⟨j, Nat.lt_succ_self j, hr⟩
      rw [take_succ_of_getElem? hc, hookAfter_concat, runPostToolUse_named, hsplit,
        ← ih (Nat.le_of_succ_le hj), hfires]
      dsimp only
      cases hr : (runPostToolUse (hookAfter (calls.take j)) c.toHookCall).2 with
      | none => simp
      | some r =>
          obtain ⟨key', r⟩ := r
          dsimp only
          split
          · rename_i hcontains
            have hmem := List.contains_iff_mem.mp hcontains
            constructor
            · exact .inl
            · intro h
              rcases h with h | ⟨_, heq⟩
              · exact h
              · cases heq
                exact hmem
          · rw [List.mem_cons]
            constructor
            · intro h
              rcases h with rfl | h
              · exact .inr ⟨r, rfl⟩
              · exact .inl h
            · intro h
              rcases h with h | ⟨_, heq⟩
              · exact .inr h
              · cases heq
                exact .inl rfl

/-! ### The reminder of a call -/

/-- What is decided after a call, of the four calls before it. -/
theorem fires_eq {calls : List ToolUse} {j : Nat} {c : ToolUse} (hc : calls[j]? = some c) :
    fires calls j = if c.rateLimited then none
      else decideReminder (((calls.take j).map fun c => c.entry).drop (j - 4) ++ [c.entry])
        (hookAfter (calls.take j)).fired := by
  have hj : j < calls.length := (List.getElem?_eq_some_iff.mp hc).1
  have hlength : (calls.take j).length = j := List.length_take_of_le (Nat.le_of_lt hj)
  have hhistory : ((hookAfter (calls.take j)).history ++ [c.entry]).drop
      ((hookAfter (calls.take j)).history.length + 1 - historyWindow) =
      ((calls.take j).map fun c => c.entry).drop (j - 4) ++ [c.entry] := by
    have hle : ∀ n ≤ j, n ≤ ((calls.take j).map fun c => c.entry).length := by
      intro n hn
      rw [List.length_map, hlength]
      exact hn
    rw [history_hookAfter, List.length_drop, List.length_map, hlength]
    unfold historyWindow
    rw [← List.drop_append_of_le_length (hle _ (Nat.sub_le _ _)),
      ← List.drop_append_of_le_length (hle _ (Nat.sub_le _ _)), List.drop_drop]
    congr 1
    omega
  rw [fires, hc, Option.bind_some, runPostToolUse_named]
  dsimp only
  rw [hhistory]

theorem any_failed_iff {calls : List ToolUse} {j : Nat} {surface : String} :
    ((((calls.take j).map fun c => c.entry).drop (j - 4)).any
        fun prior => prior.error && prior.surface = surface) = true ↔
      ∃ k < j, j ≤ k + 4 ∧ FailedOn calls k surface := by
  rw [List.any_eq_true]
  constructor
  · intro h
    obtain ⟨prior, hmem, hprior⟩ := h
    rw [Bool.and_eq_true, decide_eq_true_eq] at hprior
    obtain ⟨n, hn⟩ := List.mem_iff_getElem?.mp hmem
    rw [List.getElem?_drop, List.getElem?_map, List.getElem?_take] at hn
    split at hn
    · rename_i hlt
      obtain ⟨c, hc, rfl⟩ := Option.map_eq_some_iff.mp hn
      exact ⟨j - 4 + n, hlt, by omega, c, hc, hprior.1, hprior.2⟩
    · cases hn
  · intro h
    obtain ⟨k, hlt, hrecent, c, hc, herror, hsurface⟩ := h
    refine ⟨c.entry, List.mem_iff_getElem?.mpr ⟨k - (j - 4), ?_⟩, ?_⟩
    · rw [List.getElem?_drop, List.getElem?_map, List.getElem?_take, Nat.add_sub_cancel' (by omega),
        if_pos hlt, hc]
      rfl
    · rw [Bool.and_eq_true, decide_eq_true_eq]
      exact ⟨herror, hsurface⟩

/-- A success with a failed call in the history is from the last one. -/
theorem exists_recovers {calls : List ToolUse} {j : Nat} {c : ToolUse} (hc : calls[j]? = some c)
    (hsucceeded : detectError c.payload = false) (hunlimited : c.rateLimited = false)
    (h : ∃ k < j, j ≤ k + 4 ∧ FailedOn calls k c.surface) : ∃ i, Recovers calls c j i := by
  classical
  obtain ⟨k, hk, hrecent, hfailed⟩ := h
  let P : Nat → Prop := fun k => k < j ∧ FailedOn calls k c.surface
  have hle : k ≤ Nat.findGreatest P j := Nat.le_findGreatest (Nat.le_of_lt hk) ⟨hk, hfailed⟩
  have hspec : P (Nat.findGreatest P j) := Nat.findGreatest_spec (Nat.le_of_lt hk) ⟨hk, hfailed⟩
  refine ⟨Nat.findGreatest P j, hc, hsucceeded, hunlimited, hspec.1, by omega, hspec.2, ?_⟩
  intro m hm hmj hfailed'
  exact Nat.findGreatest_is_greatest hm (Nat.le_of_lt hmj) ⟨hmj, hfailed'⟩

/-- A call is answered with a recovery exactly if it is one, and its key has not been fired. -/
theorem fires_recovery_iff {calls : List ToolUse} {j : Nat} {c : ToolUse} {key : String}
    (hc : calls[j]? = some c) :
    fires calls j = some (key, .recovery) ↔ key = recoveryKey c.surface c.now ∧
      (∃ i, Recovers calls c j i) ∧ key ∉ (hookAfter (calls.take j)).fired := by
  rw [fires_eq hc, decideReminder_concat]
  constructor
  · intro h
    split at h
    · cases h
    · rename_i hunlimited
      split at h
      · cases h
      · rename_i hsucceeded
        split at h
        · rename_i hcond
          cases h
          rw [Bool.and_eq_true, Bool.not_eq_true', ← Bool.not_eq_true, List.contains_iff_mem] at hcond
          exact ⟨rfl, exists_recovers hc (Bool.eq_false_iff.mpr hsucceeded)
            (Bool.eq_false_iff.mpr hunlimited) (any_failed_iff.mp hcond.1), hcond.2⟩
        · cases (concentratedWork_eq_some h).1
  · intro h
    obtain ⟨rfl, ⟨i, hi⟩, hfresh⟩ := h
    have hany := any_failed_iff.mpr ⟨i, hi.before, hi.recent, hi.failed⟩
    have hcond : ((((calls.take j).map fun c => c.entry).drop (j - 4)).any
        (fun prior => prior.error && prior.surface = c.entry.surface) &&
          !(hookAfter (calls.take j)).fired.contains (recoveryKey c.entry.surface c.entry.ts)) =
            true := by
      rw [Bool.and_eq_true, Bool.not_eq_true', ← Bool.not_eq_true, List.contains_iff_mem]
      exact ⟨hany, hfresh⟩
    have herror : ¬ c.entry.error = true := Bool.eq_false_iff.mp hi.succeeded
    rw [if_neg (Bool.eq_false_iff.mp hi.unlimited), if_neg herror, if_pos hcond]
    rfl

theorem fires_concentrated {calls : List ToolUse} {j : Nat} {c : ToolUse} {key : String}
    (hc : calls[j]? = some c) (h : fires calls j = some (key, .concentrated)) :
    key = concentratedKey c.surface ∧ key ∉ (hookAfter (calls.take j)).fired := by
  rw [fires_eq hc, decideReminder_concat] at h
  split at h
  · cases h
  · split at h
    · cases h
    · split at h
      · cases h
      · exact (concentratedWork_eq_some h).2

end

/-! ## Spaced recoveries -/

section
variable [PyStr] {calls : List ToolUse}

theorem Recovers.lt_length {c : ToolUse} {j i : Nat} (h : Recovers calls c j i) :
    j < calls.length :=
  (List.getElem?_eq_some_iff.mp h.at_).1

theorem FailedOn.surface_unique {i : Nat} {surface surface' : String}
    (h : FailedOn calls i surface) (h' : FailedOn calls i surface') : surface = surface' := by
  obtain ⟨c, hc, -, rfl⟩ := h
  obtain ⟨c', hc', -, rfl⟩ := h'
  rw [hc] at hc'
  rw [Option.some.inj hc']

theorem Recovers.surface_eq {c c' : ToolUse} {j j' i : Nat} (h : Recovers calls c j i)
    (h' : Recovers calls c' j' i) : c.surface = c'.surface :=
  h.failed.surface_unique h'.failed

theorem Recovers.call_unique {c c' : ToolUse} {j i i' : Nat} (h : Recovers calls c j i)
    (h' : Recovers calls c' j i') : c = c' :=
  Option.some.inj (h.at_.symm.trans h'.at_)

/-- The failed calls that a surface recovers from come one after the other. -/
theorem Recovers.mono {c c' : ToolUse} {j j' i i' : Nat} (h : Recovers calls c j i)
    (h' : Recovers calls c' j' i') (hsurface : c.surface = c'.surface) (hle : j ≤ j') : i ≤ i' := by
  by_contra hlt
  have hbefore := h.before
  exact h'.last i (by omega) (by omega) (hsurface ▸ h.failed)

theorem Recovers.source_unique {c c' : ToolUse} {j i i' : Nat} (h : Recovers calls c j i)
    (h' : Recovers calls c' j i') : i = i' := by
  have hcall := h.call_unique h'
  subst hcall
  exact Nat.le_antisymm (h.mono h' rfl (Nat.le_refl j)) (h'.mono h rfl (Nat.le_refl j))

/-- A recovery whose key has been fired has had it fired by one in the same second. -/
theorem Recovers.reminds_or {c : ToolUse} {j i : Nat} (h : Recovers calls c j i) :
    Reminds calls j .recovery ∨ ∃ j₀ < j, ∃ c₀ i₀, Recovers calls c₀ j₀ i₀ ∧
      c₀.surface = c.surface ∧ c₀.now = c.now ∧ Reminds calls j₀ .recovery := by
  by_cases hfresh : recoveryKey c.surface c.now ∈ (hookAfter (calls.take j)).fired
  · obtain ⟨j₀, hlt, r, hfires⟩ := (mem_fired_iff (Nat.le_of_lt h.lt_length)).mp hfresh
    obtain ⟨c₀, hc₀⟩ : ∃ c₀, calls[j₀]? = some c₀ :=
      ⟨_, List.getElem?_eq_getElem (Nat.lt_trans hlt h.lt_length)⟩
    cases r with
    | recovery =>
        obtain ⟨hkey, ⟨i₀, hi₀⟩, -⟩ := (fires_recovery_iff hc₀).mp hfires
        obtain ⟨hsurface, hnow⟩ := recoveryKey_inj hkey
        exact .inr ⟨j₀, hlt, c₀, i₀, hi₀, hsurface.symm, hnow.symm, _, hfires⟩
    | concentrated =>
        exact absurd (fires_concentrated hc₀ hfires).1 (recoveryKey_ne_concentratedKey _ _ _)
  · exact .inl ⟨_, (fires_recovery_iff h.at_).mpr ⟨rfl, ⟨i, h⟩, hfresh⟩⟩

/-- Two recoveries of a surface in one second do not both remind. -/
theorem Recovers.not_both {c c' : ToolUse} {j j' i i' : Nat} (hlt : j < j')
    (h : Recovers calls c j i) (h' : Recovers calls c' j' i') (hsurface : c.surface = c'.surface)
    (hnow : c.now = c'.now) (hreminds : Reminds calls j .recovery) :
    ¬ Reminds calls j' .recovery := by
  intro hreminds'
  obtain ⟨key, hfires⟩ := hreminds
  obtain ⟨key', hfires'⟩ := hreminds'
  have hkey := ((fires_recovery_iff h.at_).mp hfires).1
  obtain ⟨hkey', -, hfresh⟩ := (fires_recovery_iff h'.at_).mp hfires'
  refine hfresh ((mem_fired_iff (Nat.le_of_lt h'.lt_length)).mpr ⟨j, hlt, .recovery, ?_⟩)
  rw [hfires, hkey, hkey', hsurface, hnow]

theorem reminds_recovers {j : Nat} (h : Reminds calls j .recovery) :
    ∃ c i, Recovers calls c j i := by
  obtain ⟨key, hfires⟩ := h
  cases hc : calls[j]? with
  | none =>
      rw [fires, hc] at hfires
      cases hfires
  | some c => exact ⟨c, ((fires_recovery_iff hc).mp hfires).2.1⟩

theorem concentrated_once {j j' : Nat} {c c' : ToolUse} (hlt : j < j') (hc : calls[j]? = some c)
    (hc' : calls[j']? = some c') (hsurface : c.surface = c'.surface)
    (h : Reminds calls j .concentrated) : ¬ Reminds calls j' .concentrated := by
  intro h'
  obtain ⟨key, hfires⟩ := h
  obtain ⟨key', hfires'⟩ := h'
  have hkey := (fires_concentrated hc hfires).1
  obtain ⟨hkey', hfresh⟩ := fires_concentrated hc' hfires'
  have hj' : j' < calls.length := (List.getElem?_eq_some_iff.mp hc').1
  refine hfresh ((mem_fired_iff (Nat.le_of_lt hj')).mpr ⟨j, hlt, .concentrated, ?_⟩)
  rw [hfires, hkey, hkey', hsurface]

/-- Where recoveries are spaced, each failed call is reminded of once. -/
theorem Spaced.remindsOnce (h : Spaced calls) : RemindsOnce calls where
  ofFailure _ := reminds_recovers
  perFailure j j' i c c' hlt hi hi' hreminds := by
    have hsurface := hi.surface_eq hi'
    exact hi.not_both hlt hi' hsurface ((h j j' i i c c' hlt hi hi' hsurface).mp rfl) hreminds
  perSurface _ _ _ _ := concentrated_once
  apart j i c hi := by
    refine hi.reminds_or.imp_right fun hold => ?_
    obtain ⟨j₀, hlt, c₀, i₀, hi₀, hsurface, hnow, hreminds⟩ := hold
    have hsame := (h j₀ j i₀ i c₀ c hlt hi₀ hi hsurface).mpr hnow
    exact ⟨j₀, hlt, c₀, hsame ▸ hi₀, hreminds⟩

/-- The clock of a session does not go back. -/
def ClockRuns (calls : List ToolUse) : Prop :=
  ∀ (j j' : Nat) (c c' : ToolUse), j ≤ j' → calls[j]? = some c → calls[j']? = some c' →
    c.now ≤ c'.now

/-- A recovery is reminded of in its second, at the latest by itself. -/
theorem Recovers.exists_reminder {c : ToolUse} {j i : Nat} (h : Recovers calls c j i) :
    ∃ j₀ ≤ j, ∃ c₀ i₀, Recovers calls c₀ j₀ i₀ ∧ c₀.surface = c.surface ∧ c₀.now = c.now ∧
      Reminds calls j₀ .recovery := by
  rcases h.reminds_or with hreminds | ⟨j₀, hlt, hold⟩
  · exact ⟨j, Nat.le_refl j, c, i, h, rfl, rfl, hreminds⟩
  · exact ⟨j₀, Nat.le_of_lt hlt, hold⟩

/-- Where each failed call is reminded of once, recoveries are spaced. -/
theorem RemindsOnce.spaced (hclock : ClockRuns calls) (h : RemindsOnce calls) : Spaced calls := by
  intro j j' i i' c c' hlt hi hi' hsurface
  constructor
  · rintro rfl
    by_contra hne
    have hlater : c.now < c'.now :=
      Nat.lt_of_le_of_ne (hclock j j' c c' (Nat.le_of_lt hlt) hi.at_ hi'.at_) hne
    -- the failed call is reminded of by the first of the two, and by one in the second of the other
    obtain ⟨g, hgle, cg, hg, hgreminds⟩ : ∃ g ≤ j, ∃ cg, Recovers calls cg g i ∧
        Reminds calls g .recovery := by
      rcases h.apart j i c hi with hreminds | ⟨g, hg, cg, hall⟩
      · exact ⟨j, Nat.le_refl j, c, hi, hreminds⟩
      · exact ⟨g, Nat.le_of_lt hg, cg, hall⟩
    obtain ⟨g', hgle', cg', i₀, hg', hsurface', hnow', hgreminds'⟩ := hi'.exists_reminder
    have hafter : j < g' := by
      by_contra hbefore
      have hle := hclock g' j cg' c (Nat.le_of_not_lt hbefore) hg'.at_ hi.at_
      omega
    have hsource : i₀ = i := Nat.le_antisymm (hg'.mono hi' hsurface' hgle')
      (hi.mono hg' (hsurface.trans hsurface'.symm) (Nat.le_of_lt hafter))
    exact h.perFailure g g' i cg cg' (by omega) hg (hsource ▸ hg') hgreminds hgreminds'
  · intro hnow
    have hle := hi.mono hi' hsurface (Nat.le_of_lt hlt)
    obtain ⟨g, hgle, cg, _, hg, hgsurface, hgnow, hgreminds⟩ := hi.exists_reminder
    rcases h.apart j' i' c' hi' with hreminds | ⟨j₀, hlt₀, c₀, hi₀, hreminds⟩
    · exact absurd hreminds (hg.not_both (by omega) hi' (hgsurface.trans hsurface)
        (hgnow.trans hnow) hgreminds)
    · by_cases hbefore : j₀ ≤ j
      · exact Nat.le_antisymm hle
          (hi₀.mono hi ((hi₀.surface_eq hi').trans hsurface.symm) hbefore)
      · -- one in between is in the same second
        have hfrom := hclock j j₀ c c₀ (by omega) hi.at_ hi₀.at_
        have hto := hclock j₀ j' c₀ c' (Nat.le_of_lt hlt₀) hi₀.at_ hi'.at_
        exact absurd hreminds (hg.not_both (by omega) hi₀
          (hgsurface.trans (hsurface.trans (hi₀.surface_eq hi').symm)) (by omega) hgreminds)

/-- **The hook reminds once of each failed call** if the recoveries of the session are spaced; and where
the clock does not go back, only then. -/
theorem recoveries_spaced_iff (calls : List ToolUse) :
    (Spaced calls → RemindsOnce calls) ∧ (ClockRuns calls → RemindsOnce calls → Spaced calls) :=
  ⟨Spaced.remindsOnce, RemindsOnce.spaced⟩

end

end

/-! ### A deployment that fails -/

local instance sampleCasing : Knowledge.Casing := Knowledge.asciiCasing

local instance sampleStr : PyStr := ⟨fun _ => ""⟩

/-- A use of a tool that has one surface. -/
def deploy (failed : Bool) (now : Nat) : ToolUse where
  payload := ⟨"Deploy", [], .null, .bool failed, none⟩
  now
  rateLimited := false
  named := (by decide : "Deploy" ≠ "")

/-- A success is a recovery from the call right before it, or from the one before that success. -/
theorem deploy_recovers {calls : List ToolUse} {j i now now' : Nat}
    (h : calls[j]? = some (deploy false now)) (hi : calls[i]? = some (deploy true now'))
    (hbefore : i < j) (hrecent : j ≤ i + 4)
    (hlast : ∀ k, i < k → k < j → ∃ now, calls[k]? = some (deploy false now)) :
    Recovers calls (deploy false now) j i where
  at_ := h
  succeeded := rfl
  unlimited := rfl
  before := hbefore
  recent := hrecent
  failed := ⟨_, hi, rfl, rfl⟩
  last k hik hkj hfailed := by
    obtain ⟨now, hsuccess⟩ := hlast k hik hkj
    obtain ⟨c, hc, herror, -⟩ := hfailed
    rw [hsuccess] at hc
    cases hc
    cases herror

/-- One call that failed and one that succeeded, which is a recovery. -/
theorem recoveries_spaced_sample :
    RemindsOnce [deploy true 0, deploy false 1] ∧ Spaced [deploy true 0, deploy false 1] ∧
      fires [deploy true 0, deploy false 1] 1 = some ("recovery:Deploy:1", .recovery) := by
  have hspaced : Spaced [deploy true 0, deploy false 1] := by
    intro j j' i i' c c' hlt hi hi'
    have hj := hi.before
    have hj' : j' < 2 := hi'.lt_length
    omega
  have hclock : ClockRuns [deploy true 0, deploy false 1] := by
    intro j j' c c' hle hc hc'
    have hj' : j' < 2 := (List.getElem?_eq_some_iff.mp hc').1
    interval_cases j' <;> interval_cases j
    · cases hc
      cases hc'
      exact Nat.le_refl 0
    · cases hc
      cases hc'
      exact Nat.zero_le 1
    · cases hc
      cases hc'
      exact Nat.le_refl 1
  refine ⟨(recoveries_spaced_iff _).1 hspaced,
    (recoveries_spaced_iff _).2 hclock (Spaced.remindsOnce hspaced), by decide +kernel⟩

/-- The call that failed is reminded of after each of the successes; and of two calls that failed and were
recovered from in the same second, the later one is not reminded of. -/
theorem reminders_repeat_and_merge :
    ¬ RemindsOnce [deploy true 0, deploy false 1, deploy false 2] ∧
      ¬ RemindsOnce [deploy true 0, deploy false 0, deploy true 0, deploy false 0] := by
  constructor
  · intro h
    refine h.perFailure 1 2 0 (deploy false 1) (deploy false 2) (by decide)
      (deploy_recovers rfl rfl (by decide) (by decide) fun k _ _ => by omega)
      (deploy_recovers rfl rfl (by decide) (by decide) fun k hk hk' => ?_)
      ⟨"recovery:Deploy:1", by decide +kernel⟩ ⟨"recovery:Deploy:2", by decide +kernel⟩
    obtain rfl : k = 1 := by omega
    exact ⟨1, rfl⟩
  · intro h
    have hthird : Recovers [deploy true 0, deploy false 0, deploy true 0, deploy false 0]
        (deploy false 0) 3 2 :=
      deploy_recovers rfl rfl (by decide) (by decide) fun k _ _ => by omega
    have hnone : fires [deploy true 0, deploy false 0, deploy true 0, deploy false 0] 3 = none := by
      decide +kernel
    rcases h.apart 3 2 _ hthird with ⟨_, hfires⟩ | ⟨j, hj, c, hc, -⟩
    · rw [hnone] at hfires
      cases hfires
    · have hbefore := hc.before
      omega

end EighthLayer.Plugin
