import EighthLayer.Install.JsonEdits

/-!
# EighthLayer.Install.HookEdits

What the edits of lists of hooks leave as it was, and both kinds of edits together
(`leaves_settings_iff`).

An upsert rebuilds the list from the objects in it. So the rest of the list survives if it is made of
objects; an element of another kind is dropped, and where there is nothing to write, it stands in the way
of the removal.
-/

namespace EighthLayer.Install

open Lib

/-! ## The list that is edited -/

/-- The list of a hook, which may still be missing. -/
def hookEntries (hookName : String) : Json → Option (List Json)
  | .obj data =>
    match (data.lookup "hooks").getD (.obj []) with
    | .obj hooks =>
      match (hooks.lookup hookName).getD (.arr []) with
      | .arr entries => some entries
      | _ => none
    | _ => none
  | _ => none

/-- An entry that is neither managed nor a legacy of the installer. -/
def isOther (command : String) (legacy : List String) : Json → Bool
  | .obj entry => !commandIs command entry && !inLegacy legacy entry
  | _ => true

/-- A document without the managed and the legacy entries of a hook. -/
def withoutHook (hookName command : String) (legacy : List String) : Json → Json
  | .obj data =>
    match data.lookup "hooks" with
    | some (.obj hooks) =>
      match hooks.lookup hookName with
      | some (.arr entries) => .obj (Dict.set "hooks" (.obj (Dict.set hookName
          (.arr (entries.filter (isOther command legacy))) hooks)) data)
      | _ => .obj data
    | _ => .obj data
  | doc => doc

def isEmptyList : Json → Bool
  | .arr [] => true
  | _ => false

/-- A document without the list of a hook, if it is empty, and without the hooks, if they are. -/
def tidyHook (hookName : String) : Json → Json
  | .obj data =>
    match data.lookup "hooks" with
    | some (.obj hooks) =>
      let hooks' := if isEmptyList ((hooks.lookup hookName).getD .null) then Dict.del hookName hooks
        else hooks
      if hooks' = [] then .obj (Dict.del "hooks" data)
      else .obj (Dict.set "hooks" (.obj hooks') data)
    | _ => .obj data
  | doc => doc

/-- The document that has these entries, and is tidy. -/
def withEntries (data hooks : Members) (hookName : String) (entries : List Json) : Json :=
  let hooks' := if entries = [] then Dict.del hookName hooks
    else Dict.set hookName (.arr entries) hooks
  if hooks' = [] then .obj (Dict.del "hooks" data)
  else .obj (Dict.set "hooks" (.obj hooks') data)

/-- What a document with the list of a hook consists of. -/
structure HasEntries (hookName : String) (doc : Json) (data hooks : Members) (entries : List Json) :
    Prop where
  doc_eq : doc = .obj data
  hooks_eq : (data.lookup "hooks").getD (.obj []) = .obj hooks
  entries_eq : (hooks.lookup hookName).getD (.arr []) = .arr entries

theorem exists_hasEntries {hookName : String} {doc : Json} {entries : List Json}
    (h : hookEntries hookName doc = some entries) :
    ∃ data hooks, HasEntries hookName doc data hooks entries := by
  unfold hookEntries at h
  split at h
  · rename_i data
    split at h
    · rename_i hooks hhooks
      split at h
      · rename_i hentries
        cases h
        exact ⟨data, hooks, rfl, hhooks, hentries⟩
      · cases h
    · cases h
  · cases h

theorem HasEntries.hookEntries {hookName : String} {doc : Json} {data hooks : Members}
    {entries : List Json} (h : HasEntries hookName doc data hooks entries) :
    hookEntries hookName doc = some entries := by
  rw [h.doc_eq, Install.hookEntries, h.hooks_eq]
  dsimp only
  rw [h.entries_eq]

/-- The edited document has the entries that were put in. -/
theorem hasEntries_setEntries (data hooks : Members) (hookName : String) (entries : List Members) :
    HasEntries hookName (setEntries data hooks hookName entries)
      (Dict.set "hooks" (.obj (Dict.set hookName (.arr (entries.map .obj)) hooks)) data)
      (Dict.set hookName (.arr (entries.map .obj)) hooks) (entries.map .obj) where
  doc_eq := rfl
  hooks_eq := by rw [Dict.lookup_set_self, Option.getD_some]
  entries_eq := by rw [Dict.lookup_set_self, Option.getD_some]

theorem withEntries_set (data hooks : Members) (hookName : String) (v w : Json)
    (entries : List Json) :
    withEntries (Dict.set "hooks" v data) (Dict.set hookName w hooks) hookName entries =
      withEntries data hooks hookName entries := by
  unfold withEntries
  rw [Dict.del_set, Dict.set_set]
  dsimp only
  rw [Dict.del_set, Dict.set_set]

/-- The entries are all that is there to tell two such documents apart. -/
theorem withEntries_inj {data hooks : Members} {hookName : String} {es es' : List Json}
    (h : withEntries data hooks hookName es = withEntries data hooks hookName es') : es = es' := by
  -- a list that is not empty is not the one of a document without one
  have hnil : ∀ es, es ≠ [] →
      withEntries data hooks hookName [] ≠ withEntries data hooks hookName es := by
    intro es hes heq
    unfold withEntries at heq
    rw [if_pos rfl, if_neg hes] at heq
    dsimp only at heq
    rw [if_neg (Dict.set_ne_nil _ _ _)] at heq
    by_cases hempty : Dict.del hookName hooks = []
    · rw [if_pos hempty] at heq
      exact Dict.set_ne_del _ _ _ _ (Json.obj.inj heq).symm
    · rw [if_neg hempty] at heq
      exact Dict.set_ne_del _ _ _ _ (Json.obj.inj (Dict.set_inj (Json.obj.inj heq))).symm
  by_cases hes : es = []
  · by_cases hes' : es' = []
    · rw [hes, hes']
    · exact absurd (hes ▸ h) (hnil es' hes')
  · by_cases hes' : es' = []
    · exact absurd (hes' ▸ h).symm (hnil es hes)
    · unfold withEntries at h
      rw [if_neg hes, if_neg hes'] at h
      dsimp only at h
      rw [if_neg (Dict.set_ne_nil _ _ _), if_neg (Dict.set_ne_nil _ _ _)] at h
      exact Json.arr.inj (Dict.set_inj (Json.obj.inj (Dict.set_inj (Json.obj.inj h))))

theorem isEmptyList_arr {entries : List Json} :
    isEmptyList (.arr entries) = true ↔ entries = [] := by
  cases entries with
  | nil => exact iff_of_true rfl rfl
  | cons _ _ => exact iff_of_false Bool.false_ne_true (List.cons_ne_nil _ _)

theorem tidyHook_set (data hooks : Members) (hookName : String) (entries : List Json) :
    tidyHook hookName (.obj (Dict.set "hooks" (.obj (Dict.set hookName (.arr entries) hooks)) data)) =
      withEntries data hooks hookName entries := by
  unfold tidyHook withEntries
  dsimp only
  rw [Dict.lookup_set_self]
  dsimp only
  rw [Dict.lookup_set_self, Option.getD_some, Dict.del_set, Dict.del_set, Dict.set_set]
  by_cases hentries : entries = []
  · rw [if_pos (isEmptyList_arr.mpr hentries), if_pos hentries]
  · rw [if_neg (mt isEmptyList_arr.mp hentries), if_neg hentries]

theorem tidyHook_del (data hooks : Members) (hookName : String) :
    tidyHook hookName (.obj (Dict.set "hooks" (.obj (Dict.del hookName hooks)) data)) =
      withEntries data hooks hookName [] := by
  unfold tidyHook withEntries
  dsimp only
  rw [Dict.lookup_set_self]
  dsimp only
  rw [Dict.lookup_del_self, Option.getD_none, Dict.del_set, Dict.set_set, if_pos rfl]
  rfl

/-- A tidy document without the managed entries has the other ones. -/
theorem HasEntries.tidyHook_withoutHook {hookName : String} {doc : Json} {data hooks : Members}
    {entries : List Json} (h : HasEntries hookName doc data hooks entries) (command : String)
    (legacy : List String) :
    tidyHook hookName (withoutHook hookName command legacy doc) =
      withEntries data hooks hookName (entries.filter (isOther command legacy)) := by
  obtain ⟨rfl, hhooks, hentries⟩ := h
  unfold withoutHook
  dsimp only
  cases hlookup : data.lookup "hooks" with
  | none =>
      rw [hlookup] at hhooks
      cases hhooks
      cases hentries
      unfold tidyHook withEntries
      dsimp only
      rw [hlookup, Dict.del_eq_self hlookup]
      rfl
  | some v =>
      rw [hlookup, Option.getD_some] at hhooks
      subst hhooks
      dsimp only
      cases hlist : hooks.lookup hookName with
      | none =>
          rw [hlist] at hentries
          cases hentries
          unfold tidyHook withEntries
          dsimp only
          rw [hlookup]
          dsimp only
          rw [hlist, List.filter_nil, if_pos rfl, Dict.del_eq_self hlist]
          rfl
      | some w =>
          rw [hlist, Option.getD_some] at hentries
          subst hentries
          exact tidyHook_set _ _ _ _

/-! ## The entries of the list -/

theorem objectsOf_map (entries : List Members) : objectsOf (entries.map .obj) = entries := by
  induction entries with
  | nil => rfl
  | cons entry entries ih => exact congrArg (entry :: ·) ih

theorem length_objectsOf_le (entries : List Json) : (objectsOf entries).length ≤ entries.length :=
  List.length_filterMap_le _ _

/-- A list that loses no element is made of objects. -/
theorem map_objectsOf {entries : List Json} (h : (objectsOf entries).length = entries.length) :
    (objectsOf entries).map .obj = entries := by
  induction entries with
  | nil => rfl
  | cons v entries ih =>
      have hle := length_objectsOf_le entries
      cases v with
      | obj entry => exact congrArg (Json.obj entry :: ·) (ih (Nat.succ.inj h))
      | null | bool _ | num _ | str _ | arr _ =>
          have h : (objectsOf entries).length = entries.length + 1 := h
          omega

theorem commandIs_iff {command : String} {entry : Members} :
    commandIs command entry = true ↔ getValue "command" entry = .str command := by
  unfold commandIs
  split
  · rename_i s hs
    rw [hs, decide_eq_true_eq]
    exact ⟨fun h => congrArg Json.str h, fun h => Json.str.inj h⟩
  · rename_i hs
    exact iff_of_false Bool.false_ne_true (hs command)

theorem inLegacy_of_commandIs {command : String} {entry : Members}
    (h : commandIs command entry = true) (legacy : List String) :
    inLegacy legacy entry = decide (command ∈ legacy) := by
  rw [inLegacy, commandIs_iff.mp h]

theorem hashable_of_commandIs {command : String} {entry : Members}
    (h : commandIs command entry = true) : hashable entry = true := by
  rw [hashable, commandIs_iff.mp h]

/-- The other entries of a list of objects. -/
theorem filter_isOther_map (command : String) (legacy : List String) (entries : List Members) :
    (entries.map Json.obj).filter (isOther command legacy) =
      ((entries.filter fun entry => !inLegacy legacy entry).filter
        fun entry => !commandIs command entry).map .obj := by
  rw [List.filter_map, List.filter_filter]
  rfl

theorem exists_split_of_findIdx? {α : Type} {p : α → Bool} {xs : List α} {i : Nat}
    (h : xs.findIdx? p = some i) :
    ∃ pre x post, xs = pre ++ x :: post ∧ pre.length = i ∧ p x = true ∧
      ∀ y ∈ pre, p y = false := by
  induction xs generalizing i with
  | nil => cases h
  | cons x xs ih =>
      rw [List.findIdx?_cons] at h
      by_cases hx : p x = true
      · rw [if_pos hx] at h
        cases h
        exact ⟨[], x, xs, rfl, rfl, hx, fun _ hy => absurd hy List.not_mem_nil⟩
      · rw [if_neg hx] at h
        obtain ⟨j, hj, rfl⟩ := Option.map_eq_some_iff.mp h
        obtain ⟨pre, y, post, rfl, rfl, hy, hpre⟩ := ih hj
        refine ⟨x :: pre, y, post, rfl, rfl, hy, ?_⟩
        exact List.forall_mem_cons.mpr ⟨Bool.eq_false_iff.mpr hx, hpre⟩

/-! ### The desired entry -/

theorem desiredEntry_nodup (command : String) (extraFields : Members) :
    ((desiredEntry command extraFields).map Prod.fst).Nodup ∧
      ((desiredEntry command extraFields).lookup "command").isSome := by
  have hfold : ∀ d : Members, (d.map Prod.fst).Nodup ∧ (d.lookup "command").isSome →
      ((extraFields.foldl (fun d field => Dict.set field.1 field.2 d) d).map Prod.fst).Nodup ∧
        ((extraFields.foldl (fun d field => Dict.set field.1 field.2 d) d).lookup
          "command").isSome := by
    induction extraFields with
    | nil => exact fun _ h => h
    | cons field extraFields ih =>
        intro d h
        rw [List.foldl_cons]
        refine ih _ ⟨Dict.nodup_set h.1, ?_⟩
        by_cases hkey : "command" = field.1
        · rw [← hkey, Dict.lookup_set_self]
          rfl
        · rw [Dict.lookup_set_ne hkey]
          exact h.2
  exact hfold [("command", .str command)] ⟨List.nodup_singleton _, rfl⟩

/-- Its command is one of its fields. -/
theorem command_mem_desiredEntry (command : String) (extraFields : Members) :
    ("command", getValue "command" (desiredEntry command extraFields)) ∈
      desiredEntry command extraFields := by
  obtain ⟨v, hv⟩ := Option.isSome_iff_exists.mp (desiredEntry_nodup command extraFields).2
  rw [getValue, hv, Option.getD_some]
  obtain ⟨before, after, heq, -⟩ := List.lookup_eq_some_iff.mp hv
  rw [heq]
  exact List.mem_append_right _ List.mem_cons_self

section
variable [NumberEq]

theorem pyEq_str {v : Json} {s : String} (h : pyEq v (.str s) = true ∨ pyEq (.str s) v = true) :
    v = .str s := by
  cases v with
  | str t =>
      rw [pyEq, pyEq, decide_eq_true_eq, decide_eq_true_eq] at h
      rcases h with rfl | rfl
      · rfl
      · rfl
  | null | bool _ | num _ | arr _ | obj _ => simp [pyEq] at h

/-- What is merged with the desired entry is managed exactly if that is. -/
theorem commandIs_mergeInto (command : String) (extraFields entry : Members) (changed : Bool) :
    commandIs command (mergeInto (desiredEntry command extraFields) entry changed).1 =
      commandIs command (desiredEntry command extraFields) := by
  have hfield := asDesired_mergeInto (desiredEntry_nodup command extraFields).1 entry changed _
    (command_mem_desiredEntry command extraFields)
  rw [Bool.eq_iff_iff, commandIs_iff, commandIs_iff]
  rcases hfield with heq | hset
  · constructor
    · intro h
      rw [h] at heq
      exact pyEq_str (.inr heq)
    · intro h
      rw [h] at heq
      exact pyEq_str (.inl heq)
  · rw [← hset]
    unfold getValue
    rw [Dict.lookup_set_self, Option.getD_some]

/-! ## The upsert -/

/-- The entries with the desired one put in. -/
inductive Upserted (command : String) (desired : Members) (filtered : List Members) :
    List Members → Prop where
  | append (h : ∀ entry ∈ filtered, commandIs command entry = false) :
      Upserted command desired filtered (filtered ++ [desired])
  | merge {pre post : List Members} {entry : Members} (changed : Bool)
      (hfiltered : filtered = pre ++ entry :: post)
      (hpre : ∀ other ∈ pre, commandIs command other = false)
      (hentry : commandIs command entry = true) :
      Upserted command desired filtered (pre ++ (mergeInto desired entry changed).1 :: post)

/-- What is put into the list again is the same. -/
theorem upsert_entries {hookName command : String} {extraFields : Members} {legacy : List String}
    {doc : Json} {data hooks : Members} {entries : List Json}
    (h : HasEntries hookName doc data hooks entries)
    (hhash : (objectsOf entries).all hashable = true) :
    (∃ action new, upsertHookEntry false hookName command extraFields legacy (some doc) =
        (.ok action, some (setEntries data hooks hookName new)) ∧
      Upserted command (desiredEntry command extraFields)
        ((objectsOf entries).filter fun entry => !inLegacy legacy entry) new) ∨
    (upsertHookEntry false hookName command extraFields legacy (some doc) =
        (.ok .unchanged, some doc) ∧
      ((objectsOf entries).filter fun entry => !inLegacy legacy entry) = objectsOf entries ∧
      ∃ entry ∈ objectsOf entries, commandIs command entry = true ∧
        ∀ field ∈ desiredEntry command extraFields,
          pyEq (getValue field.1 entry) field.2 = true) := by
  unfold upsertHookEntry
  rw [Option.getD_some, h.doc_eq]
  dsimp only
  rw [h.hooks_eq]
  dsimp only
  rw [h.entries_eq]
  dsimp only
  rw [if_pos hhash]
  cases hfind : ((objectsOf entries).filter fun entry => !inLegacy legacy entry).findIdx?
      (commandIs command) with
  | none =>
      refine .inl ⟨_, _, rfl, .append fun entry hentry => ?_⟩
      exact List.findIdx?_eq_none_iff.mp hfind entry hentry
  | some i =>
      obtain ⟨pre, entry, post, hfiltered, rfl, hentry, hpre⟩ := exists_split_of_findIdx? hfind
      have hget : (((objectsOf entries).filter fun entry => !inLegacy legacy entry).getD
          pre.length []) = entry := by
        rw [hfiltered]
        simp
      have hset : ∀ m, (((objectsOf entries).filter fun entry => !inLegacy legacy entry).set
          pre.length m) = pre ++ m :: post := by
        intro m
        rw [hfiltered]
        simp
      dsimp only
      rw [hget, hset]
      split
      · exact .inl ⟨_, _, rfl, .merge _ hfiltered hpre hentry⟩
      · rename_i hunchanged
        obtain ⟨hlegacy, -, hall⟩ := eq_of_mergeInto_unchanged (Bool.eq_false_iff.mpr hunchanged)
        have hlength : ((objectsOf entries).filter fun entry => !inLegacy legacy entry).length =
            (objectsOf entries).length := Decidable.not_not.mp (of_decide_eq_false hlegacy)
        have hsame := List.filter_sublist.eq_of_length hlength
        refine .inr ⟨rfl, hsame, entry, ?_, hentry, hall⟩
        rw [← hsame, hfiltered]
        exact List.mem_append_right _ List.mem_cons_self

theorem upsert_refused {hookName command : String} {extraFields : Members} {legacy : List String}
    {doc : Json} (h : ∀ entries, hookEntries hookName doc = some entries →
      (objectsOf entries).all hashable = false) :
    ∃ e, upsertHookEntry false hookName command extraFields legacy (some doc) =
      (.error e, some doc) := by
  unfold hookEntries at h
  unfold upsertHookEntry
  rw [Option.getD_some]
  cases doc with
  | obj data =>
      dsimp only at h ⊢
      cases hhooks : (data.lookup "hooks").getD (.obj []) with
      | obj hooks =>
          rw [hhooks] at h
          dsimp only at h ⊢
          cases hentries : (hooks.lookup hookName).getD (.arr []) with
          | arr entries =>
              rw [hentries] at h
              dsimp only
              rw [if_neg (Bool.eq_false_iff.mp (h entries rfl))]
              exact ⟨_, rfl⟩
          | null | bool _ | num _ | str _ | obj _ => exact ⟨_, rfl⟩
      | null | bool _ | num _ | str _ | arr _ => exact ⟨_, rfl⟩
  | null | bool _ | num _ | str _ | arr _ => exact ⟨_, rfl⟩

omit [NumberEq] in
/-- The first managed entry is one only. -/
theorem split_unique {α : Type} {p : α → Bool} {pre pre' post post' : List α} {x x' : α}
    (h : pre ++ x :: post = pre' ++ x' :: post') (hpre : ∀ y ∈ pre, p y = false) (hx : p x = true)
    (hpre' : ∀ y ∈ pre', p y = false) (hx' : p x' = true) :
    pre = pre' ∧ x = x' ∧ post = post' := by
  induction pre generalizing pre' with
  | nil =>
      cases pre' with
      | nil =>
          obtain ⟨rfl, rfl⟩ := List.cons.inj h
          exact ⟨rfl, rfl, rfl⟩
      | cons y pre' =>
          obtain ⟨rfl, -⟩ := List.cons.inj h
          exact absurd hx (Bool.eq_false_iff.mp (hpre' x List.mem_cons_self))
  | cons y pre ih =>
      cases pre' with
      | nil =>
          obtain ⟨rfl, -⟩ := List.cons.inj h
          exact absurd hx' (Bool.eq_false_iff.mp (hpre y List.mem_cons_self))
      | cons y' pre' =>
          obtain ⟨rfl, htail⟩ := List.cons.inj h
          obtain ⟨rfl, hrest⟩ := ih htail (fun y hy => hpre y (List.mem_cons_of_mem _ hy))
            (fun y hy => hpre' y (List.mem_cons_of_mem _ hy))
          exact ⟨rfl, hrest⟩

variable {command : String} {extraFields : Members} {filtered new : List Members}

/-- The first managed entry of an upserted list is as it is desired, and the rest is as it was. -/
theorem Upserted.exists_first (h : Upserted command (desiredEntry command extraFields) filtered new)
    (hdesired : commandIs command (desiredEntry command extraFields) = true) :
    (∃ pre entry post, new = pre ++ entry :: post ∧ (∀ y ∈ pre, commandIs command y = false) ∧
      commandIs command entry = true ∧
      ∀ changed, (mergeInto (desiredEntry command extraFields) entry changed).1 = entry) ∧
    (new.filter fun entry => !commandIs command entry) =
      filtered.filter fun entry => !commandIs command entry := by
  have hnodup := (desiredEntry_nodup command extraFields).1
  cases h with
  | append hnone =>
      refine ⟨⟨filtered, _, [], rfl, hnone, hdesired, mergeInto_self hnodup⟩, ?_⟩
      simp [hdesired]
  | @merge pre post entry changed hfiltered hpre hentry =>
      have hmerged : commandIs command (mergeInto (desiredEntry command extraFields) entry changed).1 =
          true := (commandIs_mergeInto command extraFields entry changed).trans hdesired
      refine ⟨⟨pre, _, post, rfl, hpre, hmerged, mergeInto_again hnodup entry changed⟩, ?_⟩
      subst hfiltered
      simp [hmerged, hentry]

/-- A desired entry that is not managed is one more entry of the rest. -/
theorem Upserted.length_filter (h : Upserted command (desiredEntry command extraFields) filtered new)
    (hdesired : commandIs command (desiredEntry command extraFields) = false) :
    (new.filter fun entry => !commandIs command entry).length =
      (filtered.filter fun entry => !commandIs command entry).length + 1 := by
  cases h with
  | append hnone => simp [hdesired]
  | @merge pre post entry changed hfiltered hpre hentry =>
      have hmerged : commandIs command (mergeInto (desiredEntry command extraFields) entry changed).1 =
          false := (commandIs_mergeInto command extraFields entry changed).trans hdesired
      subst hfiltered
      simp [hmerged, hentry]
      omega

/-- An upserted list is upserted to itself. -/
theorem Upserted.again {legacy : List String} {new' : List Members}
    (h : Upserted command (desiredEntry command extraFields) filtered new)
    (hfiltered : ∀ entry ∈ filtered, inLegacy legacy entry = false)
    (hdesired : commandIs command (desiredEntry command extraFields) = true)
    (h' : Upserted command (desiredEntry command extraFields)
      (new.filter fun entry => !inLegacy legacy entry) new') : new' = new := by
  by_cases hlegacy : command ∈ legacy
  · -- the managed entry is taken out as a legacy, and put in at the end as before
    have hnone : ∀ entry ∈ filtered, commandIs command entry = false := by
      intro entry hentry
      rw [Bool.eq_false_iff]
      intro hcommand
      have hin := inLegacy_of_commandIs hcommand legacy
      rw [hfiltered entry hentry, decide_eq_true hlegacy] at hin
      cases hin
    cases h with
    | append _ =>
        have hsame : ((filtered ++ [desiredEntry command extraFields]).filter
            fun entry => !inLegacy legacy entry) = filtered := by
          have hdrop : inLegacy legacy (desiredEntry command extraFields) = true :=
            (inLegacy_of_commandIs hdesired legacy).trans (decide_eq_true hlegacy)
          rw [List.filter_append, List.filter_eq_self.mpr fun entry hentry => by
            rw [hfiltered entry hentry]; rfl]
          simp [hdrop]
        rw [hsame] at h'
        cases h' with
        | append _ => rfl
        | merge changed heq hpre hentry =>
            have hmem := hnone _ (heq ▸ List.mem_append_right _ List.mem_cons_self)
            rw [hentry] at hmem
            cases hmem
    | merge changed heq hpre hentry =>
        have hmem := hnone _ (heq ▸ List.mem_append_right _ List.mem_cons_self)
        rw [hentry] at hmem
        cases hmem
  · have hkeep : ∀ entry, commandIs command entry = true → inLegacy legacy entry = false := by
      intro entry hentry
      rw [inLegacy_of_commandIs hentry, decide_eq_false hlegacy]
    have hnew : ∀ entry ∈ new, inLegacy legacy entry = false := by
      intro entry hentry
      by_cases hcommand : commandIs command entry = true
      · exact hkeep entry hcommand
      · have hmem : entry ∈ new.filter fun entry => !commandIs command entry :=
          List.mem_filter.mpr ⟨hentry, by simpa using hcommand⟩
        rw [(h.exists_first hdesired).2] at hmem
        exact hfiltered entry (List.mem_of_mem_filter hmem)
    rw [List.filter_eq_self.mpr fun entry hentry => by rw [hnew entry hentry]; rfl] at h'
    obtain ⟨⟨pre, entry, post, rfl, hpre, hentry, hmerge⟩, -⟩ := h.exists_first hdesired
    cases h' with
    | append hnone =>
        have hmem := hnone entry (List.mem_append_right _ List.mem_cons_self)
        rw [hentry] at hmem
        cases hmem
    | merge changed heq hpre' hentry' =>
        obtain ⟨rfl, rfl, rfl⟩ := split_unique heq hpre hentry hpre' hentry'
        rw [hmerge]

/-! ## The removal -/

omit [NumberEq] in
/-- Managed entries are removed, and the rest is left. -/
theorem remove_entries {hookName : String} {doc : Json} {data hooks : Members}
    {entries : List Members} (h : HasEntries hookName doc data hooks (entries.map .obj))
    (hmanaged : ∃ entry ∈ entries, commandIs command entry = true) :
    ∃ rest, removeHookEntry false hookName command (some doc) = (.ok .removed, some rest) ∧
      tidyHook hookName rest = withEntries data hooks hookName
        ((entries.filter fun entry => !commandIs command entry).map .obj) := by
  have hlength : (entries.filter fun entry => !commandIs command entry).length ≠
      (entries.map Json.obj).length := by
    intro heq
    rw [List.length_map, List.length_filter_eq_length_iff] at heq
    obtain ⟨entry, hentry, hcommand⟩ := hmanaged
    have hnot := heq entry hentry
    rw [hcommand] at hnot
    cases hnot
  unfold removeHookEntry
  rw [h.doc_eq]
  dsimp only
  rw [h.hooks_eq]
  dsimp only
  rw [h.entries_eq]
  dsimp only [iterated]
  rw [objectsOf_map, if_neg (by rw [List.length_map]; exact fun hne => hne rfl), if_neg hlength]
  by_cases hnil : (entries.filter fun entry => !commandIs command entry) = []
  · rw [if_neg Bool.false_ne_true, if_pos hnil, hnil]
    exact ⟨_, rfl, tidyHook_del _ _ _⟩
  · rw [if_neg Bool.false_ne_true, if_neg hnil]
    exact ⟨_, rfl, tidyHook_set _ _ _ _⟩

omit [NumberEq] in
theorem remove_nothing {hookName : String} {doc : Json} {data hooks : Members}
    {entries : List Members} (h : HasEntries hookName doc data hooks (entries.map .obj))
    (hmanaged : ∀ entry ∈ entries, commandIs command entry = false) :
    removeHookEntry false hookName command (some doc) = (.ok .unchanged, some doc) := by
  have hall : (entries.filter fun entry => !commandIs command entry) = entries :=
    List.filter_eq_self.mpr fun entry hentry => by rw [hmanaged entry hentry]; rfl
  unfold removeHookEntry
  rw [h.doc_eq]
  dsimp only
  rw [h.hooks_eq]
  dsimp only
  rw [h.entries_eq]
  dsimp only [iterated]
  rw [objectsOf_map, if_neg (by rw [List.length_map]; exact fun hne => hne rfl), hall,
    if_pos (List.length_map _).symm]

omit [NumberEq] in
/-- An element that is no object has no `get`. -/
theorem remove_fails {hookName : String} {doc : Json} {data hooks : Members} {entries : List Json}
    (h : HasEntries hookName doc data hooks entries)
    (hlength : (objectsOf entries).length ≠ entries.length) :
    removeHookEntry false hookName command (some doc) = (.error .attributeError, some doc) := by
  unfold removeHookEntry
  rw [h.doc_eq]
  dsimp only
  rw [h.hooks_eq]
  dsimp only
  rw [h.entries_eq]
  dsimp only [iterated]
  rw [if_pos hlength]

/-! ## Both edits -/

omit [NumberEq] in
theorem length_objectsOf_iff {entries : List Json} :
    (objectsOf entries).length = entries.length ↔ ∀ v ∈ entries, ∃ entry, v = .obj entry := by
  constructor
  · intro h v hv
    rw [← map_objectsOf h] at hv
    obtain ⟨entry, -, rfl⟩ := List.mem_map.mp hv
    exact ⟨entry, rfl⟩
  · intro h
    induction entries with
    | nil => rfl
    | cons v entries ih =>
        obtain ⟨⟨entry, rfl⟩, hrest⟩ := List.forall_mem_cons.mp h
        exact congrArg Nat.succ (ih hrest)

/-- **A hook is put in without touching the rest** exactly if the upsert is refused, or the list is made
of objects and the further fields of the hook leave its command. -/
theorem hook_leaves_settings_iff (hookName command : String) (extraFields : Members)
    (legacy : List String) (doc : Json) :
    LeavesSettings (upsertHookEntry false hookName command extraFields legacy)
        (removeHookEntry false hookName command) (withoutHook hookName command legacy)
        (tidyHook hookName) doc ↔
      ∀ entries, hookEntries hookName doc = some entries → (objectsOf entries).all hashable = true →
        (∀ v ∈ entries, ∃ entry, v = .obj entry) ∧
          commandIs command (desiredEntry command extraFields) = true := by
  by_cases hrefused : ∀ entries, hookEntries hookName doc = some entries →
      (objectsOf entries).all hashable = false
  · refine iff_of_true (.inl (upsert_refused hrefused)) fun entries hentries hhash => ?_
    rw [hrefused entries hentries] at hhash
    cases hhash
  · push Not at hrefused
    obtain ⟨entries, hentries, hhash⟩ := hrefused
    rw [ne_eq, Bool.not_eq_false] at hhash
    obtain ⟨data, hooks, h⟩ := exists_hasEntries hentries
    have hwithout := h.tidyHook_withoutHook command legacy
    have hupserts := @upsert_entries _ hookName command extraFields legacy _ _ _ _ h hhash
    constructor
    · intro hleaves entries' hentries' _
      rw [hentries] at hentries'
      cases hentries'
      obtain ⟨e, hupsert⟩ | ⟨_, doc', hupsert, houtside, -, _, rest, hremove, htidy⟩ := hleaves
      · obtain ⟨_, _, hok, -⟩ | ⟨hok, -⟩ := hupserts
        · rw [hok] at hupsert
          cases hupsert
        · rw [hok] at hupsert
          cases hupsert
      · rw [hwithout] at houtside htidy
        obtain ⟨_, new, hok, hnew⟩ | ⟨hok, hsame, entry, hentry, hcommand, hfields⟩ := hupserts
        · rw [hok] at hupsert
          cases hupsert
          have h' := hasEntries_setEntries data hooks hookName new
          rw [h'.tidyHook_withoutHook, withEntries_set] at houtside
          have hobjects : ∀ v ∈ entries, ∃ entry, v = .obj entry := by
            intro v hv
            by_cases hother : isOther command legacy v = true
            · have hmem := List.mem_filter.mpr ⟨hv, hother⟩
              rw [← withEntries_inj houtside] at hmem
              obtain ⟨entry, -, rfl⟩ := List.mem_map.mp (List.mem_of_mem_filter hmem)
              exact ⟨entry, rfl⟩
            · cases v with
              | obj entry => exact ⟨entry, rfl⟩
              | null | bool _ | num _ | str _ | arr _ => exact absurd rfl hother
          refine ⟨hobjects, ?_⟩
          by_contra hdesired
          rw [Bool.not_eq_true] at hdesired
          have hrest : tidyHook hookName rest = withEntries data hooks hookName
              ((new.filter fun entry => !commandIs command entry).map .obj) := by
            by_cases hmanaged : ∃ entry ∈ new, commandIs command entry = true
            · obtain ⟨rest', hremove', htidy'⟩ := remove_entries h' hmanaged
              rw [hremove'] at hremove
              cases hremove
              rw [htidy', withEntries_set]
            · have hnone : ∀ entry ∈ new, commandIs command entry = false := by
                intro entry hentry
                rw [Bool.eq_false_iff]
                exact fun hcommand => hmanaged ⟨entry, hentry, hcommand⟩
              rw [remove_nothing h' hnone] at hremove
              cases hremove
              rw [List.filter_eq_self.mpr fun entry hentry => by rw [hnone entry hentry]; rfl]
              exact tidyHook_set _ _ _ _
          rw [htidy, ← map_objectsOf (length_objectsOf_iff.mpr hobjects), filter_isOther_map] at hrest
          have hlength := congrArg List.length (withEntries_inj hrest)
          rw [List.length_map, List.length_map, hnew.length_filter hdesired] at hlength
          omega
        · rw [hok] at hupsert
          cases hupsert
          refine ⟨?_, ?_⟩
          · rw [← length_objectsOf_iff]
            by_contra hlength
            rw [remove_fails h hlength] at hremove
            cases hremove
          · have hfield := hfields _ (command_mem_desiredEntry command extraFields)
            rw [commandIs_iff.mp hcommand] at hfield
            exact commandIs_iff.mpr (pyEq_str (.inr hfield))
    · intro hall
      obtain ⟨hobjects, hdesired⟩ := hall entries hentries hhash
      have hmap := map_objectsOf (length_objectsOf_iff.mpr hobjects)
      have hothers : entries.filter (isOther command legacy) =
          (((objectsOf entries).filter fun entry => !inLegacy legacy entry).filter
            fun entry => !commandIs command entry).map .obj := by
        conv_lhs => rw [← hmap]
        exact filter_isOther_map command legacy _
      rw [hothers] at hwithout
      obtain ⟨action, new, hok, hnew⟩ | ⟨hok, hsame, entry, hentry, hcommand, -⟩ := hupserts
      · have h' := hasEntries_setEntries data hooks hookName new
        have hfiltered : ∀ entry ∈ (objectsOf entries).filter fun entry => !inLegacy legacy entry,
            inLegacy legacy entry = false := by
          intro entry hentry
          simpa using (List.mem_filter.mp hentry).2
        obtain ⟨⟨pre, first, post, hsplit, -, hfirst, -⟩, hrest⟩ := hnew.exists_first hdesired
        refine .inr ⟨action, _, hok, ?_, ?_, ?_⟩
        · have hself : (((objectsOf entries).filter fun entry => !inLegacy legacy entry).filter
              fun entry => !inLegacy legacy entry) =
              (objectsOf entries).filter fun entry => !inLegacy legacy entry :=
            List.filter_eq_self.mpr fun entry hentry => by rw [hfiltered entry hentry]; rfl
          have hsame : ((new.filter fun entry => !inLegacy legacy entry).filter
              fun entry => !commandIs command entry) =
              ((objectsOf entries).filter fun entry => !inLegacy legacy entry).filter
                fun entry => !commandIs command entry := by
            rw [List.filter_comm, hrest, List.filter_comm, hself]
          rw [h'.tidyHook_withoutHook, withEntries_set, hwithout, filter_isOther_map, hsame]
        · have hhash' : (objectsOf (new.map Json.obj)).all hashable = true := by
            rw [objectsOf_map, List.all_eq_true]
            intro entry hentry
            by_cases hcommand : commandIs command entry = true
            · exact hashable_of_commandIs hcommand
            · have hmem : entry ∈ new.filter fun entry => !commandIs command entry :=
                List.mem_filter.mpr ⟨hentry, by simpa using hcommand⟩
              rw [hrest] at hmem
              exact List.all_eq_true.mp hhash entry
                (List.mem_of_mem_filter (List.mem_of_mem_filter hmem))
          obtain ⟨again, new', hok', hnew'⟩ | ⟨hok', -⟩ := 
            @upsert_entries _ hookName command extraFields legacy _ _ _ _ h' hhash'
          · rw [objectsOf_map] at hnew'
            rw [hnew.again hfiltered hdesired hnew'] at hok'
            refine ⟨again, hok'.trans ?_⟩
            unfold setEntries
            rw [Dict.set_set, Dict.set_set]
          · exact ⟨_, hok'⟩
        · obtain ⟨rest, hremove, htidy⟩ := remove_entries h'
            ⟨first, hsplit ▸ List.mem_append_right _ List.mem_cons_self, hfirst⟩
          refine ⟨_, rest, hremove, ?_⟩
          rw [htidy, withEntries_set, hwithout, hrest]
      · rw [← hmap] at h
        obtain ⟨rest, hremove, htidy⟩ := remove_entries h ⟨entry, hentry, hcommand⟩
        refine .inr ⟨.unchanged, doc, hok, rfl, ⟨_, hok⟩, _, rest, hremove, ?_⟩
        rw [htidy, hwithout, hsame]

/-- **The edits leave the user's settings** exactly if they are refused, or there is nothing on their way
that they take for something else: an element of the list that is not an object, a `null` in the place of
an object, or a field of the hook that sets another command. -/
theorem leaves_settings_iff :
    (∀ (hookName command : String) (extraFields : Members) (legacy : List String) (doc : Json),
      LeavesSettings (upsertHookEntry false hookName command extraFields legacy)
          (removeHookEntry false hookName command) (withoutHook hookName command legacy)
          (tidyHook hookName) doc ↔
        ∀ entries, hookEntries hookName doc = some entries →
          (objectsOf entries).all hashable = true →
          (∀ v ∈ entries, ∃ entry, v = .obj entry) ∧
            commandIs command (desiredEntry command extraFields) = true) ∧
    ∀ (path : List String) (desired : Fields) (doc : Json),
      LeavesSettings (upsertJsonEntry false path desired.members) (removeJsonEntry true false path)
          (withoutEntry path) (tidyEntry path.dropLast) doc ↔
        meetsNull path.dropLast (membersOf doc) = false :=
  ⟨hook_leaves_settings_iff, entry_leaves_settings_iff⟩

end

/-- Numbers that are written alike are equal. -/
local instance sampleNumbers : NumberEq where
  eq
    | .num m, .num n => m = n
    | .bool a, .bool b => a = b
    | _, _ => false

/-- A hook that the user has written as a string. -/
def stringHook : Json := .obj [("hooks", .obj [("stop", .arr [.str "echo done"])])]

/-- The string is dropped where the hook of the installer is put in. -/
theorem string_hook_is_dropped :
    upsertHookEntry false "stop" "cq" [] [] (some stringHook) =
        (.ok .created,
          some (.obj [("hooks", .obj [("stop", .arr [.obj [("command", .str "cq")]])])])) ∧
      ¬ LeavesSettings (upsertHookEntry false "stop" "cq" [] []) (removeHookEntry false "stop" "cq")
        (withoutHook "stop" "cq" []) (tidyHook "stop") stringHook := by
  refine ⟨by rfl, ?_⟩
  rw [hook_leaves_settings_iff]
  intro h
  obtain ⟨entry, hentry⟩ := (h [.str "echo done"] rfl rfl).1 _ List.mem_cons_self
  cases hentry

end EighthLayer.Install
