import EighthLayer.Install.JsonFiles

/-!
# EighthLayer.Install.JsonEdits

What the edits of JSON files leave as it was.

Two documents agree outside of an edit if they are the same once the managed parts are taken out
(`withoutHook`, `withoutEntry`) and what is empty on the path is left out (`tidyHook`, `tidyEntry`). The
edits keep this, except that a list of hooks loses its elements that are not objects, and a `null` on a
path is taken for a missing key (`leaves_settings_iff`).
-/

namespace EighthLayer.Install

open Lib

/-- What may be expected of an edit, of a document: it is refused, and the document is as it was; or it
leaves everything outside, and does nothing the second time, and its removal leaves what there was
outside. -/
def LeavesSettings (upsert remove : Option Json → Except Raised Action × Option Json)
    (without tidy : Json → Json) (doc : Json) : Prop :=
  (∃ e, upsert (some doc) = (.error e, some doc)) ∨
    ∃ action doc', upsert (some doc) = (.ok action, some doc') ∧
      tidy (without doc') = tidy (without doc) ∧
      (∃ again, upsert (some doc') = (.ok again, some doc')) ∧
      ∃ action' rest, remove (some doc') = (.ok action', some rest) ∧ tidy rest = tidy (without doc)

/-! ## Merging -/

section
variable [NumberEq]

theorem mergeInto_cons (field : String × Json) (desired existing : Members) (changed : Bool) :
    mergeInto (field :: desired) existing changed =
      if pyEq (getValue field.1 existing) field.2 then mergeInto desired existing changed
      else mergeInto desired (Dict.set field.1 field.2 existing) true := by
  unfold mergeInto
  rw [List.foldl_cons]
  split <;> rfl

/-- A field is as it is desired: it is equal to it, or it is it. -/
def AsDesired (existing : Members) (field : String × Json) : Prop :=
  pyEq (getValue field.1 existing) field.2 = true ∨ Dict.set field.1 field.2 existing = existing

theorem AsDesired.set {existing : Members} {field : String × Json} (h : AsDesired existing field)
    {key : String} (hne : key ≠ field.1) (v : Json) : AsDesired (Dict.set key v existing) field := by
  rcases h with heq | hset
  · refine .inl ?_
    unfold getValue at heq ⊢
    rwa [Dict.lookup_set_ne (Ne.symm hne)]
  · exact .inr (Dict.set_of_set_eq_self hne hset)

/-- Where all is as it is desired, nothing is merged. -/
theorem mergeInto_eq_self {desired existing : Members}
    (h : ∀ field ∈ desired, AsDesired existing field) (changed : Bool) :
    (mergeInto desired existing changed).1 = existing := by
  induction desired generalizing changed with
  | nil => rfl
  | cons field desired ih =>
      have hrest := fun f hf => h f (List.mem_cons_of_mem _ hf)
      rw [mergeInto_cons]
      split
      · exact ih hrest changed
      · rename_i hne
        rw [(h field List.mem_cons_self).resolve_left hne]
        exact ih hrest true

theorem asDesired_mergeInto_of_not_mem {desired : Members} {field : String × Json}
    (hkey : field.1 ∉ desired.map Prod.fst) {existing : Members} (h : AsDesired existing field)
    (changed : Bool) : AsDesired (mergeInto desired existing changed).1 field := by
  induction desired generalizing existing changed with
  | nil => exact h
  | cons other desired ih =>
      rw [List.map_cons, List.mem_cons, not_or] at hkey
      rw [mergeInto_cons]
      split
      · exact ih hkey.2 h changed
      · exact ih hkey.2 (h.set (Ne.symm hkey.1) other.2) true

/-- What is merged is as it is desired. -/
theorem asDesired_mergeInto {desired : Members} (hd : (desired.map Prod.fst).Nodup)
    (existing : Members) (changed : Bool) :
    ∀ field ∈ desired, AsDesired (mergeInto desired existing changed).1 field := by
  induction desired generalizing existing changed with
  | nil => exact fun _ hf => absurd hf List.not_mem_nil
  | cons other desired ih =>
      obtain ⟨hnot, hd⟩ := List.nodup_cons.mp hd
      rw [mergeInto_cons]
      have hrest : ∀ existing changed, AsDesired existing other →
          ∀ field ∈ other :: desired, AsDesired (mergeInto desired existing changed).1 field := by
        intro existing changed hother field hf
        rcases List.mem_cons.mp hf with rfl | hf
        · exact asDesired_mergeInto_of_not_mem hnot hother changed
        · exact ih hd existing changed field hf
      split
      · exact hrest existing changed (.inl ‹_›)
      · exact hrest _ true (.inr (Dict.set_set _ _ _ _))

theorem mergeInto_again {desired : Members} (hd : (desired.map Prod.fst).Nodup)
    (existing : Members) (changed changed' : Bool) :
    (mergeInto desired (mergeInto desired existing changed).1 changed').1 =
      (mergeInto desired existing changed).1 :=
  mergeInto_eq_self (asDesired_mergeInto hd existing changed) changed'

theorem mergeInto_self {desired : Members} (hd : (desired.map Prod.fst).Nodup) (changed : Bool) :
    (mergeInto desired desired changed).1 = desired :=
  mergeInto_eq_self (fun _ hf => .inr (Dict.set_eq_self_of_mem hd hf)) changed

/-- Where nothing is said to be merged, nothing is, and all is equal to what is desired. -/
theorem eq_of_mergeInto_unchanged {desired existing : Members} {changed : Bool}
    (h : (mergeInto desired existing changed).2 = false) :
    changed = false ∧ (mergeInto desired existing changed).1 = existing ∧
      ∀ field ∈ desired, pyEq (getValue field.1 existing) field.2 = true := by
  have htrue : ∀ (desired existing : Members), (mergeInto desired existing true).2 = true := by
    intro desired
    induction desired with
    | nil => exact fun _ => rfl
    | cons field desired ih =>
        intro existing
        rw [mergeInto_cons]
        split
        · exact ih existing
        · exact ih _
  induction desired with
  | nil => exact ⟨h, rfl, fun _ hf => absurd hf List.not_mem_nil⟩
  | cons field desired ih =>
      rw [mergeInto_cons] at h ⊢
      by_cases heq : pyEq (getValue field.1 existing) field.2 = true
      · rw [if_pos heq] at h ⊢
        obtain ⟨hchanged, hsame, hall⟩ := ih h
        exact ⟨hchanged, hsame, List.forall_mem_cons.mpr ⟨heq, hall⟩⟩
      · rw [if_neg heq, htrue] at h
        cases h

end

/-! ## Entries at a path -/

/-- A document without the entry at a path. -/
def withoutEntry : List String → Json → Json
  | key :: path, .obj members =>
    if path = [] then .obj (Dict.del key members)
    else match members.lookup key with
      | some child => .obj (Dict.set key (withoutEntry path child) members)
      | none => .obj members
  | _, doc => doc

/-- A document without the objects that are empty along some keys. -/
def tidyEntry : List String → Json → Json
  | key :: path, .obj members =>
    match members.lookup key with
    | some child =>
      if isEmptyObject (tidyEntry path child) then .obj (Dict.del key members)
      else .obj (Dict.set key (tidyEntry path child) members)
    | none => .obj members
  | _, doc => doc

/-- A walk along some keys comes to a `null`. -/
def meetsNull : List String → Members → Bool
  | [], _ => false
  | key :: path, members =>
    match members.lookup key with
    | some .null => true
    | some (.obj child) => meetsNull path child
    | _ => false

/-- What is at a key of a path: an object, which may still be missing. -/
def childAt (key : String) (members : Members) : Members :=
  match members.lookup key with
  | some (.obj child) => child
  | _ => []

/-- A walk over a key goes on in its child, which is put back. -/
theorem walkOrCreate_cons {edit : Members → Except Raised (Action × Members)}
    {traversed path : List String} {key : String} {members members' : Members} {action : Action}
    (h : walkOrCreate edit traversed (key :: path) members = .ok (action, members')) :
    ((∃ child, members.lookup key = some (.obj child)) ∨ getValue key members = .null) ∧
      ∃ child', walkOrCreate edit (traversed ++ [key]) path (childAt key members) =
        .ok (action, child') ∧ members' = Dict.set key (.obj child') members := by
  rw [walkOrCreate] at h
  have hback : ∀ {child : Members}, (walkOrCreate edit (traversed ++ [key]) path child).map
      (fun r => (r.1, Dict.set key (.obj r.2) members)) = .ok (action, members') →
      ∃ child', walkOrCreate edit (traversed ++ [key]) path child = .ok (action, child') ∧
        members' = Dict.set key (.obj child') members := by
    intro child hwalk
    cases hchild : walkOrCreate edit (traversed ++ [key]) path child with
    | error e =>
        rw [hchild] at hwalk
        cases hwalk
    | ok r =>
        rw [hchild] at hwalk
        cases hwalk
        exact ⟨r.2, rfl, rfl⟩
  unfold childAt
  unfold getValue at h ⊢
  cases hlookup : members.lookup key with
  | none =>
      rw [hlookup] at h
      exact ⟨.inr rfl, hback h⟩
  | some v =>
      rw [hlookup] at h
      cases v with
      | null => exact ⟨.inr rfl, hback h⟩
      | obj child => exact ⟨.inl ⟨child, rfl⟩, hback h⟩
      | bool _ => cases h
      | num _ => cases h
      | str _ => cases h
      | arr _ => cases h

theorem withoutEntry_leaf (leafKey : String) (members : Members) :
    withoutEntry [leafKey] (.obj members) = .obj (Dict.del leafKey members) := rfl

theorem withoutEntry_cons {key : String} {path : List String} {members : Members} {v : Json}
    (hpath : path ≠ []) (h : members.lookup key = some v) :
    withoutEntry (key :: path) (.obj members) =
      .obj (Dict.set key (withoutEntry path v) members) := by
  rw [withoutEntry, if_neg hpath, h]

theorem withoutEntry_cons_of_none {key : String} {path : List String} {members : Members}
    (hpath : path ≠ []) (h : members.lookup key = none) :
    withoutEntry (key :: path) (.obj members) = .obj members := by
  rw [withoutEntry, if_neg hpath, h]

/-- What is outside of an entry, without the empty objects on the way to it. -/
def outside (keys : List String) (leafKey : String) (doc : Json) : Json :=
  tidyEntry keys (withoutEntry (keys ++ [leafKey]) doc)

theorem eq_of_isEmptyObject {v : Json} (h : isEmptyObject v = true) : v = .obj [] := by
  unfold isEmptyObject at h
  split at h
  · rfl
  · cases h

theorem outside_nil (leafKey : String) (members : Members) :
    outside [] leafKey (.obj members) = .obj (Dict.del leafKey members) := rfl

/-- The object at a key is there only with what is outside of the entry in it. -/
theorem outside_cons {keys : List String} {leafKey key : String} {members : Members} {v : Json}
    (h : members.lookup key = some v) :
    outside (key :: keys) leafKey (.obj members) =
      if isEmptyObject (outside keys leafKey v) then .obj (Dict.del key members)
      else .obj (Dict.set key (outside keys leafKey v) members) := by
  unfold outside
  rw [List.cons_append, withoutEntry_cons (by simp) h, tidyEntry, Dict.lookup_set_self]
  dsimp only
  rw [Dict.del_set, Dict.set_set]

theorem outside_empty (keys : List String) (leafKey : String) :
    outside keys leafKey (.obj []) = .obj [] := by
  cases keys with
  | nil => rfl
  | cons key keys =>
      unfold outside
      rw [List.cons_append, withoutEntry_cons_of_none (by simp) rfl]
      rfl

/-- A missing object is as good as an empty one. -/
theorem outside_childAt {keys : List String} {leafKey key : String} {members : Members}
    (h : (∃ child, members.lookup key = some (.obj child)) ∨ members.lookup key = none) :
    outside (key :: keys) leafKey (.obj members) =
      if isEmptyObject (outside keys leafKey (.obj (childAt key members))) then
        .obj (Dict.del key members)
      else .obj (Dict.set key (outside keys leafKey (.obj (childAt key members))) members) := by
  rcases h with ⟨child, hchild⟩ | hnone
  · have hat : childAt key members = child := by rw [childAt, hchild]
    rw [outside_cons hchild, hat]
  · have hat : childAt key members = [] := by rw [childAt, hnone]
    rw [hat, outside_empty, isEmptyObject, if_pos rfl, Dict.del_eq_self hnone]
    unfold outside
    rw [List.cons_append, withoutEntry_cons_of_none (by simp) hnone, tidyEntry, hnone]

theorem meetsNull_empty (keys : List String) : meetsNull keys [] = false := by
  cases keys <;> rfl

/-- What is taken out below a key is taken out, and an object that is empty then goes with it. -/
theorem removeAt_cons {keys : List String} {leafKey key : String} {members child : Members}
    {rest : Json} (hlookup : members.lookup key = some (.obj child))
    (h : removeAt true (keys ++ [leafKey]) (.obj child) = some rest) :
    ∃ rest', removeAt true (key :: keys ++ [leafKey]) (.obj members) = some rest' ∧
      tidyEntry (key :: keys) rest' =
        if isEmptyObject (tidyEntry keys rest) then .obj (Dict.del key members)
        else .obj (Dict.set key (tidyEntry keys rest) members) := by
  have hremove : removeAt true (key :: keys ++ [leafKey]) (.obj members) =
      some (if isEmptyObject rest then .obj (Dict.del key members)
        else .obj (Dict.set key rest members)) := by
    rw [List.cons_append, removeAt, hlookup]
    dsimp only
    rw [if_neg (by simp), h, Option.map_some, Bool.true_and]
  refine ⟨_, hremove, ?_⟩
  by_cases hempty : isEmptyObject rest = true
  · have hrest : isEmptyObject (tidyEntry keys rest) = true := by
      rw [eq_of_isEmptyObject hempty]
      cases keys with
      | nil => rfl
      | cons _ _ => rfl
    rw [if_pos hempty, if_pos hrest, tidyEntry, Dict.lookup_del_self]
  · rw [if_neg hempty, tidyEntry, Dict.lookup_set_self]
    dsimp only
    rw [Dict.del_set, Dict.set_set]

/-- What a walk makes of a file. -/
def afterWalk (members : Members) :
    Except Raised (Action × Members) → Except Raised Action × Option Json
  | .error e => (.error e, some (.obj members))
  | .ok (action, members') =>
    (.ok action, some (.obj (if action = .unchanged then members else members')))

section
variable [NumberEq] {path : List String} {leafKey : String} {desired : Fields}

/-- The entry is there afterwards, and nothing else is touched. -/
theorem upsertLeaf_spec {parent parent' : Members} {action : Action}
    (h : upsertLeaf path leafKey desired.members parent = .ok (action, parent')) :
    (parent'.lookup leafKey).isSome ∧ Dict.del leafKey parent' = Dict.del leafKey parent ∧
      (action = .unchanged → parent' = parent) ∧
      ∃ again parent'', upsertLeaf path leafKey desired.members parent' = .ok (again, parent'') ∧
        (again = .unchanged ∨ parent'' = parent') := by
  unfold upsertLeaf at h
  cases hvalue : getValue leafKey parent with
  | null =>
      rw [hvalue] at h
      cases h
      refine ⟨by rw [Dict.lookup_set_self]; rfl, Dict.del_set _ _ _, fun h => absurd h (by decide), ?_⟩
      have hvalue' : getValue leafKey (Dict.set leafKey (.obj desired.members) parent) =
          .obj desired.members := by
        rw [getValue, Dict.lookup_set_self, Option.getD_some]
      unfold upsertLeaf
      rw [hvalue']
      dsimp only
      split
      · refine ⟨_, _, rfl, .inr ?_⟩
        rw [Dict.set_set, mergeInto_self desired.nodup]
      · exact ⟨_, _, rfl, .inl rfl⟩
  | obj existing =>
      rw [hvalue] at h
      dsimp only at h
      split at h
      · cases h
        refine ⟨by rw [Dict.lookup_set_self]; rfl, Dict.del_set _ _ _, fun h => absurd h (by decide), ?_⟩
        unfold upsertLeaf getValue
        rw [Dict.lookup_set_self, Option.getD_some]
        dsimp only
        split
        · refine ⟨_, _, rfl, .inr ?_⟩
          rw [Dict.set_set, mergeInto_again desired.nodup]
        · exact ⟨_, _, rfl, .inl rfl⟩
      · rename_i hunchanged
        cases h
        refine ⟨?_, rfl, fun _ => rfl, ?_⟩
        · unfold getValue at hvalue
          cases hlookup : parent.lookup leafKey with
          | none =>
              rw [hlookup] at hvalue
              cases hvalue
          | some v => rfl
        · refine ⟨.unchanged, parent, ?_, .inl rfl⟩
          unfold upsertLeaf
          rw [hvalue]
          exact if_neg hunchanged
  | bool _ => rw [hvalue] at h; cases h
  | num _ => rw [hvalue] at h; cases h
  | str _ => rw [hvalue] at h; cases h
  | arr _ => rw [hvalue] at h; cases h

theorem walkOrCreate_empty (path : List String) (leafKey : String) (desired : Fields)
    (keys traversed : List String) :
    ∃ members', walkOrCreate (upsertLeaf path leafKey desired.members) traversed keys [] =
      .ok (.created, members') := by
  induction keys generalizing traversed with
  | nil => exact ⟨_, rfl⟩
  | cons key keys ih =>
      obtain ⟨child', hchild⟩ := ih (traversed ++ [key])
      refine ⟨Dict.set key (.obj child') [], ?_⟩
      rw [walkOrCreate, getValue, List.lookup_nil, Option.getD_none]
      dsimp only
      rw [hchild]
      rfl

/-- A walk that comes to no `null` leaves what is outside of the entry, ends where it is the second
time, and can be undone. -/
theorem walkOrCreate_spec {keys traversed : List String} {members members' : Members} {action : Action}
    (hnull : meetsNull keys members = false)
    (h : walkOrCreate (upsertLeaf path leafKey desired.members) traversed keys members =
      .ok (action, members')) :
    outside keys leafKey (.obj members') = outside keys leafKey (.obj members) ∧
      (∃ again members'', walkOrCreate (upsertLeaf path leafKey desired.members) traversed keys
          members' = .ok (again, members'') ∧ (again = .unchanged ∨ members'' = members')) ∧
      ∀ m, (m = members' ∨ action = .unchanged ∧ m = members) →
        ∃ rest, removeAt true (keys ++ [leafKey]) (.obj m) = some rest ∧
          tidyEntry keys rest = outside keys leafKey (.obj members) := by
  induction keys generalizing traversed members members' with
  | nil =>
      obtain ⟨hsome, hdel, hunchanged, hagain⟩ := upsertLeaf_spec h
      refine ⟨congrArg Json.obj hdel, hagain, fun m hm => ?_⟩
      have hm : m = members' := by
        rcases hm with rfl | ⟨haction, rfl⟩
        · rfl
        · exact (hunchanged haction).symm
      subst hm
      refine ⟨.obj (Dict.del leafKey m), ?_, congrArg Json.obj hdel⟩
      obtain ⟨v, hv⟩ := Option.isSome_iff_exists.mp hsome
      rw [List.nil_append, removeAt, hv]
      exact if_pos rfl
  | cons key keys ih =>
      obtain ⟨hat, child', hchild, rfl⟩ := walkOrCreate_cons h
      -- as it is no `null`, it is missing
      have hat : (∃ child, members.lookup key = some (.obj child)) ∨ members.lookup key = none := by
        refine hat.imp_right fun hvalue => ?_
        unfold getValue at hvalue
        cases hlookup : members.lookup key with
        | none => rfl
        | some v =>
            rw [hlookup, Option.getD_some] at hvalue
            rw [meetsNull, hlookup, hvalue] at hnull
            cases hnull
      have hnull' : meetsNull keys (childAt key members) = false := by
        rcases hat with ⟨child, hlookup⟩ | hlookup
        · rw [meetsNull, hlookup] at hnull
          rw [childAt, hlookup]
          exact hnull
        · rw [childAt, hlookup]
          exact meetsNull_empty keys
      obtain ⟨houtside, ⟨again, child'', hagain, hsame⟩, hremove⟩ := ih hnull' hchild
      refine ⟨?_, ?_, fun m hm => ?_⟩
      · rw [outside_cons (Dict.lookup_set_self _ _ _), houtside, outside_childAt hat, Dict.del_set,
          Dict.set_set]
      · refine ⟨again, Dict.set key (.obj child'') (Dict.set key (.obj child') members), ?_,
          hsame.imp_right fun heq => by rw [Dict.set_set, heq]⟩
        rw [walkOrCreate, getValue, Dict.lookup_set_self, Option.getD_some]
        dsimp only
        rw [hagain]
        rfl
      · rw [outside_childAt hat]
        rcases hm with rfl | ⟨rfl, rfl⟩
        · obtain ⟨rest, hrest, htidy⟩ := hremove child' (.inl rfl)
          obtain ⟨rest', hremove', htidy'⟩ := removeAt_cons (Dict.lookup_set_self _ _ members) hrest
          refine ⟨rest', hremove', ?_⟩
          rw [htidy', htidy, Dict.del_set, Dict.set_set]
        · rcases hat with ⟨child, hlookup⟩ | hlookup
          · have hchildAt : childAt key m = child := by rw [childAt, hlookup]
            rw [hchildAt] at hremove ⊢
            obtain ⟨rest, hrest, htidy⟩ := hremove child (.inr ⟨rfl, rfl⟩)
            obtain ⟨rest', hremove', htidy'⟩ := removeAt_cons hlookup hrest
            refine ⟨rest', hremove', ?_⟩
            rw [htidy', htidy]
          · -- what is put into a missing object is created
            rw [childAt, hlookup] at hchild
            obtain ⟨_, hcreated⟩ :=
              walkOrCreate_empty path leafKey desired keys (traversed ++ [key])
            rw [hcreated] at hchild
            cases hchild

/-- A walk that comes to a `null` puts an object in its place. -/
theorem walkOrCreate_null {keys traversed : List String} {members : Members}
    (hnull : meetsNull keys members = true) :
    ∃ members', walkOrCreate (upsertLeaf path leafKey desired.members) traversed keys members =
        .ok (.created, members') ∧
      outside keys leafKey (.obj members') ≠ outside keys leafKey (.obj members) := by
  induction keys generalizing traversed members with
  | nil => cases hnull
  | cons key keys ih =>
      rw [meetsNull] at hnull
      cases hlookup : members.lookup key with
      | none =>
          rw [hlookup] at hnull
          cases hnull
      | some v =>
          rw [hlookup] at hnull
          cases v with
          | null =>
              obtain ⟨child', hchild⟩ :=
                walkOrCreate_empty path leafKey desired keys (traversed ++ [key])
              refine ⟨Dict.set key (.obj child') members, ?_, ?_⟩
              · rw [walkOrCreate, getValue, hlookup, Option.getD_some]
                dsimp only
                rw [hchild]
                rfl
              · have hchild' := (walkOrCreate_spec (meetsNull_empty keys) hchild).1
                have hnull' : outside keys leafKey .null = .null := by
                  cases keys <;> rfl
                rw [outside_cons (Dict.lookup_set_self _ _ _), hchild', outside_empty,
                  outside_cons hlookup, hnull', Dict.del_set]
                intro heq
                exact Dict.set_ne_del _ _ _ _ (Json.obj.inj heq).symm
          | obj child =>
              obtain ⟨child', hchild, hne⟩ := @ih (traversed ++ [key]) child hnull
              refine ⟨Dict.set key (.obj child') members, ?_, ?_⟩
              · rw [walkOrCreate, getValue, hlookup, Option.getD_some]
                dsimp only
                rw [hchild]
                rfl
              · rw [outside_cons (Dict.lookup_set_self _ _ _), outside_cons hlookup, Dict.del_set,
                  Dict.set_set]
                intro heq
                by_cases hempty' : isEmptyObject (outside keys leafKey (.obj child')) = true
                · by_cases hempty : isEmptyObject (outside keys leafKey (.obj child)) = true
                  · exact hne ((eq_of_isEmptyObject hempty').trans (eq_of_isEmptyObject hempty).symm)
                  · rw [if_pos hempty', if_neg hempty] at heq
                    exact Dict.set_ne_del _ _ _ _ (Json.obj.inj heq).symm
                · by_cases hempty : isEmptyObject (outside keys leafKey (.obj child)) = true
                  · rw [if_neg hempty', if_pos hempty] at heq
                    exact Dict.set_ne_del _ _ _ _ (Json.obj.inj heq)
                  · rw [if_neg hempty', if_neg hempty] at heq
                    exact hne (Dict.set_inj (Json.obj.inj heq))
          | bool _ => cases hnull
          | num _ => cases hnull
          | str _ => cases hnull
          | arr _ => cases hnull

/-- The members of a document, if it is an object. -/
def membersOf : Json → Members
  | .obj members => members
  | _ => []

theorem upsertJsonEntry_eq (keys : List String) (leafKey : String) (desired : Fields)
    (members : Members) :
    upsertJsonEntry false (keys ++ [leafKey]) desired.members (some (.obj members)) =
      afterWalk members
        (walkOrCreate (upsertLeaf (keys ++ [leafKey]) leafKey desired.members) [] keys members) := by
  unfold upsertJsonEntry
  rw [List.getLast?_concat, List.dropLast_concat, Option.getD_some]
  dsimp only
  cases walkOrCreate (upsertLeaf (keys ++ [leafKey]) leafKey desired.members) [] keys members with
  | error e => rfl
  | ok r =>
      unfold afterWalk
      by_cases haction : r.1 = .unchanged
      · simp [haction]
      · simp [haction]

omit [NumberEq] in
theorem removeJsonEntry_of_some {keys : List String} {doc rest : Json}
    (h : removeAt true (keys ++ [leafKey]) doc = some rest) :
    removeJsonEntry true false (keys ++ [leafKey]) (some doc) = (.ok .removed, some rest) := by
  unfold removeJsonEntry
  dsimp only
  rw [if_neg (by simp), h]
  rfl

/-- **An entry is put in without touching the rest** exactly if the walk to it comes to no `null`. -/
theorem entry_leaves_settings_iff (path : List String) (desired : Fields) (doc : Json) :
    LeavesSettings (upsertJsonEntry false path desired.members) (removeJsonEntry true false path)
        (withoutEntry path) (tidyEntry path.dropLast) doc ↔
      meetsNull path.dropLast (membersOf doc) = false := by
  rcases List.eq_nil_or_concat' path with rfl | ⟨keys, leafKey, rfl⟩
  · exact iff_of_true (.inl ⟨.indexError, rfl⟩) rfl
  · rw [List.dropLast_concat]
    have hrefused : (∀ members, doc ≠ .obj members) →
        upsertJsonEntry false (keys ++ [leafKey]) desired.members (some doc) =
          (.error .attributeError, some doc) ∧ membersOf doc = [] := by
      intro hdoc
      unfold upsertJsonEntry
      rw [List.getLast?_concat]
      cases doc with
      | obj members => exact absurd rfl (hdoc members)
      | null | bool _ | num _ | str _ | arr _ => exact ⟨rfl, rfl⟩
    by_cases hdoc : ∃ members, doc = .obj members
    · obtain ⟨members, rfl⟩ := hdoc
      show _ ↔ meetsNull keys members = false
      cases hwalk : walkOrCreate (upsertLeaf (keys ++ [leafKey]) leafKey desired.members) [] keys
          members with
      | error e =>
          have hupsert := upsertJsonEntry_eq keys leafKey desired members
          rw [hwalk] at hupsert
          refine iff_of_true (.inl ⟨e, hupsert⟩) ?_
          rw [Bool.eq_false_iff]
          intro hnull
          obtain ⟨_, hcreated, -⟩ := walkOrCreate_null hnull
          rw [hcreated] at hwalk
          cases hwalk
      | ok r =>
          obtain ⟨action, members'⟩ := r
          have hupsert := upsertJsonEntry_eq keys leafKey desired members
          rw [hwalk] at hupsert
          constructor
          · intro h
            rw [Bool.eq_false_iff]
            intro hnull
            obtain ⟨_, hcreated, hne⟩ := walkOrCreate_null hnull
            rw [hcreated] at hwalk
            cases hwalk
            rcases h with ⟨e, he⟩ | ⟨_, doc', hdoc', houtside, -⟩
            · rw [hupsert] at he
              cases he
            · rw [hupsert] at hdoc'
              cases hdoc'
              exact hne houtside
          · intro hnull
            obtain ⟨houtside, ⟨again, members'', hagain, hsame⟩, hremove⟩ :=
              walkOrCreate_spec hnull hwalk
            have hupsert' := upsertJsonEntry_eq keys leafKey desired members'
            rw [hagain] at hupsert'
            by_cases haction : action = .unchanged
            · obtain ⟨rest, hrest, htidy⟩ := hremove members (.inr ⟨haction, rfl⟩)
              dsimp only [afterWalk] at hupsert
              rw [if_pos haction] at hupsert
              exact .inr ⟨action, _, hupsert, rfl, ⟨action, hupsert⟩, _, rest,
                removeJsonEntry_of_some hrest, htidy⟩
            · obtain ⟨rest, hrest, htidy⟩ := hremove members' (.inl rfl)
              dsimp only [afterWalk] at hupsert hupsert'
              rw [if_neg haction] at hupsert
              refine .inr ⟨action, _, hupsert, houtside, ⟨again, ?_⟩, _, rest,
                removeJsonEntry_of_some hrest, htidy⟩
              rw [hupsert']
              rcases hsame with hsame | hsame
              · rw [if_pos hsame]
              · rw [hsame, ite_self]
    · obtain ⟨hupsert, hmembers⟩ := hrefused fun members heq => hdoc ⟨members, heq⟩
      rw [hmembers]
      exact iff_of_true (.inl ⟨_, hupsert⟩) (meetsNull_empty keys)

end

end EighthLayer.Install
