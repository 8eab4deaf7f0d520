import EighthLayer.Install.Files
import EighthLayer.Lib.Dict
import EighthLayer.Lib.JsonFields
import EighthLayer.Lib.PyEq

/-!
# EighthLayer.Install.JsonFiles

The edits that the installer makes in JSON files of the user
(`scripts/install/src/cq_install/common.py`): an entry at a path of keys, which is merged with what is
there, and an entry in a list of hooks, which is recognised by its command.

A file is what it parses as. What is equal in Python is equal by `pyEq`, up to numbers, for which the
edits may use any equality (`NumberEq`).
-/

namespace EighthLayer.Install

open Lib

/-- A parsed JSON object. -/
abbrev Members := List (String × Json)

/-- A `dict` that is put into a file: no key is in it twice. -/
structure Fields where
  members : Members
  nodup : (members.map Prod.fst).Nodup

/-- What an edit raises. -/
inductive Raised where
  /-- `expected top-level JSON object` -/
  | notAnObject
  /-- `expected 'hooks' to be an object` -/
  | hooksNotAnObject
  /-- `expected hooks.<hook_name> to be a list` -/
  | entriesNotAList (hookName : String)
  /-- `expected object at <dotted>` -/
  | expectedObject (dotted : String)
  | attributeError
  | typeError
  | indexError
deriving DecidableEq

/-! ## Python's values -/

/-- `d.get(key)`. -/
def getValue (key : String) (d : Members) : Json := (d.lookup key).getD .null

/-- `{}` -/
def isEmptyObject : Json → Bool
  | .obj [] => true
  | _ => false

/-- The elements that are objects. -/
def objectsOf (xs : List Json) : List Members := xs.filterMap fun
  | .obj ms => some ms
  | _ => none

/-- The fields of `desired` that are missing or different are set, and it is said whether there are
any. -/
def mergeInto [NumberEq] (desired existing : Members) (changed : Bool) : Members × Bool :=
  desired.foldl (fun acc field =>
    if pyEq (getValue field.1 acc.1) field.2 then acc else (Dict.set field.1 field.2 acc.1, true))
    (existing, changed)

/-! ## Hooks -/

/-- `entry.get("command") == command`. -/
def commandIs (command : String) (entry : Members) : Bool :=
  match getValue "command" entry with
  | .str s => s = command
  | _ => false

/-- Whether `entry.get("command")` can be looked for in a set. -/
def hashable (entry : Members) : Bool :=
  match getValue "command" entry with
  | .arr _ | .obj _ => false
  | _ => true

/-- `entry.get("command") in legacy`. -/
def inLegacy (legacy : List String) (entry : Members) : Bool :=
  match getValue "command" entry with
  | .str s => s ∈ legacy
  | _ => false

/-- `{"command": command}` and the further fields. -/
def desiredEntry (command : String) (extraFields : Members) : Members :=
  extraFields.foldl (fun d field => Dict.set field.1 field.2 d) [("command", .str command)]

/-- The hooks of a document with other entries in one of the lists. -/
def setEntries (data hooks : Members) (hookName : String) (entries : List Members) : Json :=
  .obj (Dict.set "hooks" (.obj (Dict.set hookName (.arr (entries.map .obj)) hooks)) data)

/-- `upsert_hook_entry`: what it returns or raises, and the file after it. -/
def upsertHookEntry [NumberEq] (dryRun : Bool) (hookName command : String) (extraFields : Members)
    (legacyCommands : List String) (file : Option Json) : Except Raised Action × Option Json :=
  match file.getD (.obj []) with
  | .obj data =>
    match (data.lookup "hooks").getD (.obj []) with
    | .obj hooks =>
      match (hooks.lookup hookName).getD (.arr []) with
      | .arr rawEntries =>
        let entries := objectsOf rawEntries
        if entries.all hashable then
          let filtered := entries.filter fun entry => !inLegacy legacyCommands entry
          let legacyRemoved := decide (filtered.length ≠ entries.length)
          let desired := desiredEntry command extraFields
          match filtered.findIdx? (commandIs command) with
          | none =>
            (.ok (if legacyRemoved then .updated else .created), if dryRun then file
              else some (setEntries data hooks hookName (filtered ++ [desired])))
          | some i =>
            let merged := mergeInto desired (filtered.getD i []) legacyRemoved
            if merged.2 then
              (.ok .updated, if dryRun then file
                else some (setEntries data hooks hookName (filtered.set i merged.1)))
            else (.ok .unchanged, file)
        -- a list or an object is looked for in the set of the legacy commands
        else (.error .typeError, file)
      | _ => (.error (.entriesNotAList hookName), file)
    | _ => (.error .hooksNotAnObject, file)
  | _ => (.error .notAnObject, file)

/-- What `for entry in entries` goes through. -/
def iterated : Json → Option (List Json)
  | .arr xs => some xs
  | .obj ms => some (ms.map fun m => .str m.1)
  | .str s => some (s.toList.map fun c => .str (String.singleton c))
  | _ => none

/-- `remove_hook_entry`. -/
def removeHookEntry (dryRun : Bool) (hookName command : String) (file : Option Json) :
    Except Raised Action × Option Json :=
  match file with
  | none => (.ok .unchanged, none)
  | some (.obj data) =>
    match (data.lookup "hooks").getD (.obj []) with
    | .obj hooks =>
      match iterated ((hooks.lookup hookName).getD (.arr [])) with
      | none => (.error .typeError, file)
      | some entries =>
        -- `entry.get` of what is no object
        if (objectsOf entries).length ≠ entries.length then (.error .attributeError, file)
        else
          let remaining := (objectsOf entries).filter fun entry => !commandIs command entry
          if remaining.length = entries.length then (.ok .unchanged, file)
          else
            (.ok .removed, if dryRun then file
              else if remaining = [] then
                some (.obj (Dict.set "hooks" (.obj (Dict.del hookName hooks)) data))
              else some (setEntries data hooks hookName remaining))
    | _ => (.ok .skipped, file)
  | some _ => (.ok .skipped, file)

/-! ## Entries at a path -/

/-- `_walk_or_create`, and what is done to the object that the walk ends at. -/
def walkOrCreate (edit : Members → Except Raised (Action × Members)) (traversed : List String) :
    List String → Members → Except Raised (Action × Members)
  | [], cursor => edit cursor
  | key :: path, cursor =>
    match getValue key cursor with
    | .null => (walkOrCreate edit (traversed ++ [key]) path []).map fun r =>
        (r.1, Dict.set key (.obj r.2) cursor)
    | .obj child => (walkOrCreate edit (traversed ++ [key]) path child).map fun r =>
        (r.1, Dict.set key (.obj r.2) cursor)
    | _ => .error (.expectedObject (".".intercalate (traversed ++ [key])))

/-- The entry is put in or merged. -/
def upsertLeaf [NumberEq] (path : List String) (leafKey : String) (desired parent : Members) :
    Except Raised (Action × Members) :=
  match getValue leafKey parent with
  | .null => .ok (.created, Dict.set leafKey (.obj desired) parent)
  | .obj existing =>
    let merged := mergeInto desired existing false
    if merged.2 then .ok (.updated, Dict.set leafKey (.obj merged.1) parent)
    else .ok (.unchanged, parent)
  | _ => .error (.expectedObject (".".intercalate path))

/-- `upsert_json_entry`. -/
def upsertJsonEntry [NumberEq] (dryRun : Bool) (path : List String) (desired : Members)
    (file : Option Json) : Except Raised Action × Option Json :=
  match path.getLast?, file.getD (.obj []) with
  | none, _ => (.error .indexError, file)
  | some leafKey, .obj data =>
    match walkOrCreate (upsertLeaf path leafKey desired) [] path.dropLast data with
    | .error e => (.error e, file)
    | .ok (action, data') =>
      (.ok action, if dryRun || action = .unchanged then file else some (.obj data'))
  | some _, _ => (.error .attributeError, file)

/-- The document without the entry at a path, if it is there; objects on the path that are empty then
go with it. -/
def removeAt (pruneEmpty : Bool) : List String → Json → Option Json
  | [], _ => none
  | key :: path, .obj members =>
    match members.lookup key with
    | none => none
    | some child =>
      if path = [] then some (.obj (Dict.del key members))
      else (removeAt pruneEmpty path child).map fun child' =>
        if pruneEmpty && isEmptyObject child' then .obj (Dict.del key members)
        else .obj (Dict.set key child' members)
  | _ :: _, _ => none

/-- `remove_json_entry`. -/
def removeJsonEntry (pruneEmpty dryRun : Bool) (path : List String) (file : Option Json) :
    Except Raised Action × Option Json :=
  match file with
  | none => (.ok .unchanged, none)
  | some data =>
    if path = [] then (.error .indexError, file)
    else match removeAt pruneEmpty path data with
      | none => (.ok .unchanged, file)
      | some data' => (.ok .removed, if dryRun then file else some data')

end EighthLayer.Install
