import EighthLayer.Lib.Json
import EighthLayer.Lib.Sha256
import EighthLayer.Lib.Utf8

/-!
# EighthLayer.Install.Manifest

The manifest of the installer (`scripts/install/src/cq_install/manifest.py`): the files it
copied, each with the hash of its content.

How a manifest is written out and read back is a parameter (`ManifestText`); what the
installer relies on is that it reads what it wrote (`RoundTrips`). `jsonText` is the text
`json.dumps` writes for manifests in ASCII, with a reader of just these texts.
-/

namespace EighthLayer.Install

open Lib

/-- A path relative to the target directory, its components joined by slashes. -/
abbrev Path := String

/-- `hash_file`, of the content. -/
def hashFile (content : Bytes) : String := String.ofList (hex (sha256 content))

/-- An entry of the manifest. -/
structure Entry where
  path : Path
  sha256 : String
deriving DecidableEq

/-- The text of a manifest, written and read. -/
structure ManifestText where
  /-- What `write_manifest` writes at a time. -/
  dumps : String → List Entry → Bytes
  /-- The entries of the manifest a file holds; `some none` where `load_manifest` returns
  `None`, `none` where reading it raises. -/
  loads : Bytes → Option (Option (List Entry))

/-- Reading back what was written: `json.loads(json.dumps(v))` is `v`. -/
def RoundTrips (text : ManifestText) : Prop :=
  ∀ installedAt entries, text.loads (text.dumps installedAt entries) = some (some entries)

/-! ## The text -/

open Json (printStr skip readStr)

/-- The text before a path, before a hash and after it. -/
def pathLabel : List Char := "    \x7b\n      \"path\": ".toList

def hashLabel : List Char := ",\n      \"sha256\": ".toList

def entryEnd : List Char := "\n    \x7d".toList

/-- The marks of a list: an empty one, the start, what stands between entries, the end. -/
def emptyList : List Char := "[]".toList

def listStart : List Char := "[\n".toList

def listComma : List Char := ",\n".toList

def listEnd : List Char := "\n  ]".toList

def manifestStart : List Char := "\x7b\n  \"version\": 1,\n  \"installed_at\": ".toList

def filesLabel : List Char := ",\n  \"files\": ".toList

def manifestEnd : List Char := "\n\x7d\n".toList

/-- An entry. -/
def printEntry (e : Entry) : List Char :=
  pathLabel ++ (printStr e.path ++ (hashLabel ++ (printStr e.sha256 ++ entryEnd)))

/-- The entries after the first one, and the end of the list. -/
def printEntries : List Entry → List Char
  | [] => listEnd
  | e :: es => listComma ++ (printEntry e ++ printEntries es)

/-- The list of entries. -/
def printFiles : List Entry → List Char
  | [] => emptyList
  | e :: es => listStart ++ (printEntry e ++ printEntries es)

/-- `json.dumps(payload, indent=2) + "\n"`. -/
def printManifest (installedAt : String) (entries : List Entry) : List Char :=
  manifestStart ++ (printStr installedAt ++ (filesLabel ++ (printFiles entries ++
    manifestEnd)))

/-- An entry, and what follows it. -/
def readEntry (s : List Char) : Option (Entry × List Char) := do
  let s ← skip pathLabel s
  let (path, s) ← readStr s
  let s ← skip hashLabel s
  let (sha256, s) ← readStr s
  let s ← skip entryEnd s
  some (⟨path, sha256⟩, s)

/-- The entries after the first one, and what follows the list. -/
def readEntries : Nat → List Char → Option (List Entry × List Char)
  | 0, _ => none
  | fuel + 1, s =>
    match skip listEnd s with
    | some s => some ([], s)
    | none => do
      let s ← skip listComma s
      let (e, s) ← readEntry s
      let (es, s) ← readEntries fuel s
      some (e :: es, s)

/-- The entries of a manifest text. -/
def readManifest (s : List Char) : Option (List Entry) := do
  let s ← skip manifestStart s
  let (_, s) ← readStr s
  let s ← skip filesLabel s
  match skip emptyList s with
  | some _ => some []
  | none =>
    let s ← skip listStart s
    let (e, s) ← readEntry s
    let (es, _) ← readEntries s.length s
    some (e :: es)

@[simp] theorem readEntry_printEntry (e : Entry) (s : List Char) :
    readEntry (printEntry e ++ s) = some (e, s) := by
  simp [readEntry, printEntry]

theorem skip_listEnd_comma (s : List Char) : skip listEnd (listComma ++ s) = none := rfl

theorem skip_emptyList_list (s : List Char) : skip emptyList (listStart ++ s) = none := rfl

theorem readEntries_printEntries {es : List Entry} {s : List Char} {fuel : Nat}
    (h : es.length < fuel) : readEntries fuel (printEntries es ++ s) = some (es, s) := by
  induction es generalizing fuel with
  | nil =>
      cases fuel with
      | zero => exact absurd h (Nat.not_lt_zero _)
      | succ fuel =>
          rw [readEntries, printEntries, Json.skip_append]
  | cons e es ih =>
      cases fuel with
      | zero => exact absurd h (Nat.not_lt_zero _)
      | succ fuel =>
          have hread := ih (Nat.lt_of_succ_lt_succ h)
          rw [readEntries, printEntries, List.append_assoc, skip_listEnd_comma, List.append_assoc]
          simp [hread]

theorem length_lt_length_printEntries (es : List Entry) :
    es.length < (printEntries es).length := by
  induction es with
  | nil => exact Nat.succ_pos _
  | cons e es ih =>
      simp only [printEntries, List.length_append, List.length_cons]
      have hcomma : listComma.length = 2 := rfl
      omega

/-- A manifest text is read as what it was written for. -/
theorem readManifest_printManifest (installedAt : String) (entries : List Entry) :
    readManifest (printManifest installedAt entries) = some entries := by
  unfold readManifest printManifest
  cases entries with
  | nil => simp [printFiles]
  | cons e es =>
      have hlength : es.length < (printEntries es ++ manifestEnd).length := by
        have := length_lt_length_printEntries es
        rw [List.length_append]
        omega
      have hread := readEntries_printEntries (s := manifestEnd) hlength
      rw [List.length_append] at hread
      simp only [printFiles, List.append_assoc]
      simp [skip_emptyList_list, hread]

/-- The text of manifests in ASCII; any other text is unreadable. -/
def jsonText : ManifestText where
  dumps installedAt entries := utf8 (String.ofList (printManifest installedAt entries))
  loads content := some (readManifest (lossyText content).toList)

theorem roundTrips_jsonText : RoundTrips jsonText := by
  intro installedAt entries
  simp only [jsonText, lossyText_utf8, String.toList_ofList, readManifest_printManifest]

end EighthLayer.Install
