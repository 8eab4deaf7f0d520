import EighthLayer.Install.Manifest
import EighthLayer.Lib.Table

/-!
# EighthLayer.Install.Files

The file operations of the installer (`scripts/install/src/cq_install/common.py`): `_copy_files`, which brings a directory up to date with a source tree, and
`remove_copied_tree`, which takes the copied files away again.

Paths are relative to the target directory. The state carries two records that the
installer does not have: what it last wrote at each path, and what of that still stands
there untouched.
-/

namespace EighthLayer.Install

open Lib

/-! ## The target directory -/

/-- What stands at a path. -/
inductive Node where
  | file (content : Bytes)
  | dir
deriving DecidableEq

/-- The tree under the target directory. -/
abbrev Fs := Table (Prod.fst : Path × Node → Path)

/-- What stands at a path, if anything. -/
def node (fs : Fs) (p : Path) : Option Node := (fs.find p).map Prod.snd

theorem node_eq_some_iff {fs : Fs} {p : Path} {n : Node} : node fs p = some n ↔ (p, n) ∈ fs := by
  unfold node
  rw [Option.map_eq_some_iff]
  constructor
  · intro h
    obtain ⟨⟨q, m⟩, hfind, rfl⟩ := h
    obtain ⟨hmem, rfl⟩ := Table.find_eq_some_iff.mp hfind
    exact hmem
  · intro h
    exact ⟨(p, n), Table.find_eq_some_iff.mpr ⟨h, rfl⟩, rfl⟩

/-- Something is put at a path. -/
def put (fs : Fs) (p : Path) (n : Node) : Fs := fs.upsert (p, n)

/-- What stands at a path is taken away. -/
def remove (fs : Fs) (p : Path) : Fs := fs.delete fun x => x.1 = p

theorem node_put (fs : Fs) (p : Path) (n : Node) (r : Path) :
    node (put fs p n) r = if r = p then some n else node fs r := by
  refine Option.ext fun m => ?_
  rw [node_eq_some_iff, put, Table.mem_upsert]
  by_cases hr : r = p
  · subst hr
    simp [eq_comm]
  · simp [hr, node_eq_some_iff]

theorem node_remove (fs : Fs) (p r : Path) :
    node (remove fs p) r = if r = p then none else node fs r := by
  refine Option.ext fun m => ?_
  rw [node_eq_some_iff, remove, Table.mem_delete]
  by_cases hr : r = p
  · subst hr
    simp
  · simp [hr, node_eq_some_iff]

/-- The directories a path lies in, the outermost first. -/
def parents (p : Path) : List Path :=
  ((List.range p.toList.length).filter fun n => p.toList[n]? = some '/').map fun n =>
    String.ofList (p.toList.take n)

theorem not_mem_parents (p : Path) : p ∉ parents p := by
  intro h
  obtain ⟨n, hn, heq⟩ := List.mem_map.mp h
  have hlt := List.mem_range.mp (List.mem_of_mem_filter hn)
  have hchars := congrArg String.toList heq
  rw [String.toList_ofList] at hchars
  have hlen := congrArg List.length hchars
  rw [List.length_take] at hlen
  omega

/-- `mkdir(parents=True, exist_ok=True)`, from the outermost directory in; the flag says
whether it succeeds. -/
def mkdirs : List Path → Fs → Fs × Bool
  | [], fs => (fs, true)
  | q :: qs, fs =>
    match node fs q with
    | some (.file _) => (fs, false)
    | some .dir => mkdirs qs fs
    | none => mkdirs qs (put fs q .dir)

/-- Where no file is in the way, the directories are there afterwards and nothing else has
changed. -/
theorem mkdirs_spec {qs : List Path} {fs : Fs} (h : ∀ q ∈ qs, ∀ c, node fs q ≠ some (.file c)) :
    (mkdirs qs fs).2 = true ∧
      ∀ r, node (mkdirs qs fs).1 r = if r ∈ qs then some .dir else node fs r := by
  induction qs generalizing fs with
  | nil => exact ⟨rfl, fun r => by simp [mkdirs]⟩
  | cons q qs ih =>
      have hq := h q (List.mem_cons_self ..)
      unfold mkdirs
      split
      · next c hnode => exact absurd hnode (hq c)
      · next hnode =>
          obtain ⟨hok, hspec⟩ := ih fun q' hq' => h q' (List.mem_cons_of_mem _ hq')
          refine ⟨hok, fun r => ?_⟩
          rw [hspec]
          by_cases hr : r = q
          · subst hr
            simp [hnode]
          · simp [hr]
      · next hnode =>
          have hrest : ∀ q' ∈ qs, ∀ c, node (put fs q .dir) q' ≠ some (.file c) := by
            intro q' hq' c
            rw [node_put]
            split
            · exact fun heq => nomatch heq
            · exact h q' (List.mem_cons_of_mem _ hq') c
          obtain ⟨hok, hspec⟩ := ih hrest
          refine ⟨hok, fun r => ?_⟩
          rw [hspec, node_put]
          by_cases hr : r = q
          · subst hr
            simp
          · simp [hr]

/-! ## The installer -/

/-- The installer with its manifest. -/
structure Installer where
  text : ManifestText
  manifestName : String

/-- Where the manifest stands. -/
def Installer.manifestPath (I : Installer) : Path := I.manifestName

/-- `load_manifest`. -/
def Installer.loadManifest (I : Installer) (fs : Fs) : Option (Option (List Entry)) :=
  match node fs I.manifestPath with
  | none => some none
  | some .dir => none
  | some (.file c) => I.text.loads c

/-! ## The state -/

/-- The target directory, and what the installer has done there. -/
structure Disk where
  fs : Fs
  /-- What the installer last wrote at a path. -/
  written : Path → Option Bytes
  /-- What it wrote at a path and nobody has touched since. -/
  own : Path → Option Bytes

/-- `target_file.write_bytes`, after its directory is made. -/
def Disk.write (d : Disk) (p : Path) (c : Bytes) : Disk × Bool :=
  match mkdirs (parents p) d.fs with
  | (fs, false) => ({ d with fs := fs }, false)
  | (fs, true) =>
    ({ fs := put fs p (.file c)
       written := fun r => if r = p then some c else d.written r
       own := fun r => if r = p then some c else d.own r }, true)

/-- `unlink`. -/
def Disk.unlink (d : Disk) (p : Path) : Disk :=
  { d with fs := remove d.fs p, own := fun r => if r = p then none else d.own r }

/-! ## Installing -/

/-- `Action`, as far as these operations return it. -/
inductive Action where
  | created | updated | unchanged | removed | skipped
deriving DecidableEq

/-- The loop of `_copy_files` over the desired files: whether any of them changed, `none`
where it raises. -/
def copyFiles (dryRun : Bool) : List (Path × Bytes) → Disk → Bool → Disk × Option Bool
  | [], d, changed => (d, some changed)
  | (p, c) :: rest, d, changed =>
    let copy : Disk × Option Bool :=
      if dryRun then copyFiles dryRun rest d true
      else match d.write p c with
        | (d, false) => (d, none)
        | (d, true) => copyFiles dryRun rest d true
    match node d.fs p with
    -- `hash_file` of a directory
    | some .dir => (d, none)
    | some (.file c') => if hashFile c' = hashFile c then copyFiles dryRun rest d changed else copy
    | none => copy

/-- The loop of `_copy_files` over the paths that are no longer desired. -/
def removeStale (dryRun : Bool) : List Path → Disk → Bool → Disk × Option Bool
  | [], d, changed => (d, some changed)
  | p :: rest, d, changed =>
    match node d.fs p with
    | none => removeStale dryRun rest d changed
    | some n =>
      if dryRun then removeStale dryRun rest d true
      else match n with
        | .dir => (d, none)
        | .file _ => removeStale dryRun rest (d.unlink p) true

/-- `write_manifest`; `none` where a directory stands in its place. -/
def Installer.writeManifest (I : Installer) (installedAt : String) (entries : List Entry)
    (d : Disk) : Option Disk :=
  match node d.fs I.manifestPath with
  | some .dir => none
  | _ => some { d with fs := put d.fs I.manifestPath (.file (I.text.dumps installedAt entries)) }

/-- The entries of the desired files. -/
def entriesOf (desired : List (Path × Bytes)) : List Entry :=
  desired.map fun x => ⟨x.1, hashFile x.2⟩

/-- `previous_paths - desired_paths`, of the entries of the previous manifest. -/
def stalePaths (previous : List Entry) (desired : List (Path × Bytes)) : List Path :=
  (previous.map Entry.path).filter fun p => p ∉ desired.map Prod.fst

/-- `_copy_files`: the state it leaves and its action, `none` where it raises. -/
def Installer.copyAll (I : Installer) (installedAt : String) (desired : List (Path × Bytes))
    (dryRun : Bool) (d : Disk) : Disk × Option Action :=
  match I.loadManifest d.fs with
  | none => (d, none)
  | some previous =>
    match copyFiles dryRun desired d false with
    | (d, none) => (d, none)
    | (d, some changed) =>
      match removeStale dryRun (stalePaths (previous.getD []) desired) d changed with
      | (d, none) => (d, none)
      | (d, some changed) =>
        let firstInstall := (node d.fs I.manifestPath).isNone
        if !changed && !firstInstall then (d, some .unchanged)
        else
          let action := if firstInstall then Action.created else .updated
          if dryRun then (d, some action)
          else match I.writeManifest installedAt (entriesOf desired) d with
            | none => (d, none)
            | some d => (d, some action)

/-! ## Uninstalling -/

/-- `not any(directory.iterdir())`. -/
def emptyDir (fs : Fs) (p : Path) : Bool :=
  node fs p = some .dir && fs.rows.all fun x => (parents x.1).getLast? ≠ some p

/-- `_prune_empty_dirs`, of the innermost directory first. -/
def pruneEmptyDirs : List Path → Fs → Fs
  | [], fs => fs
  | q :: qs, fs => if emptyDir fs q then pruneEmptyDirs qs (remove fs q) else fs

/-- The loop of `remove_copied_tree`: whether a file was skipped, `none` where it raises. -/
def removeEntries (dryRun : Bool) : List Entry → Disk → Bool → Disk × Option Bool
  | [], d, skipped => (d, some skipped)
  | e :: rest, d, skipped =>
    match node d.fs e.path with
    | none => removeEntries dryRun rest d skipped
    | some .dir => (d, none)
    | some (.file c) =>
      if hashFile c ≠ e.sha256 then removeEntries dryRun rest d true
      else if dryRun then removeEntries dryRun rest d skipped
      else
        let d := d.unlink e.path
        removeEntries dryRun rest
          { d with fs := pruneEmptyDirs (parents e.path).reverse d.fs } skipped

/-- `remove_copied_tree`: the state it leaves and its action, `none` where it raises. -/
def Installer.removeCopiedTree (I : Installer) (dryRun : Bool) (d : Disk) :
    Disk × Option Action :=
  match I.loadManifest d.fs with
  | none => (d, none)
  | some none => (d, some .unchanged)
  | some (some entries) =>
    match removeEntries dryRun entries d false with
    | (d, none) => (d, none)
    | (d, some true) => (d, some .skipped)
    | (d, some false) =>
      if dryRun then (d, some .removed)
      else ({ d with fs := remove d.fs I.manifestPath }, some .removed)

end EighthLayer.Install
