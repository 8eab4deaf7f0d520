import EighthLayer.Install.Files
import EighthLayer.Lib.Runs

/-!
# EighthLayer.Install.Ownership

What the installer may touch: runs of installs, uninstalls and whatever the user does in
between.

The manifest lists every file the installer wrote that nobody has touched since
(`Tracked`). An install writes over what it finds and an uninstall goes by content, so user
data is safe as long as no step meets a file of the user at a path it is about to write,
drop or take for its own (`Safe`).
-/

namespace EighthLayer.Install

open Lib

/-! ## Runs -/

/-- A source tree: its files with their content. -/
structure SourceTree where
  files : List (Path × Bytes)
  nodup : (files.map Prod.fst).Nodup
  /-- No file is a directory of another. -/
  tree : ∀ x ∈ files, ∀ y ∈ files, x.1 ∉ parents y.1

/-- A step: the user leaves the directory as `fs`, or the installer runs. -/
inductive Step where
  | user (fs : Fs)
  | install (installedAt : String) (source : SourceTree) (dryRun : Bool)
  | uninstall (dryRun : Bool)

/-- The user changes the directory: what is no longer as it was is touched. -/
def Disk.edit (d : Disk) (fs : Fs) : Disk where
  fs := fs
  written := d.written
  own := fun p => if node fs p = node d.fs p then d.own p else none

/-- One step. -/
def Installer.step (I : Installer) (d : Disk) : Step → Disk
  | .user fs => d.edit fs
  | .install installedAt source dryRun => (I.copyAll installedAt source.files dryRun d).1
  | .uninstall dryRun => (I.removeCopiedTree dryRun d).1

/-- A run. -/
def Installer.run (I : Installer) (d : Disk) (steps : List Step) : Disk := steps.foldl I.step d

/-- A directory in which the installer has never run. -/
def fresh (fs : Fs) : Disk := ⟨fs, fun _ => none, fun _ => none⟩

/-! ## The promise -/

/-- A file whose content is not what the installer last wrote there stays as it is. -/
def Spares (I : Installer) (d d' : Disk) : Prop :=
  ∀ p ≠ I.manifestPath, ∀ c, node d.fs p = some (.file c) → d.written p ≠ some c →
    node d'.fs p = some (.file c)

/-- A step of the installer keeps its promise: it spares the user's files, and an uninstall
leaves nothing the installer wrote and nobody touched. -/
def Promise (I : Installer) (d : Disk) : Step → Disk → Prop
  | .user _, _ => True
  | .install .., d' => Spares I d d'
  | .uninstall dryRun, d' => Spares I d d' ∧ (dryRun = false → ∀ p, d'.own p = none)

/-! ## The condition -/

/-- The paths of the manifest and their hashes, where there is one. -/
def Installer.entries (I : Installer) (fs : Fs) : List Entry :=
  match I.loadManifest fs with
  | some (some entries) => entries
  | _ => []

/-- A file at the path is as the installer last wrote it. -/
def AsWritten (d : Disk) (p : Path) : Prop :=
  ∀ c, node d.fs p = some (.file c) → d.written p = some c

/-- An install from a source meets nothing of the user's. -/
structure SafeInstall (I : Installer) (d : Disk) (source : SourceTree) : Prop where
  /-- The source does not ship a manifest. -/
  named : ∀ x ∈ source.files, x.1 ≠ I.manifestPath ∧ I.manifestPath ∉ parents x.1
  /-- No directory stands where a file is desired, and no file where a directory is. -/
  fits : ∀ x ∈ source.files, node d.fs x.1 ≠ some .dir ∧
    ∀ q ∈ parents x.1, ∀ c, node d.fs q ≠ some (.file c)
  /-- A file of other content at a desired path is the installer's own. -/
  desired : ∀ x ∈ source.files, ∀ c, node d.fs x.1 = some (.file c) →
    hashFile c ≠ hashFile x.2 → d.written x.1 = some c
  /-- A file at a path that is dropped from the source is the installer's own, and no
  directory has taken its place or is about to. -/
  stale : ∀ e ∈ I.entries d.fs, e.path ∉ source.files.map Prod.fst →
    node d.fs e.path ≠ some .dir ∧ (∀ x ∈ source.files, e.path ∉ parents x.1) ∧
      AsWritten d e.path

/-- The step meets nothing of the user's, and the user leaves the manifest alone. -/
def Safe (I : Installer) (d : Disk) : Step → Prop
  | .user fs => node fs I.manifestPath = node d.fs I.manifestPath
  | .install _ source dryRun => dryRun = false → SafeInstall I d source
  | .uninstall dryRun => dryRun = false → ∀ e ∈ I.entries d.fs, node d.fs e.path ≠ some .dir ∧
      ∀ c, node d.fs e.path = some (.file c) → hashFile c = e.sha256 → d.written e.path = some c

/-! ## The invariant -/

/-- The manifest lists what the installer owns. -/
structure Tracked (I : Installer) (d : Disk) : Prop where
  /-- The manifest is missing or one the installer wrote. -/
  manifest : node d.fs I.manifestPath = none ∨ ∃ installedAt entries,
    node d.fs I.manifestPath = some (.file (I.text.dumps installedAt entries))
  /-- It does not list itself. -/
  others : ∀ e ∈ I.entries d.fs, e.path ≠ I.manifestPath
  own : ∀ p c, d.own p = some c → node d.fs p = some (.file c) ∧ d.written p = some c
  listed : ∀ p c, d.own p = some c → ⟨p, hashFile c⟩ ∈ I.entries d.fs

variable {I : Installer} {d d' : Disk}

theorem tracked_fresh {fs : Fs} (h : node fs I.manifestPath = none) : Tracked I (fresh fs) where
  manifest := .inl h
  others := by
    intro e he
    simp [Installer.entries, Installer.loadManifest, fresh, h] at he
  own := fun p c h => nomatch h
  listed := fun p c h => nomatch h

theorem entries_of_none {fs : Fs} (h : node fs I.manifestPath = none) : I.entries fs = [] := by
  simp [Installer.entries, Installer.loadManifest, h]

theorem entries_congr {fs fs' : Fs} (h : node fs I.manifestPath = node fs' I.manifestPath) :
    I.entries fs = I.entries fs' := by
  unfold Installer.entries Installer.loadManifest
  rw [h]

theorem loadManifest_of_dumps (htext : RoundTrips I.text) {fs : Fs} {installedAt : String}
    {entries : List Entry}
    (h : node fs I.manifestPath = some (.file (I.text.dumps installedAt entries))) :
    I.loadManifest fs = some (some entries) := by
  simp [Installer.loadManifest, h, htext installedAt entries]

theorem entries_of_dumps (htext : RoundTrips I.text) {fs : Fs} {installedAt : String}
    {entries : List Entry}
    (h : node fs I.manifestPath = some (.file (I.text.dumps installedAt entries))) :
    I.entries fs = entries := by
  rw [Installer.entries, loadManifest_of_dumps htext h]

/-- The manifest of a tracked directory is read without raising. -/
theorem Tracked.load (htext : RoundTrips I.text) (h : Tracked I d) :
    ∃ previous, I.loadManifest d.fs = some previous ∧ previous.getD [] = I.entries d.fs ∧
      (previous = none → ∀ p, d.own p = none) := by
  have hunowned : I.entries d.fs = [] → ∀ p, d.own p = none := by
    intro hnil p
    cases hown : d.own p with
    | none => rfl
    | some c =>
        have hmem := h.listed p c hown
        rw [hnil] at hmem
        cases hmem
  rcases h.manifest with hnone | ⟨installedAt, entries, hfile⟩
  · refine ⟨none, by simp [Installer.loadManifest, hnone], ?_, fun _ => hunowned ?_⟩
    · rw [entries_of_none hnone]
      rfl
    · exact entries_of_none hnone
  · refine ⟨some entries, ?_, ?_, fun hsome => nomatch hsome⟩
    · exact loadManifest_of_dumps htext hfile
    · rw [entries_of_dumps htext hfile]
      rfl

/-! ## Edits -/

theorem Tracked.edit (h : Tracked I d) {fs : Fs}
    (hsame : node fs I.manifestPath = node d.fs I.manifestPath) : Tracked I (d.edit fs) where
  manifest := by
    rw [show (d.edit fs).fs = fs from rfl, hsame]
    exact h.manifest
  others := by
    rw [show (d.edit fs).fs = fs from rfl, entries_congr hsame]
    exact h.others
  own := by
    intro p c hown
    obtain ⟨hnode, hown⟩ := Option.ite_none_right_eq_some.mp hown
    obtain ⟨hfile, hwritten⟩ := h.own p c hown
    exact ⟨hnode.trans hfile, hwritten⟩
  listed := by
    intro p c hown
    obtain ⟨-, hown⟩ := Option.ite_none_right_eq_some.mp hown
    rw [show (d.edit fs).fs = fs from rfl, entries_congr hsame]
    exact h.listed p c hown

/-! ## Copying -/

/-- A file is written where no directory stands in its place and no file in that of its
directories. -/
theorem write_spec {p : Path} (c : Bytes) (hfits : ∀ q ∈ parents p, ∀ c, node d.fs q ≠ some (.file c)) :
    ∃ d', d.write p c = (d', true) ∧
      (∀ r, node d'.fs r = if r = p then some (.file c)
        else if r ∈ parents p then some .dir else node d.fs r) ∧
      (∀ r, d'.written r = if r = p then some c else d.written r) ∧
      ∀ r, d'.own r = if r = p then some c else d.own r := by
  obtain ⟨hok, hspec⟩ := mkdirs_spec hfits
  have hdirs : mkdirs (parents p) d.fs = ((mkdirs (parents p) d.fs).1, true) := Prod.ext rfl hok
  unfold Disk.write
  rw [hdirs]
  refine ⟨_, rfl, fun r => ?_, fun r => rfl, fun r => rfl⟩
  rw [node_put, hspec]

/-- What a copy of desired files leaves: at a path with the desired hash, what was there; at
any other desired path, the desired content, written by the installer; elsewhere what was
there, but for new directories. -/
structure Copied (desired : List (Path × Bytes)) (d d' : Disk) : Prop where
  kept : ∀ x ∈ desired, ∀ c, node d.fs x.1 = some (.file c) → hashFile c = hashFile x.2 →
    node d'.fs x.1 = some (.file c) ∧ d'.own x.1 = d.own x.1 ∧ d'.written x.1 = d.written x.1
  copied : ∀ x ∈ desired, (∀ c, node d.fs x.1 = some (.file c) → hashFile c ≠ hashFile x.2) →
    node d'.fs x.1 = some (.file x.2) ∧ d'.own x.1 = some x.2 ∧ d'.written x.1 = some x.2
  record : ∀ p ∉ desired.map Prod.fst, d'.own p = d.own p ∧ d'.written p = d.written p
  elsewhere : ∀ p ∉ desired.map Prod.fst, node d'.fs p = node d.fs p ∨
    (∃ x ∈ desired, p ∈ parents x.1) ∧ node d'.fs p = some .dir

/-- A head that is left as it is. -/
theorem Copied.cons_kept {p : Path} {c c' : Bytes} {rest : List (Path × Bytes)}
    (h : Copied rest d d') (hp : p ∉ rest.map Prod.fst) (htree : ∀ y ∈ rest, p ∉ parents y.1)
    (hnode : node d.fs p = some (.file c')) (hhash : hashFile c' = hashFile c) :
    Copied ((p, c) :: rest) d d' where
  kept := by
    intro x hx c'' hfile hsame
    rcases List.mem_cons.mp hx with rfl | hx
    · rcases h.elsewhere p hp with heq | ⟨⟨y, hy, hmem⟩, -⟩
      · exact ⟨heq.trans hfile, h.record p hp⟩
      · exact absurd hmem (htree y hy)
    · exact h.kept x hx c'' hfile hsame
  copied := by
    intro x hx hother
    rcases List.mem_cons.mp hx with rfl | hx
    · exact absurd hhash (hother c' hnode)
    · exact h.copied x hx hother
  record := by
    intro r hr
    rw [List.map_cons, List.mem_cons, not_or] at hr
    exact h.record r hr.2
  elsewhere := by
    intro r hr
    rw [List.map_cons, List.mem_cons, not_or] at hr
    rcases h.elsewhere r hr.2 with heq | ⟨⟨y, hy, hmem⟩, hdir⟩
    · exact .inl heq
    · exact .inr ⟨⟨y, List.mem_cons_of_mem _ hy, hmem⟩, hdir⟩

/-- A head that is written. -/
theorem Copied.cons_copied {p : Path} {c : Bytes} {rest : List (Path × Bytes)} {d₁ : Disk}
    (h : Copied rest d₁ d') (hp : p ∉ rest.map Prod.fst) (htree : ∀ y ∈ rest, p ∉ parents y.1)
    (htree' : ∀ y ∈ rest, y.1 ∉ parents p)
    (hother : ∀ c', node d.fs p = some (.file c') → hashFile c' ≠ hashFile c)
    (hnode : ∀ r, node d₁.fs r = if r = p then some (.file c)
      else if r ∈ parents p then some .dir else node d.fs r)
    (hwritten : ∀ r, d₁.written r = if r = p then some c else d.written r)
    (hown : ∀ r, d₁.own r = if r = p then some c else d.own r) :
    Copied ((p, c) :: rest) d d' := by
  have hne : ∀ x ∈ rest, x.1 ≠ p := by
    intro x hx heq
    exact hp (heq ▸ List.mem_map_of_mem hx)
  have hbefore : ∀ x ∈ rest, node d₁.fs x.1 = node d.fs x.1 := by
    intro x hx
    rw [hnode, if_neg (hne x hx), if_neg (htree' x hx)]
  constructor
  · intro x hx c'' hfile hsame
    rcases List.mem_cons.mp hx with rfl | hx
    · exact absurd hsame (hother c'' hfile)
    · have hkept := h.kept x hx c'' ((hbefore x hx).trans hfile) hsame
      rwa [hown, hwritten, if_neg (hne x hx), if_neg (hne x hx)] at hkept
  · intro x hx hdiffers
    rcases List.mem_cons.mp hx with rfl | hx
    · obtain ⟨hownp, hwrittenp⟩ := h.record p hp
      rw [hown, if_pos rfl] at hownp
      rw [hwritten, if_pos rfl] at hwrittenp
      refine ⟨?_, hownp, hwrittenp⟩
      rcases h.elsewhere p hp with heq | ⟨⟨y, hy, hmem⟩, -⟩
      · rw [heq, hnode, if_pos rfl]
      · exact absurd hmem (htree y hy)
    · refine h.copied x hx fun c' hfile => hdiffers c' ?_
      rwa [hbefore x hx] at hfile
  · intro r hr
    rw [List.map_cons, List.mem_cons, not_or] at hr
    have hrecord := h.record r hr.2
    rwa [hown, hwritten, if_neg hr.1, if_neg hr.1] at hrecord
  · intro r hr
    rw [List.map_cons, List.mem_cons, not_or] at hr
    rcases h.elsewhere r hr.2 with heq | ⟨⟨y, hy, hmem⟩, hdir⟩
    · rw [hnode, if_neg hr.1] at heq
      split at heq
      · next hmem => exact .inr ⟨⟨_, List.mem_cons_self .., hmem⟩, heq⟩
      · exact .inl heq
    · exact .inr ⟨⟨y, List.mem_cons_of_mem _ hy, hmem⟩, hdir⟩

/-- The copying loop does not raise where the desired files fit; when it reports no change it
made none. -/
theorem copyFiles_spec {desired : List (Path × Bytes)} {changed : Bool}
    (hnodup : (desired.map Prod.fst).Nodup)
    (htree : ∀ x ∈ desired, ∀ y ∈ desired, x.1 ∉ parents y.1)
    (hfits : ∀ x ∈ desired, node d.fs x.1 ≠ some .dir ∧
      ∀ q ∈ parents x.1, ∀ c, node d.fs q ≠ some (.file c)) :
    ∃ d' changed', copyFiles false desired d changed = (d', some changed') ∧ Copied desired d d' ∧
      (changed' = false → d' = d ∧ changed = false) := by
  induction desired generalizing d changed with
  | nil =>
      have hrun : copyFiles false [] d changed = (d, some changed) := by simp only [copyFiles]
      refine ⟨d, changed, hrun, ⟨?_, ?_, ?_, ?_⟩, fun h => ⟨rfl, h⟩⟩
      · exact fun x hx => absurd hx List.not_mem_nil
      · exact fun x hx => absurd hx List.not_mem_nil
      · exact fun p _ => ⟨rfl, rfl⟩
      · exact fun p _ => .inl rfl
  | cons x rest ih =>
      obtain ⟨p, c⟩ := x
      rw [List.map_cons, List.nodup_cons] at hnodup
      obtain ⟨hp, hnodup⟩ := hnodup
      have hself := List.mem_cons_self (a := (p, c)) (l := rest)
      have hhead : ∀ y ∈ rest, p ∉ parents y.1 := fun y hy =>
        htree (p, c) hself y (List.mem_cons_of_mem _ hy)
      have hhead' : ∀ y ∈ rest, y.1 ∉ parents p := fun y hy =>
        htree y (List.mem_cons_of_mem _ hy) (p, c) hself
      have htree' : ∀ x ∈ rest, ∀ y ∈ rest, x.1 ∉ parents y.1 := fun x hx y hy =>
        htree x (List.mem_cons_of_mem _ hx) y (List.mem_cons_of_mem _ hy)
      by_cases hsame : ∃ c', node d.fs p = some (.file c') ∧ hashFile c' = hashFile c
      · -- the content is there
        obtain ⟨c', hnode, hhash⟩ := hsame
        obtain ⟨d', changed', hrun, hcopied, hquiet⟩ := ih (d := d) hnodup htree'
          fun y hy => hfits y (List.mem_cons_of_mem _ hy)
        have hcons := hcopied.cons_kept hp hhead hnode hhash
        refine ⟨d', changed', ?_, hcons, hquiet⟩
        unfold copyFiles
        simp only [hnode, if_pos hhash]
        exact hrun
      · -- it is written
        have hother : ∀ c', node d.fs p = some (.file c') → hashFile c' ≠ hashFile c :=
          fun c' hnode hhash => hsame ⟨c', hnode, hhash⟩
        obtain ⟨hdir, hparents⟩ := hfits (p, c) hself
        obtain ⟨d₁, hwrite, hnode, hwritten, hown⟩ := write_spec c hparents
        have hfits' : ∀ y ∈ rest, node d₁.fs y.1 ≠ some .dir ∧
            ∀ q ∈ parents y.1, ∀ c, node d₁.fs q ≠ some (.file c) := by
          intro y hy
          obtain ⟨hydir, hyparents⟩ := hfits y (List.mem_cons_of_mem _ hy)
          have hyp : y.1 ≠ p := fun heq => hp (List.mem_map.mpr ⟨y, hy, heq⟩)
          refine ⟨?_, fun q hq c' => ?_⟩
          · rw [hnode, if_neg hyp, if_neg (hhead' y hy)]
            exact hydir
          · have hqp : q ≠ p := fun heq => hhead y hy (heq ▸ hq)
            rw [hnode, if_neg hqp]
            split
            · exact fun heq => nomatch heq
            · exact hyparents q hq c'
        obtain ⟨d', changed', hrun, hcopied, hquiet⟩ := @ih d₁ true hnodup htree' hfits'
        have hchanged : changed' = false → d' = d ∧ changed = false := by
          intro hfalse
          cases (hquiet hfalse).2
        have hcons := hcopied.cons_copied hp hhead hhead' hother hnode hwritten hown
        refine ⟨d', changed', ?_, hcons, hchanged⟩
        unfold copyFiles
        cases hat : node d.fs p with
        | none => simpa [hat, hwrite] using hrun
        | some n =>
            cases n with
            | dir => exact absurd hat hdir
            | file c' => simpa [hat, hother c' hat, hwrite] using hrun

/-! ## Dropping -/

/-- What dropping paths leaves: nothing there, and everything elsewhere. -/
structure Dropped (paths : List Path) (d d' : Disk) : Prop where
  node : ∀ r, node d'.fs r = if r ∈ paths then none else node d.fs r
  own : ∀ r c, d'.own r = some c → d.own r = some c ∧ (r ∈ paths → Install.node d.fs r = none)
  kept : ∀ r ∉ paths, d'.own r = d.own r
  written : d'.written = d.written

theorem removeStale_spec {paths : List Path} {changed : Bool}
    (hfits : ∀ p ∈ paths, node d.fs p ≠ some .dir) :
    ∃ d' changed', removeStale false paths d changed = (d', some changed') ∧ Dropped paths d d' ∧
      (changed' = false → d' = d ∧ changed = false) := by
  induction paths generalizing d changed with
  | nil =>
      refine ⟨d, changed, rfl, ⟨fun r => ?_, fun r c h => ⟨h, fun hr => ?_⟩, fun r _ => rfl, rfl⟩,
        fun h => ⟨rfl, h⟩⟩
      · rw [if_neg List.not_mem_nil]
      · exact absurd hr List.not_mem_nil
  | cons p rest ih =>
      have hrest : ∀ q ∈ rest, node d.fs q ≠ some .dir := fun q hq =>
        hfits q (List.mem_cons_of_mem _ hq)
      unfold removeStale
      cases hat : node d.fs p with
      | none =>
          obtain ⟨d', changed', hrun, hdropped, hquiet⟩ := @ih d changed hrest
          refine ⟨d', changed', hrun, ⟨fun r => ?_, fun r c h => ?_, fun r hr => ?_,
            hdropped.written⟩, hquiet⟩
          · rw [hdropped.node]
            by_cases hr : r = p
            · subst hr
              simp [hat]
            · simp [hr]
          · obtain ⟨hown, hgone⟩ := hdropped.own r c h
            refine ⟨hown, fun hr => ?_⟩
            rcases List.mem_cons.mp hr with rfl | hr
            · exact hat
            · exact hgone hr
          · exact hdropped.kept r fun hmem => hr (List.mem_cons_of_mem _ hmem)
      | some n =>
          cases n with
          | dir => exact absurd hat (hfits p (List.mem_cons_self ..))
          | file c =>
              have hfits' : ∀ q ∈ rest, node (d.unlink p).fs q ≠ some .dir := by
                intro q hq
                rw [Disk.unlink, node_remove]
                split
                · exact fun h => nomatch h
                · exact hrest q hq
              obtain ⟨d', changed', hrun, hdropped, hquiet⟩ := @ih (d.unlink p) true hfits'
              refine ⟨d', changed', hrun, ⟨fun r => ?_, fun r c' h => ?_, fun r hr => ?_,
                hdropped.written⟩, fun hfalse => nomatch (hquiet hfalse).2⟩
              · rw [hdropped.node, Disk.unlink, node_remove]
                by_cases hr : r = p
                · simp [hr]
                · simp [hr]
              · obtain ⟨hown, hgone⟩ := hdropped.own r c' h
                obtain ⟨hne, hown⟩ := Option.ite_none_left_eq_some.mp hown
                refine ⟨hown, fun hr => ?_⟩
                rcases List.mem_cons.mp hr with heq | hr
                · exact absurd heq hne
                · have hnone := hgone hr
                  rwa [Disk.unlink, node_remove, if_neg hne] at hnone
              · rw [List.mem_cons, not_or] at hr
                exact (hdropped.kept r hr.2).trans (if_neg hr.1)

/-! ## An install -/

theorem mem_stalePaths {previous : List Entry} {desired : List (Path × Bytes)} {p : Path} :
    p ∈ stalePaths previous desired ↔
      (∃ e ∈ previous, e.path = p) ∧ p ∉ desired.map Prod.fst := by
  rw [stalePaths, List.mem_filter, List.mem_map, decide_eq_true_iff]

/-- The manifest is where it was after the files are copied and dropped. -/
theorem node_manifest_of_install {source : SourceTree} {d₁ d₂ : Disk}
    (hothers : ∀ e ∈ I.entries d.fs, e.path ≠ I.manifestPath) (hsafe : SafeInstall I d source)
    (hcopied : Copied source.files d d₁)
    (hdropped : Dropped (stalePaths (I.entries d.fs) source.files) d₁ d₂) :
    node d₂.fs I.manifestPath = node d.fs I.manifestPath := by
  have hsource : I.manifestPath ∉ source.files.map Prod.fst := by
    intro hmem
    obtain ⟨x, hx, heq⟩ := List.mem_map.mp hmem
    exact (hsafe.named x hx).1 heq
  have hstale : I.manifestPath ∉ stalePaths (I.entries d.fs) source.files := by
    intro hmem
    obtain ⟨⟨e, he, heq⟩, -⟩ := mem_stalePaths.mp hmem
    exact hothers e he heq
  rw [hdropped.node, if_neg hstale]
  rcases hcopied.elsewhere _ hsource with heq | ⟨⟨x, hx, hmem⟩, -⟩
  · exact heq
  · exact absurd hmem (hsafe.named x hx).2

/-- What the installer owns once the files are copied and dropped is a desired file. -/
theorem own_of_install (htracked : Tracked I d) {source : SourceTree} {d₁ d₂ : Disk}
    (hcopied : Copied source.files d d₁)
    (hdropped : Dropped (stalePaths (I.entries d.fs) source.files) d₁ d₂) {p : Path} {c : Bytes}
    (hown : d₂.own p = some c) :
    ∃ x ∈ source.files, x.1 = p ∧ hashFile c = hashFile x.2 ∧
      node d₂.fs p = some (.file c) ∧ d₂.written p = some c := by
  obtain ⟨hown, hgone⟩ := hdropped.own p c hown
  by_cases hsource : p ∈ source.files.map Prod.fst
  · obtain ⟨x, hx, rfl⟩ := List.mem_map.mp hsource
    have hstale : x.1 ∉ stalePaths (I.entries d.fs) source.files := fun hmem =>
      (mem_stalePaths.mp hmem).2 hsource
    rw [hdropped.node, if_neg hstale, hdropped.written]
    by_cases hsame : ∃ c', node d.fs x.1 = some (.file c') ∧ hashFile c' = hashFile x.2
    · obtain ⟨c', hnode, hhash⟩ := hsame
      obtain ⟨hnode₁, hown₁, hwritten₁⟩ := hcopied.kept x hx c' hnode hhash
      rw [hown₁] at hown
      obtain ⟨hfile, hwritten⟩ := htracked.own x.1 c hown
      rw [hnode] at hfile
      cases hfile
      exact ⟨x, hx, rfl, hhash, hnode₁, hwritten₁.trans hwritten⟩
    · obtain ⟨hnode₁, hown₁, hwritten₁⟩ := hcopied.copied x hx fun c' hnode hhash =>
        hsame ⟨c', hnode, hhash⟩
      rw [hown₁] at hown
      cases hown
      exact ⟨x, hx, rfl, rfl, hnode₁, hwritten₁⟩
  · -- what was listed and is not desired was dropped
    rw [(hcopied.record p hsource).1] at hown
    have hlisted := htracked.listed p c hown
    have hnone := hgone (mem_stalePaths.mpr ⟨⟨_, hlisted, rfl⟩, hsource⟩)
    rcases hcopied.elsewhere p hsource with heq | ⟨-, hdir⟩
    · rw [heq, (htracked.own p c hown).1] at hnone
      cases hnone
    · rw [hdir] at hnone
      cases hnone

/-- The user's files are spared while files are copied and dropped. -/
theorem spares_of_install {source : SourceTree} {d₁ d₂ : Disk} (hsafe : SafeInstall I d source)
    (hcopied : Copied source.files d d₁)
    (hdropped : Dropped (stalePaths (I.entries d.fs) source.files) d₁ d₂) : Spares I d d₂ := by
  intro p _ c hnode hwritten
  have hstale : p ∉ stalePaths (I.entries d.fs) source.files := by
    intro hmem
    obtain ⟨⟨e, he, rfl⟩, hsource⟩ := mem_stalePaths.mp hmem
    exact hwritten ((hsafe.stale e he hsource).2.2 c hnode)
  rw [hdropped.node, if_neg hstale]
  by_cases hsource : p ∈ source.files.map Prod.fst
  · obtain ⟨x, hx, rfl⟩ := List.mem_map.mp hsource
    by_cases hhash : hashFile c = hashFile x.2
    · exact (hcopied.kept x hx c hnode hhash).1
    · exact absurd (hsafe.desired x hx c hnode hhash) hwritten
  · rcases hcopied.elsewhere p hsource with heq | ⟨⟨x, hx, hmem⟩, -⟩
    · rw [heq, hnode]
    · exact absurd hnode ((hsafe.fits x hx).2 p hmem c)

/-- **An install keeps the invariant and spares the user's files**, where it meets none. -/
theorem copyAll_spec (htext : RoundTrips I.text) (htracked : Tracked I d) {source : SourceTree}
    (hsafe : SafeInstall I d source) (installedAt : String) :
    Tracked I (I.copyAll installedAt source.files false d).1 ∧
      Spares I d (I.copyAll installedAt source.files false d).1 := by
  obtain ⟨previous, hload, hentries, -⟩ := htracked.load htext
  obtain ⟨d₁, changed₁, hcopy, hcopied, hquiet₁⟩ := @copyFiles_spec d source.files false
    source.nodup source.tree hsafe.fits
  have hfits : ∀ p ∈ stalePaths (I.entries d.fs) source.files, node d₁.fs p ≠ some .dir := by
    intro p hp
    obtain ⟨⟨e, he, rfl⟩, hsource⟩ := mem_stalePaths.mp hp
    obtain ⟨hdir, hparents, -⟩ := hsafe.stale e he hsource
    rcases hcopied.elsewhere e.path hsource with heq | ⟨⟨x, hx, hmem⟩, -⟩
    · rw [heq]
      exact hdir
    · exact absurd hmem (hparents x hx)
  obtain ⟨d₂, changed₂, hstale, hdropped, hquiet₂⟩ := @removeStale_spec d₁ _ changed₁ hfits
  have hmanifest := node_manifest_of_install htracked.others hsafe hcopied hdropped
  have hspares := spares_of_install hsafe hcopied hdropped
  unfold Installer.copyAll
  rw [hload]
  dsimp only
  rw [hcopy]
  dsimp only
  rw [hentries, hstale]
  dsimp only
  split
  · next hunchanged =>
      -- nothing changed, so the directory is as it was
      rw [Bool.and_eq_true, Bool.not_eq_true', Bool.not_eq_true'] at hunchanged
      obtain ⟨rfl, rfl⟩ := hquiet₂ hunchanged.1
      obtain ⟨rfl, -⟩ := hquiet₁ rfl
      exact ⟨htracked, hspares⟩
  · have hwrite : I.writeManifest installedAt (entriesOf source.files) d₂ = some { d₂ with
        fs := put d₂.fs I.manifestPath
          (.file (I.text.dumps installedAt (entriesOf source.files))) } := by
      unfold Installer.writeManifest
      rw [hmanifest]
      rcases htracked.manifest with hnone | ⟨at', entries, hfile⟩
      · rw [hnone]
      · rw [hfile]
    simp only [Bool.false_eq_true, if_false, hwrite]
    have hnode := node_put d₂.fs I.manifestPath
      (.file (I.text.dumps installedAt (entriesOf source.files)))
    have hlist : I.entries (put d₂.fs I.manifestPath
        (.file (I.text.dumps installedAt (entriesOf source.files)))) = entriesOf source.files :=
      entries_of_dumps htext (by rw [hnode, if_pos rfl])
    have hne : ∀ x ∈ source.files, x.1 ≠ I.manifestPath := fun x hx => (hsafe.named x hx).1
    refine ⟨⟨.inr ⟨installedAt, _, by rw [hnode, if_pos rfl]⟩, ?_, ?_, ?_⟩, ?_⟩
    · intro e he
      rw [hlist] at he
      obtain ⟨x, hx, rfl⟩ := List.mem_map.mp he
      exact hne x hx
    · intro p c hown
      obtain ⟨x, hx, rfl, -, hfile, hwritten⟩ := own_of_install htracked hcopied hdropped hown
      refine ⟨?_, hwritten⟩
      rw [hnode, if_neg (hne x hx)]
      exact hfile
    · intro p c hown
      obtain ⟨x, hx, rfl, hhash, -, -⟩ := own_of_install htracked hcopied hdropped hown
      rw [hlist, hhash]
      exact List.mem_map.mpr ⟨x, hx, rfl⟩
    · intro p hp c hfile hwritten
      rw [hnode, if_neg hp]
      exact hspares p hp c hfile hwritten

/-! ## An uninstall -/

/-- Pruning takes away directories only. -/
theorem node_pruneEmptyDirs (qs : List Path) (fs : Fs) (r : Path) :
    node (pruneEmptyDirs qs fs) r = node fs r ∨
      node fs r = some .dir ∧ node (pruneEmptyDirs qs fs) r = none := by
  induction qs generalizing fs with
  | nil => exact .inl rfl
  | cons q qs ih =>
      unfold pruneEmptyDirs
      split
      · next hempty =>
          have hdir : node fs q = some .dir := by
            unfold emptyDir at hempty
            rw [Bool.and_eq_true, decide_eq_true_iff] at hempty
            exact hempty.1
          have hremoved := node_remove fs q r
          by_cases hr : r = q
          · subst hr
            rw [if_pos rfl] at hremoved
            rcases ih (remove fs r) with heq | ⟨hdir', -⟩
            · exact .inr ⟨hdir, heq.trans hremoved⟩
            · rw [hremoved] at hdir'
              cases hdir'
          · rw [if_neg hr] at hremoved
            rcases ih (remove fs q) with heq | ⟨hdir', hnone⟩
            · exact .inl (heq.trans hremoved)
            · exact .inr ⟨hremoved ▸ hdir', hnone⟩
      · exact .inl rfl

theorem file_pruneEmptyDirs (qs : List Path) (fs : Fs) (r : Path) (c : Bytes) :
    node (pruneEmptyDirs qs fs) r = some (.file c) ↔ node fs r = some (.file c) := by
  rcases node_pruneEmptyDirs qs fs r with heq | ⟨hdir, hnone⟩
  · rw [heq]
  · simp [hdir, hnone]

/-- What the removal of entries leaves: the files of other content. -/
structure Removed (entries : List Entry) (d d' : Disk) : Prop where
  files : ∀ r c, node d'.fs r = some (.file c) ↔
    node d.fs r = some (.file c) ∧ ∀ e ∈ entries, e.path = r → hashFile c ≠ e.sha256
  dirs : ∀ r, node d'.fs r = some .dir → node d.fs r = some .dir
  own : ∀ r c, d'.own r = some c → d.own r = some c ∧
    (node d.fs r = some (.file c) → ∀ e ∈ entries, e.path = r → hashFile c ≠ e.sha256)
  written : d'.written = d.written

/-- An entry whose file is not the one listed. -/
theorem Removed.cons_skipped {e : Entry} {rest : List Entry} (h : Removed rest d d')
    (hother : ∀ c, node d.fs e.path = some (.file c) → hashFile c ≠ e.sha256) :
    Removed (e :: rest) d d' where
  files := by
    intro r c
    rw [h.files]
    constructor
    · intro hr
      refine ⟨hr.1, fun e' he' heq => ?_⟩
      rcases List.mem_cons.mp he' with rfl | he'
      · subst heq
        exact hother c hr.1
      · exact hr.2 e' he' heq
    · intro hr
      exact ⟨hr.1, fun e' he' => hr.2 e' (List.mem_cons_of_mem _ he')⟩
  dirs := h.dirs
  own := by
    intro r c hown
    obtain ⟨hbefore, hrest⟩ := h.own r c hown
    refine ⟨hbefore, fun hfile e' he' heq => ?_⟩
    rcases List.mem_cons.mp he' with rfl | he'
    · subst heq
      exact hother c hfile
    · exact hrest hfile e' he' heq
  written := h.written

/-- An entry whose file is removed. -/
theorem Removed.cons_removed {e : Entry} {rest : List Entry} {c : Bytes} {qs : List Path}
    (h : Removed rest { d.unlink e.path with fs := pruneEmptyDirs qs (d.unlink e.path).fs } d')
    (hnode : node d.fs e.path = some (.file c)) (hhash : hashFile c = e.sha256) :
    Removed (e :: rest) d d' where
  files := by
    intro r c'
    rw [h.files, file_pruneEmptyDirs, Disk.unlink, node_remove]
    constructor
    · intro hr
      obtain ⟨hne, hfile⟩ := Option.ite_none_left_eq_some.mp hr.1
      refine ⟨hfile, fun e' he' heq => ?_⟩
      rcases List.mem_cons.mp he' with rfl | he'
      · exact absurd heq.symm hne
      · exact hr.2 e' he' heq
    · intro hr
      have hne : r ≠ e.path := by
        intro heq
        subst heq
        rw [hnode] at hr
        obtain ⟨hfile, hall⟩ := hr
        cases hfile
        exact hall e (List.mem_cons_self ..) rfl hhash
      rw [if_neg hne]
      exact ⟨hr.1, fun e' he' => hr.2 e' (List.mem_cons_of_mem _ he')⟩
  dirs := by
    intro r hdir
    have hbefore := h.dirs r hdir
    rcases node_pruneEmptyDirs qs (d.unlink e.path).fs r with heq | ⟨hdir', -⟩
    · rw [heq, Disk.unlink, node_remove] at hbefore
      exact (Option.ite_none_left_eq_some.mp hbefore).2
    · rw [Disk.unlink, node_remove] at hdir'
      exact (Option.ite_none_left_eq_some.mp hdir').2
  own := by
    intro r c' hown
    obtain ⟨hbefore, hrest⟩ := h.own r c' hown
    obtain ⟨hne, hbefore⟩ := Option.ite_none_left_eq_some.mp hbefore
    refine ⟨hbefore, fun hfile e' he' heq => ?_⟩
    rcases List.mem_cons.mp he' with rfl | he'
    · exact absurd heq.symm hne
    · refine hrest ?_ e' he' heq
      rw [file_pruneEmptyDirs, Disk.unlink, node_remove, if_neg hne]
      exact hfile
  written := h.written

/-- The removal loop does not raise where no directory has taken the place of a file. -/
theorem removeEntries_spec {entries : List Entry} {skipped : Bool}
    (hfits : ∀ e ∈ entries, node d.fs e.path ≠ some .dir) :
    ∃ d' skipped', removeEntries false entries d skipped = (d', some skipped') ∧
      Removed entries d d' := by
  induction entries generalizing d skipped with
  | nil =>
      refine ⟨d, skipped, rfl, ⟨fun r c => ?_, fun r h => h, fun r c h => ⟨h, ?_⟩, rfl⟩⟩
      · simp
      · exact fun _ e he => absurd he List.not_mem_nil
  | cons e rest ih =>
      have hrest : ∀ e' ∈ rest, node d.fs e'.path ≠ some .dir := fun e' he' =>
        hfits e' (List.mem_cons_of_mem _ he')
      unfold removeEntries
      cases hat : node d.fs e.path with
      | none =>
          obtain ⟨d', skipped', hrun, hremoved⟩ := @ih d skipped hrest
          refine ⟨d', skipped', hrun, hremoved.cons_skipped fun c hnode => ?_⟩
          rw [hat] at hnode
          cases hnode
      | some n =>
          cases n with
          | dir => exact absurd hat (hfits e (List.mem_cons_self ..))
          | file c =>
              dsimp only
              by_cases hhash : hashFile c = e.sha256
              · rw [if_neg (not_not.mpr hhash)]
                have hfits' : ∀ e' ∈ rest, node (pruneEmptyDirs (parents e.path).reverse
                    (d.unlink e.path).fs) e'.path ≠ some .dir := by
                  intro e' he' hdir
                  have hunlinked : node (d.unlink e.path).fs e'.path = some .dir := by
                    rcases node_pruneEmptyDirs (parents e.path).reverse (d.unlink e.path).fs
                      e'.path with heq | ⟨hdir', -⟩
                    · rwa [heq] at hdir
                    · exact hdir'
                  rw [Disk.unlink, node_remove] at hunlinked
                  exact hrest e' he' (Option.ite_none_left_eq_some.mp hunlinked).2
                obtain ⟨d', skipped', hrun, hremoved⟩ := @ih { d.unlink e.path with
                  fs := pruneEmptyDirs (parents e.path).reverse (d.unlink e.path).fs } skipped hfits'
                exact ⟨d', skipped', hrun, hremoved.cons_removed hat hhash⟩
              · rw [if_pos hhash]
                obtain ⟨d', skipped', hrun, hremoved⟩ := @ih d true hrest
                refine ⟨d', skipped', hrun, hremoved.cons_skipped fun c' hnode => ?_⟩
                rw [hat] at hnode
                cases hnode
                exact hhash

/-- **An uninstall takes away what the installer owns and spares the user's files**, where it
meets none. -/
theorem removeCopiedTree_spec (htext : RoundTrips I.text) (htracked : Tracked I d)
    (hsafe : ∀ e ∈ I.entries d.fs, node d.fs e.path ≠ some .dir ∧
      ∀ c, node d.fs e.path = some (.file c) → hashFile c = e.sha256 →
        d.written e.path = some c) :
    Tracked I (I.removeCopiedTree false d).1 ∧ Spares I d (I.removeCopiedTree false d).1 ∧
      ∀ p, (I.removeCopiedTree false d).1.own p = none := by
  obtain ⟨previous, hload, hentries, hunowned⟩ := htracked.load htext
  unfold Installer.removeCopiedTree
  rw [hload]
  cases previous with
  | none => exact ⟨htracked, fun p _ c hfile _ => hfile, hunowned rfl⟩
  | some entries =>
      obtain rfl : entries = I.entries d.fs := hentries
      obtain ⟨d', skipped, hrun, hremoved⟩ := @removeEntries_spec d _ false fun e he => (hsafe e he).1
      have hnone : ∀ p, d'.own p = none := by
        intro p
        cases hown : d'.own p with
        | none => rfl
        | some c =>
            obtain ⟨hbefore, hother⟩ := hremoved.own p c hown
            have hfile := (htracked.own p c hbefore).1
            exact absurd rfl (hother hfile _ (htracked.listed p c hbefore) rfl)
      have hspares : ∀ p c, node d.fs p = some (.file c) → d.written p ≠ some c →
          node d'.fs p = some (.file c) := by
        intro p c hfile hwritten
        refine (hremoved.files p c).mpr ⟨hfile, fun e he heq hhash => ?_⟩
        subst heq
        exact hwritten ((hsafe e he).2 c hfile hhash)
      dsimp only
      rw [hrun]
      cases skipped with
      | true =>
          -- the manifest stays as long as a file was skipped
          refine ⟨⟨?_, ?_, fun p c h => ?_, fun p c h => ?_⟩, fun p _ => hspares p, hnone⟩
          · rcases htracked.manifest with hmissing | ⟨installedAt, entries, hfile⟩
            · left
              cases hnode : node d'.fs I.manifestPath with
              | none => rfl
              | some n =>
                  cases n with
                  | dir =>
                      rw [hremoved.dirs _ hnode] at hmissing
                      cases hmissing
                  | file c =>
                      rw [((hremoved.files _ c).mp hnode).1] at hmissing
                      cases hmissing
            · refine .inr ⟨installedAt, entries, (hremoved.files _ _).mpr ⟨hfile, ?_⟩⟩
              exact fun e he heq => absurd heq (htracked.others e he)
          · rcases htracked.manifest with hmissing | ⟨installedAt, entries, hfile⟩
            · simp [Installer.loadManifest, hmissing] at hload
            · have hkept : node d'.fs I.manifestPath = node d.fs I.manifestPath := by
                rw [hfile]
                refine (hremoved.files _ _).mpr ⟨hfile, ?_⟩
                exact fun e he heq => absurd heq (htracked.others e he)
              rw [entries_congr hkept]
              exact htracked.others
          · rw [hnone p] at h
            cases h
          · rw [hnone p] at h
            cases h
      | false =>
          simp only [Bool.false_eq_true, if_false]
          have hgone : node (remove d'.fs I.manifestPath) I.manifestPath = none := by
            rw [node_remove, if_pos rfl]
          refine ⟨⟨.inl hgone, fun e he => ?_, fun p c h => ?_, fun p c h => ?_⟩,
            fun p hp c hfile hwritten => ?_, hnone⟩
          · rw [entries_of_none hgone] at he
            cases he
          · rw [hnone p] at h
            cases h
          · rw [hnone p] at h
            cases h
          · rw [node_remove, if_neg hp]
            exact hspares p c hfile hwritten

/-! ## Runs keep the promise -/

/-- A dry run changes nothing. -/
theorem copyFiles_dry (desired : List (Path × Bytes)) (d : Disk) (changed : Bool) :
    (copyFiles true desired d changed).1 = d := by
  induction desired generalizing changed with
  | nil => rfl
  | cons x rest ih =>
      obtain ⟨p, c⟩ := x
      unfold copyFiles
      simp only [if_true]
      split
      · rfl
      · split
        · exact ih changed
        · exact ih true
      · exact ih true

theorem removeStale_dry (paths : List Path) (d : Disk) (changed : Bool) :
    (removeStale true paths d changed).1 = d := by
  induction paths generalizing changed with
  | nil => rfl
  | cons p rest ih =>
      unfold removeStale
      simp only [if_true]
      split
      · exact ih changed
      · exact ih true

theorem removeEntries_dry (entries : List Entry) (d : Disk) (skipped : Bool) :
    (removeEntries true entries d skipped).1 = d := by
  induction entries generalizing skipped with
  | nil => rfl
  | cons e rest ih =>
      unfold removeEntries
      simp only [if_true]
      split
      · exact ih skipped
      · rfl
      · split
        · exact ih true
        · exact ih skipped

theorem copyAll_dry (installedAt : String) (desired : List (Path × Bytes)) (d : Disk) :
    (I.copyAll installedAt desired true d).1 = d := by
  unfold Installer.copyAll
  split
  · rfl
  · next previous _ =>
    have hcopy := copyFiles_dry desired d false
    split
    · next hrun =>
        rw [hrun] at hcopy
        exact hcopy
    · next d₁ changed hrun =>
        rw [hrun] at hcopy
        obtain rfl : d₁ = d := hcopy
        have hstale := removeStale_dry (stalePaths (previous.getD []) desired) d₁ changed
        split
        · next hrun =>
            rw [hrun] at hstale
            exact hstale
        · next d₂ changed hrun =>
            rw [hrun] at hstale
            obtain rfl : d₂ = d₁ := hstale
            dsimp only
            split
            · rfl
            · rfl

theorem removeCopiedTree_dry (d : Disk) : (I.removeCopiedTree true d).1 = d := by
  unfold Installer.removeCopiedTree
  split
  · rfl
  · rfl
  · next entries _ =>
      have hremove := removeEntries_dry entries d false
      split
      · next hrun =>
          rw [hrun] at hremove
          exact hremove
      · next hrun =>
          rw [hrun] at hremove
          exact hremove
      · next hrun =>
          rw [hrun] at hremove
          exact hremove

/-- **One step** that is safe keeps the invariant and the promise. -/
theorem step_spec (htext : RoundTrips I.text) (htracked : Tracked I d) {step : Step}
    (hsafe : Safe I d step) : Tracked I (I.step d step) ∧ Promise I d step (I.step d step) := by
  cases step with
  | user fs => exact ⟨htracked.edit hsafe, trivial⟩
  | install installedAt source dryRun =>
      cases dryRun with
      | true =>
          have hsame := copyAll_dry (I := I) installedAt source.files d
          unfold Promise Installer.step
          simp only [hsame]
          exact ⟨htracked, fun p _ c hfile _ => hfile⟩
      | false => exact copyAll_spec htext htracked (hsafe rfl) installedAt
  | uninstall dryRun =>
      cases dryRun with
      | true =>
          have hsame := removeCopiedTree_dry (I := I) d
          unfold Promise Installer.step
          simp only [hsame]
          exact ⟨htracked, fun p _ c hfile _ => hfile, fun h => nomatch h⟩
      | false =>
          obtain ⟨htracked', hspares, hnone⟩ := removeCopiedTree_spec htext htracked (hsafe rfl)
          exact ⟨htracked', hspares, fun _ => hnone⟩

/-- **The installer never destroys user data**, in runs whose steps are safe: each step of the
installer leaves the files alone whose content is not what it last wrote there, and an
uninstall leaves nothing that it wrote and nobody touched. -/
theorem run_promise (htext : RoundTrips I.text) {fs : Fs} (hfresh : node fs I.manifestPath = none)
    {steps : List Step}
    (hsafe : ∀ n step, steps[n]? = some step → Safe I (I.run (fresh fs) (steps.take n)) step)
    {n : Nat} {step : Step} (hn : steps[n]? = some step) :
    Promise I (I.run (fresh fs) (steps.take n)) step (I.run (fresh fs) (steps.take (n + 1))) := by
  have htracked : Tracked I (I.run (fresh fs) (steps.take n)) :=
    run_invariant_of (tracked_fresh hfresh)
      (fun d step htracked hok => (step_spec htext htracked hok).1) hsafe n
  have hnext : I.run (fresh fs) (steps.take (n + 1)) =
      I.step (I.run (fresh fs) (steps.take n)) step := foldl_take_succ I.step _ hn
  rw [hnext]
  exact (step_spec htext htracked (hsafe n step hn)).2

/-! ## A run that is safe, and one that is not -/

/-- The installer of the samples. -/
def sampleInstaller : Installer := ⟨jsonText, ".cq-install-manifest.json"⟩

/-- A source of one file. -/
def sampleSource (content : Bytes) : SourceTree where
  files := [("SKILL.md", content)]
  nodup := List.nodup_singleton _
  tree := by
    intro x hx y hy
    rw [List.mem_singleton.mp hx, List.mem_singleton.mp hy]
    exact not_mem_parents _

/-- The manifest of that source's first version. -/
def sampleManifest : Bytes := jsonText.dumps "2026-01-01T00:00:00Z" [⟨"SKILL.md", hashFile [1]⟩]

/-- The directory after the first version is installed in an empty one. -/
def sampleInstalled : Fs :=
  put (put Table.empty "SKILL.md" (.file [1])) ".cq-install-manifest.json" (.file sampleManifest)

/-- The skill is installed, the user adds a file of their own beside it, and the skill is
uninstalled. -/
def sampleSteps : List Step :=
  [.install "2026-01-01T00:00:00Z" (sampleSource [1]) false,
    .user (put sampleInstalled "notes.md" (.file [2])), .uninstall false]

theorem sampleSteps_safe (n : Nat) (step : Step) (hn : sampleSteps[n]? = some step) :
    Safe sampleInstaller (sampleInstaller.run (fresh Table.empty) (sampleSteps.take n)) step := by
  match n with
  | 0 =>
      obtain rfl := Option.some.inj hn
      intro _
      refine ⟨fun x hx => ?_, fun x hx => ?_, fun x hx c hfile => ?_, fun e he => ?_⟩
      · rw [List.mem_singleton.mp hx]
        decide
      · exact ⟨fun h => (nomatch h), fun q _ c h => (nomatch h)⟩
      · cases hfile
      · cases he
  | 1 =>
      obtain rfl := Option.some.inj hn
      show node _ _ = node _ _
      rw [node_put]
      rfl
  | 2 =>
      obtain rfl := Option.some.inj hn
      intro _ e he
      have hmanifest : node (sampleInstaller.run (fresh Table.empty) (sampleSteps.take 2)).fs
          sampleInstaller.manifestPath = some (.file sampleManifest) := rfl
      rw [entries_of_dumps roundTrips_jsonText hmanifest] at he
      obtain rfl := List.mem_singleton.mp he
      have hnode : node (sampleInstaller.run (fresh Table.empty) (sampleSteps.take 2)).fs
          "SKILL.md" = some (.file [1]) := rfl
      have hwritten : (sampleInstaller.run (fresh Table.empty) (sampleSteps.take 2)).written
          "SKILL.md" = some [1] := rfl
      refine ⟨?_, fun c hfile _ => ?_⟩
      · rw [hnode]
        exact fun h => nomatch h
      · rw [hnode] at hfile
        cases hfile
        exact hwritten
  | n + 3 => cases hn

/-- The uninstall of the sample run. -/
theorem run_promise_sample :
    Promise sampleInstaller (sampleInstaller.run (fresh Table.empty) (sampleSteps.take 2))
      (.uninstall false) (sampleInstaller.run (fresh Table.empty) (sampleSteps.take 3)) :=
  run_promise roundTrips_jsonText rfl sampleSteps_safe rfl

/-- The skill is installed, the user edits it, and a new version is installed. -/
def sampleOverwrite : List Step :=
  [.install "2026-01-01T00:00:00Z" (sampleSource [1]) false,
    .user (put sampleInstalled "SKILL.md" (.file [2])),
    .install "2026-01-02T00:00:00Z" (sampleSource [3]) false]

/-- Installing the new version over an edited skill takes no account of the edit. -/
theorem install_overwrites {d : Disk}
    (hmanifest : node d.fs sampleInstaller.manifestPath = some (.file sampleManifest))
    (hedited : node d.fs "SKILL.md" = some (.file [2])) :
    node (sampleInstaller.step d (.install "2026-01-02T00:00:00Z" (sampleSource [3]) false)).fs
      "SKILL.md" = some (.file [3]) := by
  have hload : sampleInstaller.loadManifest d.fs = some (some [⟨"SKILL.md", hashFile [1]⟩]) :=
    loadManifest_of_dumps roundTrips_jsonText hmanifest
  have hother : hashFile [2] ≠ hashFile [3] := by decide +kernel
  have hparents : ∀ q ∈ parents "SKILL.md", ∀ c, node d.fs q ≠ some (.file c) := by
    intro q hq
    have hnone : parents "SKILL.md" = [] := rfl
    rw [hnone] at hq
    cases hq
  obtain ⟨d', hwrite, hnode, -, -⟩ := write_spec [3] hparents
  have hkept : node d'.fs sampleInstaller.manifestPath = some (.file sampleManifest) := by
    rw [hnode, if_neg (by decide), if_neg (by decide)]
    exact hmanifest
  have hstale : stalePaths [⟨"SKILL.md", hashFile [1]⟩] [("SKILL.md", [3])] = [] := rfl
  simp only [Installer.step, sampleSource]
  unfold Installer.copyAll copyFiles
  simp only [hload, hedited, if_neg hother, hwrite, copyFiles, Option.getD_some, hstale, removeStale,
    Installer.writeManifest, hkept, Bool.false_eq_true, if_false, Bool.not_true, Bool.false_and]
  rw [node_put, if_neg (by decide), hnode, if_pos rfl]

/-- The edited skill is not what the installer last wrote there, and is overwritten. -/
theorem sampleOverwrite_destroys :
    node (sampleInstaller.run (fresh Table.empty) (sampleOverwrite.take 2)).fs "SKILL.md" =
        some (.file [2]) ∧
      (sampleInstaller.run (fresh Table.empty) (sampleOverwrite.take 2)).written "SKILL.md" =
        some [1] ∧
      node (sampleInstaller.run (fresh Table.empty) (sampleOverwrite.take 3)).fs "SKILL.md" =
        some (.file [3]) := by
  have hedited : node (sampleInstaller.run (fresh Table.empty) (sampleOverwrite.take 2)).fs
      "SKILL.md" = some (.file [2]) := rfl
  have hwritten : (sampleInstaller.run (fresh Table.empty) (sampleOverwrite.take 2)).written
      "SKILL.md" = some [1] := rfl
  have hmanifest : node (sampleInstaller.run (fresh Table.empty) (sampleOverwrite.take 2)).fs
      sampleInstaller.manifestPath = some (.file sampleManifest) := rfl
  have hlast : sampleInstaller.run (fresh Table.empty) (sampleOverwrite.take 3) =
      sampleInstaller.step (sampleInstaller.run (fresh Table.empty) (sampleOverwrite.take 2))
        (.install "2026-01-02T00:00:00Z" (sampleSource [3]) false) :=
    foldl_take_succ sampleInstaller.step _ rfl
  refine ⟨hedited, hwritten, ?_⟩
  rw [hlast]
  exact install_overwrites hmanifest hedited

end EighthLayer.Install
