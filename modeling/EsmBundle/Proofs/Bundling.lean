import EsmBundle.Proofs.FilledDirectory
import EsmBundle.Proofs.ToolRun

/-!
What bundling comes to, and what it does to the files around it.

The tool works in a private directory that is new. What is read back is then what the directory
holds, and after the directory is removed all other files are as before, save those that the tool
put outside.

* `Tool.bundle_of_openScratch` — the result and the files when the directory could be made.
* `collect_eq_ok`, `mapM_ofFile_append` — reading back gives texts, up to the first file that
  is none.
* `Tool.bundle_eq_ok` — what a bundling that succeeds leaves.
* `FillsDirectory.closeScratch_spec` — the files around the directory.
-/

namespace EsmBundle

variable {files opened filled left : FileSystem} {scratch destination : String}
  {emitted : List (String × Bytes)} {tool : Tool} {request : BundleRequest}
  {processes : Processes} {artifacts : List Artifact}

/-! ### The stages of bundling -/

/-- The removal of a private directory fails exactly when that has too many levels, and then it
stays. -/
theorem FileSystem.closeScratch_eq (fs : FileSystem) (path : String) :
    fs.closeScratch path =
      if (fs.held path).depth > Bounds.removedLevels then (.error ⟨.tooDeep, path⟩, fs)
      else (.ok (), { fs with tree := fs.tree.prune (fs.scratchLocation path) }) := rfl

theorem FileSystem.closeScratch_eq_ok_iff {fs left : FileSystem} {path : String} :
    fs.closeScratch path = (.ok (), left) ↔
      (fs.held path).depth ≤ Bounds.removedLevels ∧
        left = { fs with tree := fs.tree.prune (fs.scratchLocation path) } := by
  rw [closeScratch_eq]
  split
  · rename_i deep
    simp [Nat.not_le.mpr deep]
  · rename_i shallow
    simp [Nat.not_lt.mp shallow, eq_comm]

/-- Without a private directory nothing is run. -/
theorem Tool.bundle_of_openScratch_error {error : PathError}
    (failed : files.openScratch scratch = .error error) :
    tool.bundle scratch request files processes =
      ⟨.error (.scratch error), files, processes⟩ := by
  rw [bundle, failed]

/-- **With a private directory** the run decides the result, unless the directory cannot be removed;
and the files are those that are left of the filled directory. -/
theorem Tool.bundle_of_openScratch (tool : Tool) (request : BundleRequest) (processes : Processes)
    (isOpen : files.openScratch scratch = .ok opened) :
    let filled := opened.fillScratch scratch processes.next.emitted
    (tool.bundle scratch request files processes).result =
        (if (filled.held scratch).depth > Bounds.removedLevels then
          .error (.scratch ⟨.tooDeep, scratch⟩)
        else
          match (tool.run (request.arguments scratch) processes).1 with
          | .error error => .error (.ofRun error)
          | .ok _ => collect scratch request.destination filled) ∧
      (tool.bundle scratch request files processes).files = (filled.closeScratch scratch).2 := by
  intro filled
  have closed := filled.closeScratch_eq scratch
  rw [bundle, isOpen]
  dsimp only
  split at closed
  · rw [if_pos ‹_›, closed]
    exact ⟨rfl, rfl⟩
  · rw [if_neg ‹_›, closed]
    exact ⟨rfl, rfl⟩

/-! ### Reading back -/

/-- The text of an emitted file that is one. -/
def decodedText (contents : Bytes) : String :=
  match Utf8.decode contents with
  | .ok cs => String.ofList (unifyLineBreaks cs)
  | .error _ => ""

/-- A file with a path that is not too long gives an artifact exactly when it is a text. -/
theorem Artifact.ofFile_eq {file : String × Bytes}
    (short : isLongPath (Path.join scratch file.1) = false) :
    Artifact.ofFile scratch destination file =
      match Utf8.decode file.2 with
      | .ok _ => .ok ⟨Path.join destination file.1, decodedText file.2⟩
      | .error error => .error (.encoding error) := by
  rw [ofFile, short, if_neg Bool.false_ne_true, decodedText]
  cases Utf8.decode file.2 <;> rfl

/-- Files are read up to the first that is no text. -/
theorem mapM_ofFile_append {before : List (String × Bytes)}
    (readable : ∀ file ∈ before, isLongPath (Path.join scratch file.1) = false ∧
      ∃ cs, Utf8.decode file.2 = .ok cs) (after : List (String × Bytes)) :
    (before ++ after).mapM (Artifact.ofFile scratch destination) =
      (after.mapM (Artifact.ofFile scratch destination)).map fun artifacts =>
        (before.map fun file => ⟨Path.join destination file.1, decodedText file.2⟩) ++
          artifacts := by
  induction before with
  | nil =>
    rw [List.nil_append]
    cases after.mapM (Artifact.ofFile scratch destination) <;> rfl
  | cons file rest ih =>
    obtain ⟨⟨short, cs, decoded⟩, others⟩ := List.forall_mem_cons.mp readable
    rw [List.cons_append, List.mapM_cons, Artifact.ofFile_eq short, decoded, ok_bind, ih others]
    cases after.mapM (Artifact.ofFile scratch destination) <;> rfl

/-- Reading back succeeds only when every listed file is a text, and gives these texts. -/
theorem collect_eq_ok (collected : collect scratch destination filled = .ok artifacts) :
    (∀ file ∈ filled.listing scratch, ∃ cs, Utf8.decode file.2 = .ok cs) ∧
      artifacts = (filled.listing scratch).map fun file =>
        ⟨Path.join destination file.1, decodedText file.2⟩ := by
  unfold collect at collected
  split at collected
  · cases collected
  · generalize filled.listing scratch = listing at collected ⊢
    induction listing generalizing artifacts with
    | nil =>
      obtain rfl := Except.ok.inj collected
      simp
    | cons file rest ih =>
      rw [List.mapM_cons] at collected
      obtain ⟨artifact, first, collected⟩ := exists_of_bind_eq_ok collected
      obtain ⟨others, later, collected⟩ := exists_of_bind_eq_ok collected
      obtain rfl := Except.ok.inj collected
      obtain ⟨decodable, rfl⟩ := ih later
      have short : isLongPath (Path.join scratch file.1) = false := by
        unfold Artifact.ofFile at first
        dsimp only at first
        split at first
        · cases first
        · rename_i notLong
          exact Bool.eq_false_iff.mpr notLong
      rw [Artifact.ofFile_eq short] at first
      split at first
      · rename_i cs decoded
        obtain rfl := Except.ok.inj first
        exact ⟨List.forall_mem_cons.mpr ⟨⟨cs, decoded⟩, decodable⟩, rfl⟩
      · cases first

/-- **A bundling that succeeds** opened, filled and removed the private directory, and its artifacts
are the texts that the directory held. -/
theorem Tool.bundle_eq_ok
    (bundled : (tool.bundle scratch request files processes).result = .ok artifacts) :
    ∃ opened filled, files.openScratch scratch = .ok opened ∧
      opened.fillScratch scratch processes.next.emitted = filled ∧
      filled.closeScratch scratch =
        (.ok (), (tool.bundle scratch request files processes).files) ∧
      collect scratch request.destination filled = .ok artifacts := by
  cases isOpen : files.openScratch scratch with
  | error error =>
    rw [bundle_of_openScratch_error isOpen] at bundled
    cases bundled
  | ok opened =>
    obtain ⟨result, left⟩ := bundle_of_openScratch tool request processes isOpen
    rw [result] at bundled
    split at bundled
    · cases bundled
    · rename_i shallow
      refine ⟨opened, _, rfl, rfl, ?_, ?_⟩
      · rw [left, FileSystem.closeScratch_eq, if_neg shallow]
      · split at bundled
        · cases bundled
        · exact bundled

/-! ### Around the private directory -/

/-- **Around the private directory** all files are as before, save those that were emitted
outside. -/
theorem FillsDirectory.closeScratch_spec (fills : FillsDirectory files scratch emitted filled)
    (closed : filled.closeScratch scratch = (.ok (), left)) :
    FileSystem.Grows files left ∧
      ∀ location, (∀ file ∈ emitted, files.emissionTarget scratch file = some location →
          files.scratchLocation scratch <+: location) →
        left.tree.fileAt location = files.tree.fileAt location := by
  obtain ⟨-, rfl⟩ := FileSystem.closeScratch_eq_ok_iff.mp closed
  have grows := fills.grows
  have vacant {location : Location}
      (below : (files.scratchLocation scratch).isPrefixOf location = true) :
      files.tree.get? location = none := by
    obtain ⟨names, rfl⟩ := List.isPrefixOf_iff_prefix.mp below
    exact fills.isNew.vacant names
  rw [fills.scratchLocation_eq]
  constructor
  · refine ⟨grows.cwd, grows.temporary, ?_⟩
    intro location found
    by_cases root : location = []
    · subst root
      rfl
    · rw [FileTree.get?_prune root, if_neg, grows.directories location found]
      intro below
      rw [vacant below] at found
      cases found
  · intro location inside
    rw [FileTree.fileAt_prune]
    split
    · rename_i below
      rw [FileTree.fileAt, vacant below]
    · rename_i apart
      obtain ⟨made, begins, makes⟩ := fills.makes
      refine (makes.files location).trans (lastValue_of_forall_ne ?_)
      intro file mem target
      exact apart (List.isPrefixOf_iff_prefix.mpr (inside file (begins.subset mem) target))

end EsmBundle
