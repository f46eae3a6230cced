import EsmBundle.Proofs.BuildOutput
import EsmBundle.Proofs.PrivateDirectory

/-!
What a build leaves behind whose writing fails.

The artifacts are written in the order of their paths, up to the first that cannot be written.
Those before it are complete, it and those behind it are not touched, and besides there may be
new directories, on the way to one of the artifacts up to it.

* `get?_writeArtifacts` — every entry after artifacts were written.
* `writeArtifacts_of_failed`, `get?_of_failed` — the loop that fails, and every entry after it.
* `build_of_failed_write` — the state after a build that fails in writing.
-/

namespace EsmBundle

variable {files middle ready : FileSystem} {done rest artifacts : List Artifact}
  {failing : Artifact} {error : PathError} {location : Location}

/-! ### The loop over the artifacts -/

/-- A place where one of the artifacts goes. -/
def FileSystem.IsTarget (files : FileSystem) (artifacts : List Artifact) (location : Location) :
    Prop :=
  ∃ artifact ∈ artifacts, location = files.target artifact.path

/-- A place of a directory that an artifact is to be below. -/
def FileSystem.IsAncestor (files : FileSystem) (artifacts : List Artifact) (location : Location) :
    Prop :=
  ∃ artifact ∈ artifacts, files.OnWay (Path.directoryOf artifact.path) location

/-- What leads to artifacts leads to more of them. -/
theorem FileSystem.IsAncestor.mono {more : List Artifact}
    (isAncestor : files.IsAncestor artifacts location) (subset : artifacts ⊆ more) :
    files.IsAncestor more location := by
  obtain ⟨artifact, mem, onWay⟩ := isAncestor
  exact ⟨artifact, subset mem, onWay⟩

/-- **After artifacts were written** an entry is where one of them goes, or as before, or it is a
new directory on the way to one of them. -/
theorem get?_writeArtifacts (written : writeArtifacts files artifacts = (.ok (), middle))
    (location : Location) :
    files.IsTarget artifacts location ∨
      middle.tree.get? location = files.tree.get? location ∨
      files.tree.get? location = none ∧ middle.tree.get? location = some .directory ∧
        files.IsAncestor artifacts location := by
  induction artifacts generalizing files with
  | nil =>
    obtain rfl := (Prod.mk.inj written).2
    exact Or.inr (Or.inl rfl)
  | cons artifact others ih =>
    rw [writeArtifacts] at written
    split at written
    · cases (Prod.mk.inj written).1
    · rename_i between first
      have grows := (FileSystem.writeBelow_spec first).toGrows
      have here := FileSystem.get?_writeBelow first location
      rcases ih written with ⟨other, mem, same⟩ | same | ⟨vacant, made, other, mem, onWay⟩
      · exact Or.inl ⟨other, List.mem_cons_of_mem _ mem, by rw [same, grows.target_eq]⟩
      · rcases here with ⟨target, -⟩ | before | ⟨vacant, made, onWay⟩
        · exact Or.inl ⟨artifact, List.mem_cons_self, target⟩
        · exact Or.inr (Or.inl (same.trans before))
        · exact Or.inr (Or.inr ⟨vacant, same.trans made, artifact, List.mem_cons_self, onWay⟩)
      · rcases here with ⟨target, -⟩ | before | ⟨-, already, -⟩
        · exact Or.inl ⟨artifact, List.mem_cons_self, target⟩
        · rw [before] at vacant
          exact Or.inr (Or.inr ⟨vacant, made, other, List.mem_cons_of_mem _ mem,
            (grows.onWay_iff _ _).mp onWay⟩)
        · rw [already] at vacant
          cases vacant

/-- What is written in one go can be written in two. -/
theorem writeArtifacts_append (written : writeArtifacts files done = (.ok (), middle))
    (rest : List Artifact) : writeArtifacts files (done ++ rest) = writeArtifacts middle rest := by
  induction done generalizing files with
  | nil =>
    obtain rfl := (Prod.mk.inj written).2
    rfl
  | cons artifact others ih =>
    rw [List.cons_append, writeArtifacts]
    rw [writeArtifacts] at written
    split at written
    · cases (Prod.mk.inj written).1
    · exact ih written

/-- **The loop ends with the first artifact that cannot be written.** -/
theorem writeArtifacts_of_failed (written : writeArtifacts files done = (.ok (), middle))
    (fails : (middle.writeText failing.path failing.text).1 = .error error)
    (rest : List Artifact) :
    writeArtifacts files (done ++ failing :: rest) =
      (.error error, (middle.writeText failing.path failing.text).2) := by
  rw [writeArtifacts_append written, writeArtifacts]
  cases attempt : middle.writeText failing.path failing.text with
  | mk outcome after =>
    rw [attempt] at fails
    obtain rfl : outcome = .error error := fails
    rfl

/-- An artifact that cannot be written leaves new directories on the way to it. -/
theorem makesOnWay_of_failed
    (fails : (middle.writeText failing.path failing.text).1 = .error error) :
    FileSystem.MakesOnWay middle (Path.directoryOf failing.path)
      (middle.writeText failing.path failing.text).2 := by
  cases attempt : middle.writeText failing.path failing.text with
  | mk outcome after =>
    rw [attempt] at fails
    obtain rfl : outcome = .error error := fails
    exact FileSystem.writeBelow_eq_error attempt

/-- **After the loop failed** an entry is where one of the written artifacts goes, or as before,
or it is a new directory on the way to one of the artifacts up to the failing one. -/
theorem get?_of_failed (written : writeArtifacts files done = (.ok (), middle))
    (fails : (middle.writeText failing.path failing.text).1 = .error error) (location : Location) :
    files.IsTarget done location ∨
      (middle.writeText failing.path failing.text).2.tree.get? location =
        files.tree.get? location ∨
      files.tree.get? location = none ∧
        (middle.writeText failing.path failing.text).2.tree.get? location = some .directory ∧
        files.IsAncestor (done ++ [failing]) location := by
  have subset : done ⊆ done ++ [failing] := List.subset_append_left done [failing]
  have grows := (writeArtifacts_spec written).1
  rcases get?_writeArtifacts written location with
    isTarget | same | ⟨vacant, made, isAncestor⟩
  · exact Or.inl isTarget
  · refine Or.inr ?_
    rw [← same]
    refine ((makesOnWay_of_failed fails).made location).imp_right ?_
    rintro ⟨vacant, made, onWay⟩
    exact ⟨vacant, made, failing, by simp, (grows.onWay_iff _ _).mp onWay⟩
  · have kept := (makesOnWay_of_failed fails).toGrows.directories location made
    exact Or.inr (Or.inr ⟨vacant, kept, isAncestor.mono subset⟩)

/-- The artifacts that were written before can be read in full. -/
theorem read_of_failed (written : writeArtifacts files done = (.ok (), middle))
    (apart : done.Pairwise fun a b => files.target a.path ≠ files.target b.path)
    (fails : (middle.writeText failing.path failing.text).1 = .error error)
    {artifact : Artifact} (mem : artifact ∈ done) :
    (middle.writeText failing.path failing.text).2.read artifact.path =
      .ok (Utf8.encode artifact.text.toList) := by
  have makes := makesOnWay_of_failed fails
  have stat := stat_of_writeArtifacts written apart mem
  obtain ⟨-, walked, -⟩ := FileSystem.stat_eq_ok_file_iff.mp stat
  have file := FileTree.fileAt_eq_some_iff.mpr (FileTree.walk_eq_ok walked).2
  rw [← makes.files] at file
  exact FileSystem.read_eq_ok_of_stat (makes.toGrows.stat_eq_ok stat file)

/-! ### A build that fails in writing -/

/-- What a build leaves that wrote some artifacts and could not write the next. The written ones
can be read in full, no file was created or changed where the others go, and otherwise there are
at most new directories on the way to one of the written artifacts or the failing one. -/
structure IsPartialOutput (before after : FileSystem) (excepted : Location → Prop)
    (done : List Artifact) (failing : Artifact) (rest : List Artifact) : Prop where
  complete : ∀ artifact ∈ done,
    after.read artifact.path = .ok (Utf8.encode artifact.text.toList)
  untouched : ∀ location, ¬ excepted location → before.IsTarget (failing :: rest) location →
    after.tree.fileAt location = before.tree.fileAt location
  changes : ∀ location, ¬ excepted location →
    before.IsTarget done location ∨
      after.tree.get? location = before.tree.get? location ∨
      before.tree.get? location = none ∧ after.tree.get? location = some .directory ∧
        before.IsAncestor (done ++ [failing]) location

/-- **The state after a failed write.** Let the artifact behind some others be the first that
cannot be written. The build fails with just that error. The artifacts, in the order of their
paths, are what the private directory held, finished, and those others are the output; everything
else is as before, save where the tool went outside its private directory. -/
theorem build_of_failed_write {loader bundler : Tool} {scratch : String} {options : BuildOptions}
    {start stop : Reading} {processes : Processes}
    (isNew : IsNewDirectory files scratch) (isPrivate : IsPrivateDirectory files scratch)
    (prepares : Prepares loader (bundler.bundle scratch) options.resolved files processes
      (done ++ failing :: rest) ready)
    (written : writeArtifacts ready done = (.ok (), middle))
    (fails : (middle.writeText failing.path failing.text).1 = .error error) :
    let emitted := (processesForBundle loader options.resolved processes).next.emitted
    let report := build loader (bundler.bundle scratch) options.resolved start stop files processes
    report.result = .error (.write error) ∧
      (∃ mappings opened filled listing,
        IsBuildMap loader options.resolved processes mappings ∧
        files.openScratch scratch = .ok opened ∧
        opened.fillScratch scratch emitted = filled ∧
        IsListing filled.tree (files.scratchLocation scratch) listing ∧
        done ++ failing :: rest = listing.map
          (Artifact.finished options.outputRoot options.resolved.replace mappings)) ∧
      IsPartialOutput files report.files (files.IsStray scratch emitted) done failing rest := by
  intro emitted report
  obtain ⟨mappings, opened, filled, isMap, isOpen, filling, closed, -, whole⟩ :=
    prepares_bundle prepares
  have fills : FillsDirectory files scratch emitted filled := ⟨isNew, opened, isOpen, filling⟩
  have grows : FileSystem.Grows files ready := (fills.closeScratch_spec closed).1
  have targets (text : String) : ready.target text = files.target text := grows.target_eq text
  have kept {location : Location} (notStray : ¬ files.IsStray scratch emitted location) :
      ready.tree.get? location = files.tree.get? location := by
    obtain ⟨mappings, texts, after, isMap, bundled, -⟩ := prepares
    have same : (bundler.bundle scratch (.ofOptions options.resolved mappings) files
        (processesForBundle loader options.resolved processes)).files.tree.get? location =
          files.tree.get? location :=
      Tool.get?_bundle isPrivate notStray fun _ path deep => by
        rw [bundled] at deep
        cases deep
    rwa [bundled] at same
  -- The loop, and what it leaves.
  obtain ⟨ends, filesAfter⟩ := build_of_prepares start stop prepares
  rw [writeArtifacts_of_failed written fails rest] at ends filesAfter
  dsimp only at ends filesAfter
  have apart : (done ++ failing :: rest).Pairwise fun a b =>
      ready.target a.path ≠ ready.target b.path := by
    rw [whole]
    exact List.pairwise_map.mpr (fills.target_join_listing ready options.outputRoot)
  obtain ⟨apartDone, -, apartRest⟩ := List.pairwise_append.mp apart
  have changes (location : Location) (notStray : ¬ files.IsStray scratch emitted location) :
      files.IsTarget done location ∨
        report.files.tree.get? location = files.tree.get? location ∨
        files.tree.get? location = none ∧ report.files.tree.get? location = some .directory ∧
          files.IsAncestor (done ++ [failing]) location := by
    rw [filesAfter, ← kept notStray]
    rcases get?_of_failed written fails location with
      ⟨artifact, mem, same⟩ | same | ⟨vacant, made, artifact, mem, onWay⟩
    · exact Or.inl ⟨artifact, mem, same.trans (targets artifact.path)⟩
    · exact Or.inr (Or.inl same)
    · exact Or.inr (Or.inr ⟨vacant, made, artifact, mem, (grows.onWay_iff _ _).mp onWay⟩)
  refine ⟨ends, ⟨mappings, opened, filled, _, isMap, isOpen, filling, fills.isListing, whole⟩,
    ?_, ?_, changes⟩
  · intro artifact mem
    rw [filesAfter]
    exact read_of_failed written apartDone fails mem
  · rintro location notStray ⟨artifact, mem, rfl⟩
    rcases changes _ notStray with ⟨other, before, same⟩ | same | ⟨vacant, made, -⟩
    · rw [← targets, ← targets] at same
      exact absurd same.symm (apartRest other before artifact mem)
    · rw [FileTree.fileAt, same, FileTree.fileAt]
    · rw [FileTree.fileAt, made, FileTree.fileAt, vacant]

/-- A file is where a directory has to be for the second of two artifacts. The first is written; the
file stays. -/
theorem build_of_failed_second_write :
    let files : FileSystem := { FileSystem.blank with
      tree := FileSystem.blank.tree.plant ["work", "dist", "b"] (.file [120]) }
    let tool : Tool := ⟨"deno", none⟩
    let processes : Processes :=
      ⟨[.exited 0 [] [] [("a.js", Utf8.encode "a".toList), ("b/c.js", Utf8.encode "c".toList)]], []⟩
    let report := build tool (tool.bundle "<TMP>") BuildOptions.unset.resolved (.whole 0) (.whole 0)
      files processes
    (∃ error, report.result = .error (.write error)) ∧
      report.files.read "dist/a.js" = .ok (Utf8.encode "a".toList) ∧
      report.files.tree.get? ["work", "dist", "b"] = some (.file [120]) := by
  intro files tool processes report
  have isPrivate : IsPrivateDirectory files "<TMP>" :=
    isPrivateDirectory_of_vacant rfl (by decide +kernel)
  have isNew : IsNewDirectory files "<TMP>" := isPrivate.isNew (by decide +kernel)
  have next : processesForBundle tool BuildOptions.unset.resolved processes = processes := rfl
  have isMap : IsBuildMap tool BuildOptions.unset.resolved processes none := rfl
  let request := BundleRequest.ofOptions BuildOptions.unset.resolved none
  have ran : (tool.run (request.arguments "<TMP>") processes).1 =
      .ok (outputText []) := rfl
  -- The private directory is made, filled, read back in order, and removed.
  let opened : FileSystem := { files with
    tree := files.tree.put (files.scratchLocation "<TMP>") .directory }
  have isOpen : files.openScratch "<TMP>" = .ok opened := by
    have directory : files.tree.get? files.temporary = some .directory := by decide +kernel
    rw [FileSystem.openScratch, directory]
  let filled := opened.fillScratch "<TMP>" processes.next.emitted
  have closed := eq_ok_pair_of_toOption
    (show (filled.closeScratch "<TMP>").1.toOption = some () by decide +kernel)
  have walked : ((filled.held "<TMP>").listing "<TMP>").map
      (fun file => ("/".intercalate file.1, file.2)) = processes.next.emitted := by decide +kernel
  have listed : filled.listing "<TMP>" = processes.next.emitted := by
    rw [FileSystem.listing, walked]
    exact List.mergeSort_of_pairwise (by decide +kernel)
  have collected : collect "<TMP>" request.destination filled =
      .ok [⟨"dist/a.js", "a"⟩, ⟨"dist/b/c.js", "c"⟩] := by
    rw [collect, if_neg (by decide +kernel), listed]
    exact eq_ok_of_toOption (by decide +kernel)
  have prepares := prepares_of_run isMap isOpen ran closed collected
  let first : Artifact := ⟨"dist/a.js", "a"⟩
  let second : Artifact := ⟨"dist/b/c.js", "c"⟩
  have finished : (finishArtifacts BuildOptions.unset.resolved.replace none [first, second]).1 =
      [first] ++ second :: [] := by decide +kernel
  rw [finished] at prepares
  -- The first artifact can be written, and the second cannot.
  let ready := (filled.closeScratch "<TMP>").2
  have written := eq_ok_pair_of_toOption
    (show (writeArtifacts ready [first]).1.toOption = some () by decide +kernel)
  cases attempt : ((writeArtifacts ready [first]).2.writeText second.path second.text).1 with
  | ok done =>
    have failure : ((writeArtifacts ready [first]).2.writeText second.path
      second.text).1.toOption = none := by decide +kernel
    rw [attempt] at failure
    cases failure
  | error error =>
    have there : files.tree.get? ["work", "dist", "b"] = some (.file [120]) := by decide +kernel
    have away : ["work", "dist", "b"] ≠ files.target first.path := by decide +kernel
    have notStray : ¬ files.IsStray "<TMP>" processes.next.emitted ["work", "dist", "b"] :=
      FileSystem.not_isStray (by decide +kernel) _
    obtain ⟨ends, -, partly⟩ := build_of_failed_write isNew isPrivate prepares written attempt
    have leaves : IsPartialOutput files report.files _ [first] second [] := partly
    refine ⟨⟨error, ends⟩, leaves.complete first (by simp), ?_⟩
    rcases leaves.changes ["work", "dist", "b"] notStray with
      ⟨artifact, mem, target⟩ | same | ⟨vacant, -, -⟩
    · obtain rfl := List.mem_singleton.mp mem
      exact absurd target away
    · exact same.trans there
    · rw [there] at vacant
      cases vacant

/-- But a file that the tool put outside its private directory is there after a failed write, and is
none of the artifacts. -/
theorem stray_file_stays_after_failed_write :
    let files : FileSystem := { FileSystem.blank with
      tree := FileSystem.blank.tree.plant ["work", "dist"] (.file (Utf8.encode "x".toList)) }
    let tool : Tool := ⟨"deno", none⟩
    let contents := Utf8.encode "e".toList
    let processes : Processes := ⟨[.exited 0 [] []
      [("main.js", Utf8.encode "a".toList), ("../../work/stray.js", contents)]], []⟩
    let report := build tool (tool.bundle "<TMP>") BuildOptions.unset.resolved (.whole 0) (.whole 0)
      files processes
    let failure : Option PathError :=
      match report.result with
      | .error (.write error) => some error
      | _ => none
    let listing (opened : FileSystem) : List (String × Bytes) :=
      (opened.fillScratch "<TMP>" processes.next.emitted).listing "<TMP>"
    failure = some ⟨.fileExists, "dist"⟩ ∧
      (files.openScratch "<TMP>").toOption.map (fun opened => (listing opened).map Prod.fst) =
        some ["main.js"] ∧
      files.tree.get? ["work", "stray.js"] = none ∧
      report.files.tree.get? ["work", "stray.js"] = some (.file contents) := by
  decide +kernel

end EsmBundle
