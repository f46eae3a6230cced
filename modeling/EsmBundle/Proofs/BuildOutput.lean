import EsmBundle.Proofs.BuildStages

/-!
What a successful build leaves behind.

The artifacts are written one after another, each after the directories that lead to it.
No write takes a directory away, and two artifacts never go to one place, so each of them
is there at the end with the text it was given.

* `writeArtifacts_spec` — the loop: every artifact ends up where its path leads, and every
  other file is as before.
* `build_delivers` — the output of a build from its options, the module graph and what the
  tool emitted, and the files that it leaves alone.
-/

namespace EsmBundle

/-! ### Writing all artifacts -/

section Writing

variable {files after : FileSystem}

/-- **The loop over the artifacts** puts the last text of every place there and changes no other
file; all the paths that were written go on leading there. -/
theorem writeArtifacts_spec {artifacts : List Artifact}
    (written : writeArtifacts files artifacts = (.ok (), after)) :
    FileSystem.Grows files after ∧
      (∀ location, after.tree.fileAt location =
        lastValue (fun artifact => some (files.target artifact.path))
          (fun artifact => Utf8.encode artifact.text.toList) location artifacts
          (files.tree.fileAt location)) ∧
      ∀ artifact ∈ artifacts, ∃ middle contents, FileSystem.Grows middle after ∧
        middle.stat artifact.path = .ok (files.target artifact.path, .file contents) := by
  induction artifacts generalizing files with
  | nil =>
    obtain rfl := (Prod.mk.inj written).2
    exact ⟨FileSystem.Grows.refl files, fun _ => rfl, by simp⟩
  | cons artifact rest ih =>
    rw [writeArtifacts] at written
    split at written
    · cases written
    · rename_i middle first
      obtain ⟨grows, contents, stat⟩ := FileSystem.writeBelow_spec first
      obtain ⟨later, laterContents, laterStat⟩ := ih written
      have targets (text : String) : middle.target text = files.target text :=
        grows.target_eq text
      refine ⟨grows.trans later, ?_, ?_⟩
      · intro location
        rw [laterContents, contents]
        simp only [targets, lastValue, List.foldl_cons, Option.some.injEq, eq_comm]
      · refine List.forall_mem_cons.mpr ⟨⟨middle, _, later, stat⟩, ?_⟩
        intro artifact mem
        obtain ⟨between, written, grows', stat'⟩ := laterStat artifact mem
        exact ⟨between, written, grows', targets artifact.path ▸ stat'⟩

/-- In distinct places every artifact is where its path leads. -/
theorem stat_of_writeArtifacts {artifacts : List Artifact}
    (written : writeArtifacts files artifacts = (.ok (), after))
    (distinct : artifacts.Pairwise fun a b => files.target a.path ≠ files.target b.path)
    {artifact : Artifact} (mem : artifact ∈ artifacts) :
    after.stat artifact.path =
      .ok (files.target artifact.path, .file (Utf8.encode artifact.text.toList)) := by
  obtain ⟨-, contents, stat⟩ := writeArtifacts_spec written
  obtain ⟨middle, was, grows, there⟩ := stat artifact mem
  refine grows.stat_eq_ok there ?_
  rw [contents]
  exact lastValue_of_mem (distinct.imp fun apart same => apart (Option.some.inj same)) mem rfl

/-- A place that no artifact goes to keeps its file. -/
theorem fileAt_of_writeArtifacts {artifacts : List Artifact}
    (written : writeArtifacts files artifacts = (.ok (), after)) {location : Location}
    (elsewhere : ∀ artifact ∈ artifacts, files.target artifact.path ≠ location) :
    after.tree.fileAt location = files.tree.fileAt location := by
  obtain ⟨-, contents, -⟩ := writeArtifacts_spec written
  rw [contents]
  exact lastValue_of_forall_ne fun artifact mem same =>
    elsewhere artifact mem (Option.some.inj same)

end Writing

/-! ### Finished artifacts -/

/-- Every artifact is finished by itself, and keeps its path. -/
theorem finishArtifacts_fst (replacements : Replacements) (mappings : Option SpecifierMap)
    (artifacts : List Artifact) :
    (finishArtifacts replacements mappings artifacts).1 =
      artifacts.map fun artifact =>
        ⟨artifact.path, (finishText replacements mappings artifact.text).1⟩ := by
  have general (met : List String) :
      artifacts.zipWith (fun artifact step => (⟨artifact.path, step.1⟩ : Artifact))
          (finishTexts replacements mappings met (artifacts.map Artifact.text)) =
        artifacts.map fun artifact =>
          ⟨artifact.path, (finishText replacements mappings artifact.text).1⟩ := by
    induction artifacts generalizing met with
    | nil => rfl
    | cons artifact rest ih =>
      simp only [List.map_cons, finishTexts, List.zipWith_cons_cons, ih]
  exact general []

/-! ### The steps of a build -/

/-- The directory that the output of a build goes to. -/
def BuildOptions.outputRoot (options : BuildOptions) : String :=
  match nonempty (options.outputPath.map OptionValue.path) with
  | some path => Path.directoryOf path
  | none =>
    match options.outputDir with
    | none => "dist"
    | some directory => if directory.path = "" then "." else directory.path

theorem getD_nonempty (text fallback : String) :
    (nonempty (some text)).getD fallback = if text = "" then fallback else text := by
  by_cases empty : text = "" <;> simp [nonempty, Option.filter_some, empty]

/-- The request of a build is destined for its output directory. -/
theorem destination_ofOptions (options : BuildOptions) (mappings : Option SpecifierMap) :
    (BundleRequest.ofOptions options.resolved mappings).destination = options.outputRoot := by
  have path : (BundleRequest.ofOptions options.resolved mappings).singlePath =
      nonempty (options.outputPath.map OptionValue.path) := rfl
  rw [BundleRequest.destination, path, BuildOptions.outputRoot]
  cases single : nonempty (options.outputPath.map OptionValue.path) with
  | some path => rfl
  | none =>
    have unset : (BundleRequest.ofOptions options.resolved mappings).outputDir =
        some options.resolved.outputDir := by
      rw [BundleRequest.ofOptions, BuildOptions.resolved, single]
      rfl
    rw [unset, getD_nonempty, BuildOptions.resolved, BuildOptions.defaultOutputDir]
    cases options.outputDir with
    | none => rfl
    | some directory => rfl

/-- The artifact of an emitted file below a root, finished. -/
def Artifact.finished (root : String) (replacements : Replacements)
    (mappings : Option SpecifierMap) (file : String × Bytes) : Artifact :=
  ⟨Path.join root file.1, (finishText replacements mappings (decodedText file.2)).1⟩

/-- What a build has when it comes to writing: what bundling left, in which the private directory is
gone, and what the directory held, all of it texts, finished. -/
theorem prepares_bundle {loader bundler : Tool} {scratch : String} {options : BuildOptions}
    {files ready : FileSystem} {processes : Processes} {artifacts : List Artifact}
    (prepares : Prepares loader (bundler.bundle scratch) options.resolved files processes artifacts
      ready) :
    ∃ mappings opened filled,
      IsBuildMap loader options.resolved processes mappings ∧
      files.openScratch scratch = .ok opened ∧
      opened.fillScratch scratch
        (processesForBundle loader options.resolved processes).next.emitted = filled ∧
      filled.closeScratch scratch = (.ok (), ready) ∧
      (∀ file ∈ filled.listing scratch, ∃ cs, Utf8.decode file.2 = .ok cs) ∧
      artifacts = (filled.listing scratch).map
        (Artifact.finished options.outputRoot options.resolved.replace mappings) := by
  obtain ⟨mappings, texts, after, isMap, bundled, rfl⟩ := prepares
  obtain ⟨opened, filled, isOpen, filling, closed, collected⟩ :=
    Tool.bundle_eq_ok (congrArg Bundling.result bundled)
  obtain ⟨decodable, rfl⟩ := collect_eq_ok collected
  rw [bundled] at closed
  rw [finishArtifacts_fst, List.map_map, destination_ofOptions]
  exact ⟨mappings, opened, filled, isMap, isOpen, filling, closed, decodable, rfl⟩

/-! ### The output -/

/-- The output of a build: one path for every listed file, below the root, where its finished text
can be read. -/
structure IsOutput (root : String) (replacements : Replacements)
    (mappings : Option SpecifierMap) (listing : List (String × Bytes))
    (outputFiles : List String) (after : FileSystem) : Prop where
  paths : outputFiles = listing.map fun file => Path.join root file.1
  distinct : outputFiles.Nodup
  texts : ∀ file ∈ listing, ∃ cs, Utf8.decode file.2 = .ok cs ∧
    after.read (Path.join root file.1) = .ok (Utf8.encode
      (finishText replacements mappings (String.ofList (unifyLineBreaks cs))).1.toList)

section Finished

variable {files filled left after : FileSystem} {scratch root : String}
  {emitted : List (String × Bytes)} {replacements : Replacements}
  {mappings : Option SpecifierMap}

/-- The files of a private directory that are written finished, one after another, are there at the
end. -/
theorem FillsDirectory.stat_of_write_finished (fills : FillsDirectory files scratch emitted filled)
    (written : writeArtifacts left ((filled.listing scratch).map
      (Artifact.finished root replacements mappings)) = (.ok (), after))
    {file : String × Bytes} (mem : file ∈ filled.listing scratch) :
    after.stat (Path.join root file.1) =
      .ok (left.target (Path.join root file.1),
        .file (Utf8.encode
          (finishText replacements mappings (decodedText file.2)).1.toList)) := by
  have distinct : ((filled.listing scratch).map
      (Artifact.finished root replacements mappings)).Pairwise fun a b =>
        left.target a.path ≠ left.target b.path :=
    List.pairwise_map.mpr (fills.target_join_listing left root)
  have isWritten : Artifact.finished root replacements mappings file ∈
      (filled.listing scratch).map (Artifact.finished root replacements mappings) :=
    List.mem_map_of_mem mem
  have there := stat_of_writeArtifacts written distinct isWritten
  unfold Artifact.finished at there
  exact there

/-- A place that none of the written paths leads to keeps its file. -/
theorem FillsDirectory.fileAt_of_write_finished
    (fills : FillsDirectory files scratch emitted filled)
    (written : writeArtifacts left ((filled.listing scratch).map
      (Artifact.finished root replacements mappings)) = (.ok (), after)) {location : Location}
    (elsewhere : ∀ file ∈ filled.listing scratch, ∀ entry,
      after.stat (Path.join root file.1) ≠ .ok (location, entry)) :
    after.tree.fileAt location = left.tree.fileAt location := by
  refine fileAt_of_writeArtifacts written ?_
  intro artifact mem same
  obtain ⟨file, fileMem, rfl⟩ := List.mem_map.mp mem
  have stat := fills.stat_of_write_finished written fileMem
  unfold Artifact.finished at same
  rw [same] at stat
  exact elsewhere file fileMem _ stat

end Finished

/-- **A build that returns delivers.** There is a file for everything that the tool emitted into its
private directory, at the same names below the output directory, with its finished text. All
other files are as they were, save those that the tool itself put outside the directory. -/
theorem build_delivers {loader bundler : Tool} {scratch : String} {options : BuildOptions}
    {start stop : Reading} {files : FileSystem} {processes : Processes} {result : BuildResult}
    (isNew : IsNewDirectory files scratch)
    (built : (build loader (bundler.bundle scratch) options.resolved start stop files
      processes).result = .ok result) :
    let emitted := (processesForBundle loader options.resolved processes).next.emitted
    let after := (build loader (bundler.bundle scratch) options.resolved start stop files
      processes).files
    ∃ mappings opened filled listing,
      IsBuildMap loader options.resolved processes mappings ∧
      files.openScratch scratch = .ok opened ∧
      opened.fillScratch scratch emitted = filled ∧
      IsListing filled.tree (files.scratchLocation scratch) listing ∧
      IsOutput options.outputRoot options.resolved.replace mappings listing
        result.outputFiles after ∧
      (∀ location,
        (∀ path ∈ result.outputFiles, ∀ entry, after.stat path ≠ .ok (location, entry)) →
        (∀ file ∈ emitted, files.emissionTarget scratch file = some location →
          files.scratchLocation scratch <+: location) →
        after.tree.fileAt location = files.tree.fileAt location) ∧
      (options.resolved.external = [] → options.resolved.replace.entries = [] →
        ∀ file ∈ listing, ∃ cs, Utf8.decode file.2 = .ok cs ∧
          after.read (Path.join options.outputRoot file.1) =
            .ok (Utf8.encode (unifyLineBreaks cs))) := by
  intro emitted after
  obtain ⟨artifacts, left, prepares, written, ended⟩ := build_eq_ok built
  obtain ⟨mappings, opened, filled, isMap, isOpen, filling, closed, decodable, rfl⟩ :=
    prepares_bundle prepares
  have paths : result.outputFiles =
      (filled.listing scratch).map fun file => Path.join options.outputRoot file.1 := by
    rw [(timedResult_eq_ok_iff.mp ended).2, List.map_map]
    rfl
  have fills : FillsDirectory files scratch emitted filled := ⟨isNew, opened, isOpen, filling⟩
  obtain ⟨-, frame⟩ := fills.closeScratch_spec closed
  have texts : ∀ file ∈ filled.listing scratch, ∃ cs, Utf8.decode file.2 = .ok cs ∧
      after.read (Path.join options.outputRoot file.1) = .ok (Utf8.encode
        (finishText options.resolved.replace mappings
          (String.ofList (unifyLineBreaks cs))).1.toList) := by
    intro file mem
    obtain ⟨cs, decoded⟩ := decodable file mem
    have stat := fills.stat_of_write_finished written mem
    rw [decodedText, decoded] at stat
    exact ⟨cs, decoded, FileSystem.read_eq_ok_of_stat stat⟩
  have distinct : result.outputFiles.Nodup := by
    rw [paths]
    have apart := fills.target_join_listing files options.outputRoot
    exact List.pairwise_map.mpr (apart.imp fun apart same => apart (congrArg _ same))
  refine ⟨mappings, opened, filled, filled.listing scratch, isMap, isOpen, filling,
    fills.isListing, ⟨paths, distinct, texts⟩, ?_, ?_⟩
  · intro location elsewhere inside
    have apart : ∀ file ∈ filled.listing scratch, ∀ entry,
        after.stat (Path.join options.outputRoot file.1) ≠ .ok (location, entry) := by
      intro file mem
      apply elsewhere
      rw [paths]
      exact List.mem_map_of_mem mem
    exact (fills.fileAt_of_write_finished written apart).trans (frame location inside)
  · intro nothing plain file mem
    obtain ⟨cs, decoded, read⟩ := texts file mem
    cases mappings with
    | some mappings => exact absurd nothing isMap.1
    | none =>
      refine ⟨cs, decoded, read.trans ?_⟩
      rw [finishText, replaceText, applyReplacements, plain]
      simp

/-- The tool emits one file into its private directory and one outside. The first is delivered; the
second stays where the tool put it. -/
theorem build_delivers_beside_stray :
    let tree := ((FileTree.empty.plant ["work"] .directory).plant ["home"] .directory).plant
      ["tmp"] .directory
    let files : FileSystem := ⟨tree, ["work"], ["home"], ["tmp"]⟩
    let contents (text : String) : Bytes := Utf8.encode text.toList
    let tool : Tool := ⟨"deno", none⟩
    let ran : Outcome := .exited 0 [] []
      [("main.js", contents "a\r\nb"), ("../../work/stray.js", contents "c")]
    let report := build tool (tool.bundle "<TMP>") BuildOptions.unset.resolved (.whole 0) (.whole 0)
      files ⟨[ran], []⟩
    ∃ result listing, report.result = .ok result ∧ result.outputFiles = ["dist/main.js"] ∧
      IsOutput "dist" .empty none listing result.outputFiles report.files ∧
      report.files.tree.fileAt ["work", "dist", "main.js"] = some (contents "a\nb") := by
  intro tree files contents tool ran report
  have isNew : IsNewDirectory files "<TMP>" :=
    ⟨by decide +kernel, by decide +kernel, FileTree.find?_empty⟩
  have succeeds : report.result.toOption = some ⟨0, ["dist/main.js"]⟩ := by decide +kernel
  cases built : report.result with
  | error error =>
    rw [built] at succeeds
    cases succeeds
  | ok result =>
    obtain ⟨mappings, -, -, listing, isMap, -, -, -, output, -, -⟩ := build_delivers isNew built
    have paths : result.outputFiles = ["dist/main.js"] := by
      rw [built] at succeeds
      exact congrArg BuildResult.outputFiles (Option.some.inj succeeds)
    have noMap : mappings = none := by
      cases mappings with
      | none => rfl
      | some mappings => exact absurd rfl isMap.1
    subst noMap
    exact ⟨result, listing, rfl, paths, output, by decide +kernel⟩

/-- So a build can leave a file that was not there and is none of its output. -/
theorem stray_file_stays :
    let tree := ((FileTree.empty.plant ["work"] .directory).plant ["home"] .directory).plant
      ["tmp"] .directory
    let files : FileSystem := ⟨tree, ["work"], ["home"], ["tmp"]⟩
    let contents (text : String) : Bytes := Utf8.encode text.toList
    let tool : Tool := ⟨"deno", none⟩
    let ran : Outcome := .exited 0 [] []
      [("main.js", contents "a"), ("../../work/stray.js", contents "e")]
    let report := build tool (tool.bundle "<TMP>") BuildOptions.unset.resolved (.whole 0) (.whole 0)
      files ⟨[ran], []⟩
    report.result.toOption = some ⟨0, ["dist/main.js"]⟩ ∧
      report.files.target "dist/main.js" = ["work", "dist", "main.js"] ∧
      files.tree.fileAt ["work", "stray.js"] = none ∧
      report.files.tree.fileAt ["work", "stray.js"] = some (contents "e") := by
  decide +kernel

end EsmBundle
