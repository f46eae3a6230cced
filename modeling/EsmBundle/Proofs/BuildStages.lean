import EsmBundle.Build
import EsmBundle.Proofs.Bundling

/-!
The stages of a build, and how it ends in each of them.

A build makes its map, bundles, and writes the finished artifacts. The first two stages come
to an end before anything is written, and a build that gets through them ends as its writing
does.

* `prepare_of_isBuildMap` — the first two stages.
* `Prepares` — a build gets as far as writing.
* `build_of_prepares` — such a build ends as the writing of its artifacts does.
* `build_cases` — any other build fails without a map or without artifacts.
* `build_eq_ok` — a build that returns has written all of its artifacts.
-/

namespace EsmBundle

/-- The map that a build works with: none when nothing is external, and otherwise that of the
loaded graph. -/
def IsBuildMap (loader : Tool) (options : ResolvedOptions) (processes : Processes) :
    Option SpecifierMap → Prop
  | none => options.external = []
  | some mappings =>
    options.external ≠ [] ∧ ∃ graph,
      (ModuleGraph.load loader options.entrypoints processes).1 = .ok graph ∧
      mappings = SpecifierMap.ofGraph graph options.external

/-- The processes of a build that are left when its map is there. -/
def processesForBundle (loader : Tool) (options : ResolvedOptions) (processes : Processes) :
    Processes :=
  (SpecifierMap.build loader options.external options.entrypoints processes).2

/-- A build gets as far as writing: it has a map and artifacts, which are finished, and the files
are those that bundling left. -/
def Prepares (loader : Tool) (bundler : Bundler) (options : ResolvedOptions) (files : FileSystem)
    (processes : Processes) (artifacts : List Artifact) (ready : FileSystem) : Prop :=
  ∃ mappings emitted after, IsBuildMap loader options processes mappings ∧
    bundler (.ofOptions options mappings) files (processesForBundle loader options processes) =
      ⟨.ok emitted, ready, after⟩ ∧
    artifacts = (finishArtifacts options.replace mappings emitted).1

/-- How a build ends that got as far as writing. -/
def writingResult (written : Except PathError Unit) (artifacts : List Artifact)
    (start stop : Reading) : Except BuildError BuildResult :=
  match written with
  | .error error => .error (.write error)
  | .ok () => timedResult start stop (artifacts.map Artifact.path)

section

variable {loader : Tool} {bundler : Bundler} {options : ResolvedOptions} {files : FileSystem}
  {processes : Processes}

/-! ### The map -/

theorem isBuildMap_of_build_eq_ok {mappings : Option SpecifierMap}
    (mapped : (SpecifierMap.build loader options.external options.entrypoints processes).1 =
      .ok mappings) : IsBuildMap loader options processes mappings := by
  unfold SpecifierMap.build at mapped
  split at mapped
  · rename_i nothing
    obtain rfl := Except.ok.inj mapped
    exact List.isEmpty_iff.mp nothing
  · rename_i something
    split at mapped
    · cases mapped
    · rename_i graph after loaded
      obtain rfl := Except.ok.inj mapped
      exact ⟨fun nothing => something (List.isEmpty_iff.mpr nothing), graph, by rw [loaded], rfl⟩

/-- A map that a build works with is the one that it makes. -/
theorem specifierMap_of_isBuildMap {mappings : Option SpecifierMap}
    (isMap : IsBuildMap loader options processes mappings) :
    SpecifierMap.build loader options.external options.entrypoints processes =
      (.ok mappings, processesForBundle loader options processes) := by
  unfold processesForBundle SpecifierMap.build
  cases mappings with
  | none =>
    have nothing : options.external = [] := isMap
    simp only [nothing, List.isEmpty_nil, if_true]
  | some mappings =>
    obtain ⟨something, graph, loaded, rfl⟩ := isMap
    rw [if_neg (by simpa using something)]
    cases attempt : ModuleGraph.load loader options.entrypoints processes with
    | mk result after =>
      rw [attempt] at loaded
      obtain rfl : result = .ok graph := loaded
      rfl

/-! ### Up to the writing -/

/-- Without a map a build does not come to bundle. -/
theorem prepare_of_load_error {error : LoadError} {after : Processes}
    (failed : SpecifierMap.build loader options.external options.entrypoints processes =
      (.error error, after)) :
    prepare loader bundler options files processes =
      ⟨.error (.load error), files, after, ["Bundling project..."], none⟩ := by
  rw [prepare, failed]

/-- **With a map** it depends on the bundling how far a build comes. -/
theorem prepare_of_isBuildMap {mappings : Option SpecifierMap}
    (isMap : IsBuildMap loader options processes mappings) :
    let request := BundleRequest.ofOptions options mappings
    let bundling := bundler request files (processesForBundle loader options processes)
    prepare loader bundler options files processes =
      ⟨match bundling.result with
        | .error error => .error (.bundle error)
        | .ok artifacts => .ok (mappings, artifacts),
        bundling.files, bundling.processes, "Bundling project..." :: mappingMessages mappings,
        some request⟩ := by
  intro request bundling
  rw [prepare, specifierMap_of_isBuildMap isMap]
  dsimp only
  split <;> rename_i bundled <;> simp only [bundling, request, bundled] <;> rfl

/-- A build that gets as far as writing is prepared. -/
theorem Prepares.prepare_eq {artifacts : List Artifact} {ready : FileSystem}
    (prepares : Prepares loader bundler options files processes artifacts ready) :
    ∃ mappings emitted, (prepare loader bundler options files processes).result =
        .ok (mappings, emitted) ∧
      (prepare loader bundler options files processes).files = ready ∧
      artifacts = (finishArtifacts options.replace mappings emitted).1 := by
  obtain ⟨mappings, emitted, after, isMap, bundled, same⟩ := prepares
  refine ⟨mappings, emitted, ?_, ?_, same⟩ <;>
  · rw [prepare_of_isBuildMap isMap]
    dsimp only
    rw [bundled]

/-- **A build** fails without a map, or fails without artifacts, or gets as far as writing. -/
theorem prepare_cases (loader : Tool) (bundler : Bundler) (options : ResolvedOptions)
    (files : FileSystem) (processes : Processes) :
    let prepared := prepare loader bundler options files processes
    (∃ error, prepared.result = .error (.load error) ∧ prepared.files = files) ∨
      (∃ mappings error, IsBuildMap loader options processes mappings ∧
        (bundler (.ofOptions options mappings) files
          (processesForBundle loader options processes)).result = .error error ∧
        prepared.result = .error (.bundle error) ∧
        prepared.files = (bundler (.ofOptions options mappings) files
          (processesForBundle loader options processes)).files) ∨
      ∃ artifacts ready, Prepares loader bundler options files processes artifacts ready := by
  intro prepared
  cases mapped : SpecifierMap.build loader options.external options.entrypoints processes with
  | mk mapResult afterMap =>
    cases mapResult with
    | error error =>
      have same : prepared = _ := prepare_of_load_error mapped
      rw [same]
      exact Or.inl ⟨error, rfl, rfl⟩
    | ok mappings =>
      have isMap := isBuildMap_of_build_eq_ok (congrArg Prod.fst mapped)
      have same : prepared = _ := prepare_of_isBuildMap isMap
      refine Or.inr ?_
      cases bundled : bundler (.ofOptions options mappings) files
          (processesForBundle loader options processes) with
      | mk result ready after =>
        rw [bundled] at same
        cases result with
        | error error => exact Or.inl ⟨mappings, error, isMap, by rw [bundled], by rw [same],
            by rw [same, bundled]⟩
        | ok emitted => exact Or.inr ⟨_, ready, mappings, emitted, after, isMap, bundled, rfl⟩

/-- A build gets as far as writing when its private directory can be made and removed, the process
exits with status zero, and all that it emitted is text. -/
theorem prepares_of_run {tool : Tool} {scratch output : String} {mappings : Option SpecifierMap}
    {opened left : FileSystem} {emitted : List Artifact}
    (isMap : IsBuildMap loader options processes mappings)
    (isOpen : files.openScratch scratch = .ok opened)
    (ran : (tool.run ((BundleRequest.ofOptions options mappings).arguments scratch)
      (processesForBundle loader options processes)).1 = .ok output)
    (closed : (opened.fillScratch scratch
      (processesForBundle loader options processes).next.emitted).closeScratch scratch =
        (.ok (), left))
    (collected : collect scratch (BundleRequest.ofOptions options mappings).destination
      (opened.fillScratch scratch
        (processesForBundle loader options processes).next.emitted) = .ok emitted) :
    Prepares loader (tool.bundle scratch) options files processes
      (finishArtifacts options.replace mappings emitted).1 left := by
  refine ⟨mappings, emitted,
    (tool.bundle scratch (.ofOptions options mappings) files
      (processesForBundle loader options processes)).processes, isMap, ?_, rfl⟩
  obtain ⟨result, after⟩ := tool.bundle_of_openScratch (.ofOptions options mappings)
    (processesForBundle loader options processes) isOpen
  rw [if_neg (Nat.not_lt.mpr (FileSystem.closeScratch_eq_ok_iff.mp closed).1), ran] at result
  dsimp only at result
  rw [collected] at result
  rw [closed] at after
  rw [← result, ← show _ = left from after]

/-! ### The whole build -/

/-- Writing starts no process. -/
theorem processes_build (start stop : Reading) :
    (build loader bundler options start stop files processes).processes =
      (prepare loader bundler options files processes).processes := by
  unfold build
  dsimp only
  split
  · rfl
  · split <;> rfl

/-- A build that is not prepared ends there. -/
theorem build_of_prepare_error (start stop : Reading) {error : BuildError}
    (failed : (prepare loader bundler options files processes).result = .error error) :
    let report := build loader bundler options start stop files processes
    report.result = .error error ∧
      report.files = (prepare loader bundler options files processes).files := by
  intro report
  unfold report build
  dsimp only
  rw [failed]
  exact ⟨rfl, rfl⟩

/-- **A build that gets as far as writing** ends as the writing of its artifacts does. -/
theorem build_of_prepares (start stop : Reading) {artifacts : List Artifact} {ready : FileSystem}
    (prepares : Prepares loader bundler options files processes artifacts ready) :
    let report := build loader bundler options start stop files processes
    report.result = writingResult (writeArtifacts ready artifacts).1 artifacts start stop ∧
      report.files = (writeArtifacts ready artifacts).2 := by
  obtain ⟨mappings, emitted, prepared, left, rfl⟩ := prepares.prepare_eq
  intro report
  unfold report build
  dsimp only
  rw [prepared]
  dsimp only
  rw [left]
  cases writeArtifacts ready (finishArtifacts options.replace mappings emitted).1 with
  | mk written filesAfter => cases written <;> exact ⟨rfl, rfl⟩

/-- **A build** fails without a map, or fails without artifacts, or gets as far as writing. -/
theorem build_cases (loader : Tool) (bundler : Bundler) (options : ResolvedOptions)
    (start stop : Reading) (files : FileSystem) (processes : Processes) :
    let report := build loader bundler options start stop files processes
    (∃ error, report.result = .error (.load error) ∧ report.files = files) ∨
      (∃ mappings error, IsBuildMap loader options processes mappings ∧
        (bundler (.ofOptions options mappings) files
          (processesForBundle loader options processes)).result = .error error ∧
        report.result = .error (.bundle error) ∧
        report.files = (bundler (.ofOptions options mappings) files
          (processesForBundle loader options processes)).files) ∨
      ∃ artifacts ready, Prepares loader bundler options files processes artifacts ready := by
  intro report
  rcases prepare_cases loader bundler options files processes with
    ⟨error, failed, left⟩ | ⟨mappings, error, isMap, bundled, failed, left⟩ | prepares
  · obtain ⟨ends, same⟩ := build_of_prepare_error start stop failed
    exact Or.inl ⟨error, ends, same.trans left⟩
  · obtain ⟨ends, same⟩ := build_of_prepare_error start stop failed
    exact Or.inr (Or.inl ⟨mappings, error, isMap, bundled, ends, same.trans left⟩)
  · exact Or.inr (Or.inr prepares)

/-- A build that has written everything returns when the clock can be read. -/
theorem timedResult_eq_ok_iff {start stop : Reading} {outputFiles : List String}
    {result : BuildResult} :
    timedResult start stop outputFiles = .ok result ↔
      start.millisecondsTo stop = .ok result.duration ∧ result.outputFiles = outputFiles := by
  obtain ⟨duration, written⟩ := result
  unfold timedResult
  cases start.millisecondsTo stop <;> simp [eq_comm]

/-- **A build that returns** got as far as writing, and wrote all of its artifacts. -/
theorem build_eq_ok {start stop : Reading} {result : BuildResult}
    (built : (build loader bundler options start stop files processes).result = .ok result) :
    ∃ artifacts ready, Prepares loader bundler options files processes artifacts ready ∧
      writeArtifacts ready artifacts =
        (.ok (), (build loader bundler options start stop files processes).files) ∧
      timedResult start stop (artifacts.map Artifact.path) = .ok result := by
  rcases build_cases loader bundler options start stop files processes with
    ⟨error, failed, -⟩ | ⟨mappings, error, -, -, failed, -⟩ | ⟨artifacts, ready, prepares⟩
  · rw [built] at failed
    cases failed
  · rw [built] at failed
    cases failed
  · obtain ⟨ends, left⟩ := build_of_prepares start stop prepares
    rw [built] at ends
    refine ⟨artifacts, ready, prepares, ?_⟩
    rw [left]
    cases writing : writeArtifacts ready artifacts with
    | mk written filesAfter =>
      rw [writing] at ends
      cases written with
      | error error => cases ends
      | ok done => exact ⟨rfl, ends.symm⟩

end

end EsmBundle
