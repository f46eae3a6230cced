import EsmBundle.Program
import EsmBundle.Proofs.BuildStages
import EsmBundle.Proofs.PrivateDirectory

/-!
No output is touched before everything has been produced.

A build that fails to load the graph or to bundle fails before it writes, and bundling leaves
nothing behind but what the tool itself put outside its private directory, and the directory
where it has too many levels to be removed. The program ends with status 1 only where settings
cannot be read, and where such a build fails by an error of the tool.

* `build_of_failsEarly` — the files after a build that fails early.
* `Program.run_eq_one` — how the program comes to end with status 1.
* `unchanged_of_early_failure` — the files are as before in both cases.
-/

namespace EsmBundle

/-- Every entry is as before, save at the excepted places. -/
def FileSystem.SameSave (before after : FileSystem) (excepted : Location → Prop) : Prop :=
  ∀ location, ¬ excepted location → after.tree.get? location = before.tree.get? location

/-- A build fails to load the graph or to bundle, before anything is written. -/
def BuildReport.failsEarly (report : BuildReport) : Bool :=
  match report.result with
  | .error (.load _) | .error (.bundle _) => true
  | _ => false

/-- A build fails since its private directory has too many levels. -/
def BuildReport.isTooDeep (report : BuildReport) : Bool :=
  match report.result with
  | .error (.bundle (.scratch ⟨.tooDeep, _⟩)) => true
  | _ => false

/-- What the tool emits when a build bundles; nothing if it does not get that far. -/
def bundlingEmission (loader : Tool) (options : ResolvedOptions) (processes : Processes) :
    List (String × Bytes) :=
  match SpecifierMap.build loader options.external options.entrypoints processes with
  | (.error _, _) => []
  | (.ok _, processes) => processes.next.emitted

/-- What the tool emits when the program bundles; nothing if it does not get that far. -/
def Program.bundlingEmission (words : List String) (files : FileSystem) (processes : Processes) :
    List (String × Bytes) :=
  match Arguments.parse words with
  | .error _ => []
  | .ok arguments =>
    match Settings.ofOption files arguments.given.config with
    | .error _ => []
    | .ok settings =>
      EsmBundle.bundlingEmission ⟨executable arguments settings, none⟩
        (options arguments settings).resolved processes

variable {files : FileSystem} {scratch : String}

/-! ### Builds -/

/-- **A build that fails early** leaves every entry as it was, save where the tool went outside its
private directory, and save that directory if it has too many levels. -/
theorem build_of_failsEarly (isPrivate : IsPrivateDirectory files scratch) {loader bundler : Tool}
    {options : ResolvedOptions} {start stop : Reading} {processes : Processes} :
    let report := build loader (bundler.bundle scratch) options start stop files processes
    report.failsEarly = true →
      files.SameSave report.files fun location =>
        files.IsStray scratch (bundlingEmission loader options processes) location ∨
          report.isTooDeep = true ∧ files.scratchLocation scratch <+: location := by
  intro report early location notExcepted
  rcases build_cases loader (bundler.bundle scratch) options start stop files processes with
    ⟨_, -, same⟩ | ⟨mappings, error, isMap, bundled, ends, same⟩ | ⟨artifacts, ready, prepares⟩
  · rw [same]
  · rw [same]
    unfold bundlingEmission at notExcepted
    rw [specifierMap_of_isBuildMap isMap] at notExcepted
    obtain ⟨notStray, gone⟩ := not_or.mp notExcepted
    refine Tool.get?_bundle isPrivate notStray fun below path deep => gone ⟨?_, below⟩
    obtain rfl := Except.error.inj (bundled.symm.trans deep)
    rw [BuildReport.isTooDeep, ends]
  -- Once there is something to write, only the writing and the clock can fail.
  · have ends : report.result = _ := (build_of_prepares start stop prepares).1
    unfold BuildReport.failsEarly at early
    rw [ends] at early
    unfold writingResult timedResult at early
    revert early
    cases (writeArtifacts ready artifacts).1 with
    | error error => nofun
    | ok done => cases start.millisecondsTo stop <;> nofun

/-! ### The program -/

namespace Program

/-- A failed run of the tool is an early failure, and no private directory is too deep then. -/
theorem failsEarly_of_toolError? {report : BuildReport} {error : BuildError} {failure : ToolError}
    (failed : report.result = .error error) (isTool : toolError? error = some failure) :
    report.failsEarly = true ∧ report.isTooDeep = false := by
  unfold BuildReport.failsEarly BuildReport.isTooDeep
  rw [failed]
  unfold toolError? at isTool
  split at isTool
  · exact ⟨rfl, rfl⟩
  · exact ⟨rfl, rfl⟩
  · cases isTool

/-- A command line that sets no options does not end in status 1. -/
theorem status_farewell_ne_one (halt : Halt) : halt.farewell.status ≠ 1 := by
  cases halt <;> simp [Halt.farewell, Farewell.misuse]

/-- **The program ends with status 1** without a word on its output, having read no settings, or
after a build that fails early. -/
theorem run_eq_one {words : List String} {start stop : Reading} {processes : Processes}
    (ended : (run scratch words start stop files processes).result = .ok 1) :
    (run scratch words start stop files processes).stdout = "" ∧
      ((run scratch words start stop files processes).files = files ∨
        ∃ (tool : Tool) (options : ResolvedOptions),
          let report := build tool (tool.bundle scratch) options start stop files processes
          (report.failsEarly = true ∧ report.isTooDeep = false) ∧
            (run scratch words start stop files processes).files = report.files ∧
            bundlingEmission words files processes =
              EsmBundle.bundlingEmission tool options processes) := by
  unfold run bundlingEmission at *
  cases parsed : Arguments.parse words with
  | error halt =>
    rw [parsed] at ended
    exact absurd (Except.ok.inj ended) (status_farewell_ne_one halt)
  | ok arguments =>
    rw [parsed] at ended
    dsimp only at ended ⊢
    cases found : Settings.ofOption files arguments.given.config with
    | error error =>
      rw [found] at ended
      dsimp only at ended ⊢
      split at ended
      · cases ended
      · rename_i plain
        rw [if_neg plain]
        exact ⟨rfl, Or.inl rfl⟩
    | ok settings =>
      rw [found] at ended
      dsimp only at ended ⊢
      cases built : (build ⟨executable arguments settings, none⟩
          (Tool.bundle ⟨executable arguments settings, none⟩ scratch)
          (options arguments settings).resolved start stop files processes).result with
      | ok result =>
        rw [built] at ended
        cases ended
      | error error =>
        rw [built] at ended
        dsimp only at ended ⊢
        cases isTool : toolError? error with
        | none =>
          rw [isTool] at ended
          cases ended
        | some failure =>
          exact ⟨rfl, Or.inr ⟨_, _, failsEarly_of_toolError? built isTool, rfl, rfl⟩⟩

end Program

/-- **No output is touched before everything has been produced.** After a build that fails to load
or to bundle, every entry is as before, save where the tool went outside its private directory,
and save that directory if it has too many levels. So it is after a run of the program that ends
with status 1, which removes its private directory and prints nothing on its output. -/
theorem unchanged_of_early_failure (isPrivate : IsPrivateDirectory files scratch) :
    (∀ (loader bundler : Tool) (options : BuildOptions) (start stop : Reading)
        (processes : Processes),
      let report := build loader (bundler.bundle scratch) options.resolved start stop files
        processes
      report.failsEarly = true →
        files.SameSave report.files fun location =>
          files.IsStray scratch (bundlingEmission loader options.resolved processes) location ∨
            report.isTooDeep = true ∧ files.scratchLocation scratch <+: location) ∧
    ∀ (words : List String) (start stop : Reading) (processes : Processes),
      let report := Program.run scratch words start stop files processes
      report.result = .ok 1 →
        report.stdout = "" ∧
          files.SameSave report.files
            (files.IsStray scratch (Program.bundlingEmission words files processes)) := by
  constructor
  · intro loader bundler options start stop processes
    exact build_of_failsEarly isPrivate
  · intro words start stop processes report ended
    obtain ⟨silent, same | ⟨tool, options, ⟨early, notDeep⟩, same, emission⟩⟩ :=
      Program.run_eq_one ended
    · exact ⟨silent, fun location _ => by rw [same]⟩
    · refine ⟨silent, fun location notStray => ?_⟩
      rw [emission] at notStray
      rw [same]
      refine build_of_failsEarly isPrivate early location (not_or.mpr ⟨notStray, ?_⟩)
      rw [notDeep]
      exact fun deep => Bool.false_ne_true deep.1

/-- The tool emits a file into its private directory and fails. Nothing is left of that. -/
theorem unchanged_of_failed_bundling :
    let tool : Tool := ⟨"deno", none⟩
    let processes : Processes :=
      ⟨[.exited 1 [] (Utf8.encode "bad".toList) [("main.js", Utf8.encode "a".toList)]], []⟩
    let report := build tool (tool.bundle "<TMP>") BuildOptions.unset.resolved (.whole 0) (.whole 0)
      .blank processes
    let run := Program.run "<TMP>" [] (.whole 0) (.whole 0) .blank processes
    report.failsEarly = true ∧
      (∀ location, report.files.tree.get? location = FileSystem.blank.tree.get? location) ∧
      run.result = .ok 1 ∧ run.stdout = "" ∧
      ∀ location, run.files.tree.get? location = FileSystem.blank.tree.get? location := by
  intro tool processes report run
  have inside : ∀ file ∈ processes.next.emitted, StaysInside file.1 := by decide +kernel
  have emission : bundlingEmission tool BuildOptions.unset.resolved processes =
      processes.next.emitted := by decide +kernel
  have runEmission : Program.bundlingEmission [] .blank processes = processes.next.emitted := by
    decide +kernel
  have early : report.failsEarly = true := by decide +kernel
  have notDeep : report.isTooDeep = false := by decide +kernel
  have ended : run.result = .ok 1 := by
    have status : run.result.toOption = some 1 := by decide +kernel
    cases result : run.result with
    | error fault =>
      rw [result] at status
      cases status
    | ok code =>
      rw [result] at status
      exact congrArg Except.ok (Option.some.inj status)
  obtain ⟨builds, runs⟩ := unchanged_of_early_failure isPrivateDirectory_blank
  have same : FileSystem.blank.SameSave report.files _ :=
    builds tool tool .unset (.whole 0) (.whole 0) processes early
  have runSame : run.stdout = "" ∧ FileSystem.blank.SameSave run.files _ :=
    runs [] (.whole 0) (.whole 0) processes ended
  rw [emission] at same
  rw [runEmission] at runSame
  refine ⟨early, ?_, ended, runSame.1, ?_⟩
  · intro location
    refine same location (not_or.mpr ⟨FileSystem.not_isStray inside location, ?_⟩)
    exact fun deep => Bool.false_ne_true (notDeep.symm.trans deep.1)
  · intro location
    exact runSame.2 location (FileSystem.not_isStray inside location)

/-- But what a failing tool put outside its private directory stays. -/
theorem stray_file_stays_after_failure :
    let tool : Tool := ⟨"deno", none⟩
    let contents := Utf8.encode "e".toList
    let processes : Processes :=
      ⟨[.exited 1 [] (Utf8.encode "bad".toList) [("../../work/stray.js", contents)]], []⟩
    let report := build tool (tool.bundle "<TMP>") BuildOptions.unset.resolved (.whole 0) (.whole 0)
      .blank processes
    let run := Program.run "<TMP>" [] (.whole 0) (.whole 0) .blank processes
    report.failsEarly = true ∧ run.result.toOption = some 1 ∧
      FileSystem.blank.tree.get? ["work", "stray.js"] = none ∧
      report.files.tree.get? ["work", "stray.js"] = some (.file contents) ∧
      run.files.tree.get? ["work", "stray.js"] = some (.file contents) := by
  decide +kernel

end EsmBundle
