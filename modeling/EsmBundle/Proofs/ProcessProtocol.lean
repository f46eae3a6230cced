import EsmBundle.Proofs.BuildStages
import EsmBundle.Proofs.Graph.Load
import EsmBundle.Proofs.PrivateDirectory
import EsmBundle.Proofs.Precedence
import EsmBundle.Proofs.SettingsSearch

/-!
Which processes a run starts, and in which order.

With something external, a build starts one process for each entry point, up to the first that
fails. When none fails, or nothing is external, it goes on to bundle, which is one more process.
A run of the program is at most one build, with one executable.

* `Processes.after` — a process takes the next outcome, and the calls are in order.
* `BuildStarts` — the calls of a build, told by its options and the outcomes alone.
* `build_starts` — a build makes these calls.
* `Program.run_starts` — a run makes none, or those of one build.
* `Program.run_of_not_holdsSettings` — a run that is asked for settings where there are
  none starts nothing, and when it ends with status 1.
-/

namespace EsmBundle

/-! ### Calls in order -/

/-- The processes when these calls were made, each with the outcome that was next. -/
def Processes.after (processes : Processes) (calls : List Call) : Processes :=
  ⟨processes.pending.drop calls.length, processes.calls ++ calls⟩

/-- Calls after other calls. -/
theorem Processes.after_append (processes : Processes) (first second : List Call) :
    (processes.after first).after second = processes.after (first ++ second) := by
  simp [after]

/-- Without a call nothing changes. -/
@[simp]
theorem Processes.after_nil (processes : Processes) : processes.after [] = processes := by
  simp [after]

/-- The processes of entry points are calls in their order. -/
theorem Processes.afterInfo_eq_after (processes : Processes) (tool : Tool)
    (entries : List String) :
    processes.afterInfo tool entries = processes.after (entries.map tool.infoCall) := by
  simp [afterInfo, after]

/-- A run of the tool is one call. -/
theorem Tool.processes_run (tool : Tool) (args : List String) (processes : Processes) :
    (tool.run args processes).2 = processes.after [⟨tool.executable :: args, tool.cwd⟩] := by
  simp [run, Processes.start, Processes.after]

/-! ### The calls of a build -/

/-- A call that bundles: packages are external exactly when something is, each external name has
its own flag, and the entry points are last, all in their order. -/
structure IsBundleCall (bundler : Tool) (options : ResolvedOptions) (call : Call) : Prop where
  cwd : call.cwd = bundler.cwd
  command : ∃ flag path, (flag = "--output" ∨ flag = "--outdir") ∧
    call.command =
      [bundler.executable, "bundle", "--format", "esm", "--packages",
          if options.external = [] then "bundle" else "external"] ++
        (if options.minify then ["--minify"] else []) ++
        options.external.flatMap (fun name => ["--external", name]) ++
        [flag, path] ++ options.entrypoints

/-- The calls of bundling: one where there is a directory for temporary files, and else none. -/
inductive BundlingStarts (bundler : Tool) (options : ResolvedOptions) (files : FileSystem) :
    List Call → Prop where
  | started {call : Call} :
      files.tree.get? files.temporary = some .directory → IsBundleCall bundler options call →
      BundlingStarts bundler options files [call]
  | noDirectory :
      files.tree.get? files.temporary ≠ some .directory → BundlingStarts bundler options files []

/-- The calls of a build: those of bundling alone when nothing is external; else one for each entry
point and then those of bundling; or those up to the first entry point that fails. -/
inductive BuildStarts (loader bundler : Tool) (options : ResolvedOptions) (files : FileSystem)
    (processes : Processes) : List Call → Prop where
  | bundled {calls : List Call} :
      options.external = [] → BundlingStarts bundler options files calls →
      BuildStarts loader bundler options files processes calls
  | loaded {calls : List Call} :
      options.external ≠ [] →
      (∀ i < options.entrypoints.length, ∃ document, (processes.outcome i).Describes document) →
      BundlingStarts bundler options files calls →
      BuildStarts loader bundler options files processes
        (options.entrypoints.map loader.infoCall ++ calls)
  | failed {k : Nat} :
      options.external ≠ [] → k < options.entrypoints.length →
      (∀ i < k, ∃ document, (processes.outcome i).Describes document) →
      (¬ ∃ document, (processes.outcome k).Describes document) →
      BuildStarts loader bundler options files processes
        ((options.entrypoints.take (k + 1)).map loader.infoCall)

section Build

variable {loader bundler : Tool} {options : ResolvedOptions} {files : FileSystem}

/-- A private directory is made exactly below a directory for temporary files. -/
theorem openScratch_isOk_iff (files : FileSystem) (scratch : String) :
    (∃ opened, files.openScratch scratch = .ok opened) ↔
      files.tree.get? files.temporary = some .directory := by
  constructor
  · rintro ⟨opened, isOpen⟩
    exact temporary_of_openScratch isOpen
  · intro isThere
    rw [FileSystem.openScratch, isThere]
    exact ⟨_, rfl⟩

/-- Bundling takes no process without its private directory, and one call with it. -/
theorem processes_bundle (tool : Tool) (scratch : String) (request : BundleRequest)
    (files : FileSystem) (processes : Processes) :
    (tool.bundle scratch request files processes).processes =
      if files.tree.get? files.temporary = some .directory then
        processes.after [⟨tool.executable :: request.arguments scratch, tool.cwd⟩]
      else processes := by
  cases isOpen : files.openScratch scratch with
  | error error =>
    have missing : files.tree.get? files.temporary ≠ some .directory := by
      intro isThere
      obtain ⟨opened, opens⟩ := (openScratch_isOk_iff files scratch).mpr isThere
      rw [isOpen] at opens
      cases opens
    rw [if_neg missing, Tool.bundle, isOpen]
  | ok opened =>
    rw [if_pos (temporary_of_openScratch isOpen), ← Tool.processes_run, Tool.bundle, isOpen]
    dsimp only
    split <;> rfl

/-- The arguments of the bundler name one place for the output, right before the entry points. -/
theorem bundleArguments_eq (request : BundleRequest) (outdir output : Option String) :
    ∃ flag path, (flag = "--output" ∨ flag = "--outdir") ∧
      bundleArguments request outdir output =
        ["bundle", "--format", "esm", "--packages", request.packages] ++
          (if request.minify then ["--minify"] else []) ++
          request.external.flatMap (fun name => ["--external", name]) ++
          [flag, path] ++ request.entrypoints := by
  unfold bundleArguments
  cases nonempty output with
  | some output => exact ⟨"--output", output, .inl rfl, rfl⟩
  | none => exact ⟨"--outdir", (nonempty outdir).getD ".", .inr rfl, rfl⟩

/-- Packages are external in a build exactly when something is. -/
theorem packagesMode_of_isBuildMap {processes : Processes} {mappings : Option SpecifierMap}
    (isMap : IsBuildMap loader options processes mappings) :
    packagesMode mappings = if options.external = [] then "bundle" else "external" := by
  cases mappings with
  | none =>
    have nothing : options.external = [] := isMap
    rw [if_pos nothing]
    rfl
  | some mappings =>
    rw [if_neg isMap.1]
    rfl

/-- The call of a build that bundles has the form that it should. -/
theorem isBundleCall_of_isBuildMap {processes : Processes} {mappings : Option SpecifierMap}
    (isMap : IsBuildMap loader options processes mappings) (scratch : String) :
    IsBundleCall bundler options ⟨bundler.executable ::
      (BundleRequest.ofOptions options mappings).arguments scratch, bundler.cwd⟩ := by
  have form (outdir output : Option String) :=
    bundleArguments_eq (BundleRequest.ofOptions options mappings) outdir output
  have mode : (BundleRequest.ofOptions options mappings).packages =
      if options.external = [] then "bundle" else "external" := packagesMode_of_isBuildMap isMap
  simp only [mode] at form
  refine ⟨rfl, ?_⟩
  unfold BundleRequest.arguments
  split
  · obtain ⟨flag, path, known, same⟩ := form none (some _)
    exact ⟨flag, path, known, congrArg (bundler.executable :: ·) same⟩
  · obtain ⟨flag, path, known, same⟩ := form (some scratch) none
    exact ⟨flag, path, known, congrArg (bundler.executable :: ·) same⟩

/-- Bundling in a build makes its calls. -/
theorem bundlingStarts_of_isBuildMap {processes : Processes} {mappings : Option SpecifierMap}
    (isMap : IsBuildMap loader options processes mappings) (bundler : Tool) (scratch : String)
    (files : FileSystem) (before : Processes) :
    ∃ calls, BundlingStarts bundler options files calls ∧
      (bundler.bundle scratch (.ofOptions options mappings) files before).processes =
        before.after calls := by
  rw [processes_bundle]
  split
  · rename_i isThere
    exact ⟨_, .started isThere (isBundleCall_of_isBuildMap isMap scratch), rfl⟩
  · rename_i missing
    exact ⟨[], .noDirectory missing, before.after_nil.symm⟩

/-- A build that has its map leaves the processes that bundling leaves. -/
theorem processes_build_of_isBuildMap {bundling : Bundler} {processes : Processes}
    {mappings : Option SpecifierMap} (isMap : IsBuildMap loader options processes mappings)
    (start stop : Reading) :
    (build loader bundling options start stop files processes).processes =
      (bundling (.ofOptions options mappings) files
        (processesForBundle loader options processes)).processes := by
  rw [processes_build, prepare_of_isBuildMap isMap]

/-- With something external, the map is there when the graph is. -/
theorem SpecifierMap.build_of_load_eq_ok {tool : Tool} {external entrypoints : List String}
    {processes after : Processes} {graph : ModuleGraph} (something : external ≠ [])
    (loaded : ModuleGraph.load tool entrypoints processes = (.ok graph, after)) :
    build tool external entrypoints processes = (.ok (some (ofGraph graph external)), after) := by
  rw [build, if_neg (by simpa using something), loaded]

/-- With something external, there is no map without the graph. -/
theorem SpecifierMap.build_of_load_eq_error {tool : Tool} {external entrypoints : List String}
    {processes after : Processes} {error : LoadError} (something : external ≠ [])
    (failed : ModuleGraph.load tool entrypoints processes = (.error error, after)) :
    build tool external entrypoints processes = (.error error, after) := by
  rw [build, if_neg (by simpa using something), failed]

/-- **The calls of a build** are told by its options and the outcomes. -/
theorem build_starts (loader bundler : Tool) (scratch : String) (options : ResolvedOptions)
    (start stop : Reading) (files : FileSystem) (processes : Processes) :
    ∃ calls, BuildStarts loader bundler options files processes calls ∧
      (build loader (bundler.bundle scratch) options start stop files processes).processes =
        processes.after calls := by
  by_cases nothing : options.external = []
  · have isMap : IsBuildMap loader options processes none := nothing
    have before : processesForBundle loader options processes = processes := by
      rw [processesForBundle, SpecifierMap.build, nothing]
      rfl
    obtain ⟨calls, starts, same⟩ :=
      bundlingStarts_of_isBuildMap isMap bundler scratch files processes
    refine ⟨calls, .bundled nothing starts, ?_⟩
    rw [processes_build_of_isBuildMap isMap, before, same]
  · rcases ModuleGraph.describes_or_first_failure loader options.entrypoints processes with
      ⟨documents, length, described⟩ | ⟨k, error, inside, described, failure⟩
    · have loads := @SpecifierMap.build_of_load_eq_ok loader _ _ _ _ _ nothing
        (ModuleGraph.loadInto_of_describes length described)
      have isMap := isBuildMap_of_build_eq_ok (congrArg Prod.fst loads)
      have before : processesForBundle loader options processes =
          processes.after (options.entrypoints.map loader.infoCall) := by
        rw [processesForBundle, loads, Processes.afterInfo_eq_after]
      obtain ⟨calls, starts, same⟩ := bundlingStarts_of_isBuildMap isMap bundler scratch files
        (processesForBundle loader options processes)
      refine ⟨_, .loaded nothing (fun i below => ?_) starts, ?_⟩
      · exact ⟨documents[i], described i (length ▸ below)⟩
      · rw [processes_build_of_isBuildMap isMap, same, before, Processes.after_append]
    · have fails := SpecifierMap.build_of_load_eq_error nothing
        (ModuleGraph.loadInto_of_failure inside described failure)
      refine ⟨_, .failed nothing inside described ?_, ?_⟩
      · rintro ⟨document, describes⟩
        exact ModuleGraph.not_describes_of_failure failure document describes
      · rw [processes_build, prepare_of_load_error fails, Processes.afterInfo_eq_after]

end Build

/-! ### Settings that are asked for -/

/-- The value of an option is the path of a text file, and reading it as a document comes to
this. -/
def FileSystem.ReadsAs (files : FileSystem) (value : OptionValue)
    (outcome : Except Json.ReadError Json) : Prop :=
  ∃ path contents cs, value = .text path ∧ files.read path = .ok contents ∧
    Utf8.decode contents = .ok cs ∧ Json.parse (String.ofList (unifyLineBreaks cs)) = outcome

/-- There are settings at the value of an option: it is the path of a file with an object. -/
def FileSystem.HoldsSettings (files : FileSystem) (value : OptionValue) : Prop :=
  ∃ members, files.ReadsAs value (.ok (.object members))

/-- The value of an option is no path, or that of a file in which collections are nested too
deeply. -/
def FileSystem.IsBeyond (files : FileSystem) (value : OptionValue) : Prop :=
  value = .void ∨ ∃ collection, files.ReadsAs value (.error (.excessive (.depth collection)))

theorem FileSystem.readsAs_text_iff {files : FileSystem} {path : String}
    {outcome : Except Json.ReadError Json} :
    files.ReadsAs (.text path) outcome ↔
      ∃ contents cs, files.read path = .ok contents ∧ Utf8.decode contents = .ok cs ∧
        Json.parse (String.ofList (unifyLineBreaks cs)) = outcome := by
  constructor
  · rintro ⟨path', contents, cs, same, rest⟩
    obtain rfl := OptionValue.text.inj same
    exact ⟨contents, cs, rest⟩
  · rintro ⟨contents, cs, rest⟩
    exact ⟨path, contents, cs, rfl, rest⟩

/-- What a text file reads as is told by its text. -/
theorem FileSystem.readsAs_iff {files : FileSystem} {path : String} {contents : Bytes}
    {cs : List Char} (found : files.read path = .ok contents)
    (decoded : Utf8.decode contents = .ok cs) (outcome : Except Json.ReadError Json) :
    files.ReadsAs (.text path) outcome ↔
      Json.parse (String.ofList (unifyLineBreaks cs)) = outcome := by
  simp [readsAs_text_iff, found, decoded]

/-- A path of no text file is not beyond what can be read. -/
theorem FileSystem.not_isBeyond_of_forall {files : FileSystem} {path : String}
    (noText : ∀ outcome, ¬ files.ReadsAs (.text path) outcome) :
    ¬ files.IsBeyond (.text path) := by
  rintro (void | ⟨collection, reads⟩)
  · cases void
  · exact noText _ reads

/-- Where there are no settings, reading them fails, and the failure is a fault exactly when the
document is too deep. -/
theorem Settings.read_of_not_holdsSettings {files : FileSystem} {path : String}
    (missing : ¬ files.HoldsSettings (.text path)) :
    ∃ error, read files path = .error error ∧
      (error.isFault = true ↔ files.IsBeyond (.text path)) := by
  unfold read
  cases found : files.read path with
  | error error =>
    have noText : ∀ outcome, ¬ files.ReadsAs (.text path) outcome := by
      simp [FileSystem.readsAs_text_iff, found]
    exact ⟨.access error, rfl, by simp [Error.isFault, FileSystem.not_isBeyond_of_forall noText]⟩
  | ok contents =>
    cases decoded : Utf8.decode contents with
    | error error =>
      have noText : ∀ outcome, ¬ files.ReadsAs (.text path) outcome := by
        simp [FileSystem.readsAs_text_iff, found, decoded]
      dsimp only
      rw [documentOf_of_decode_eq_error decoded]
      exact ⟨.encoding error, rfl,
        by simp [Error.isFault, FileSystem.not_isBeyond_of_forall noText]⟩
    | ok cs =>
      have reads := FileSystem.readsAs_iff found decoded
      simp only [FileSystem.HoldsSettings, reads] at missing
      simp only [FileSystem.IsBeyond, reads, documentOf_of_decode_eq_ok decoded]
      cases parsed : Json.parse (String.ofList (unifyLineBreaks cs)) with
      | error error =>
        refine ⟨.json error, rfl, ?_⟩
        cases error with
        | malformed problem => simp [Error.isFault]
        | excessive excess => cases excess <;> simp [Error.isFault]
      | ok document =>
        cases document with
        | object members => exact absurd ⟨members, parsed⟩ missing
        | _ => exact ⟨.notObject path, rfl, by simp [Error.isFault]⟩

/-- Where there are no settings that are asked for, the program gets none. -/
theorem Settings.ofOption_of_not_holdsSettings {files : FileSystem} {value : OptionValue}
    (missing : ¬ files.HoldsSettings value) :
    ∃ error, ofOption files (some value) = .error error ∧
      (error.isFault = true ↔ isUnlinked files.cwd = false ∧ files.IsBeyond value) := by
  unfold ofOption
  cases unlinked : isUnlinked files.cwd with
  | true => exact ⟨.noDirectory, rfl, by simp [Error.isFault]⟩
  | false =>
    cases value with
    | void => exact ⟨.voidPath, rfl, by simp [Error.isFault, FileSystem.IsBeyond]⟩
    | text path =>
      obtain ⟨error, read, fault⟩ := read_of_not_holdsSettings missing
      exact ⟨error, read, by simp [fault]⟩

namespace Json

/-- Reading a value ends early at more brackets than there may be levels. -/
theorem readValue_of_brackets {depth fuel : Nat} (enough : 2 * depth < fuel) (rest : List Char) :
    readValue fuel depth (List.replicate (depth + 1) '[' ++ rest) =
      .error (.excessive (.depth .array)) := by
  induction depth generalizing fuel with
  | zero =>
    obtain ⟨fuel, rfl⟩ := Nat.exists_eq_add_of_lt enough
    rfl
  | succ depth ih =>
    obtain ⟨fuel, rfl⟩ : ∃ n, fuel = n + 2 := ⟨fuel - 2, by omega⟩
    have inner := @ih fuel (by omega)
    rw [List.replicate_succ, List.cons_append] at inner
    rw [List.replicate_succ, List.replicate_succ, List.cons_append, List.cons_append]
    have noSpace (cs : List Char) : skipSpace ('[' :: cs) = '[' :: cs := by
      simp [skipSpace, isSpace]
    simp [readValue, noSpace, readItems, inner]

/-- A text that begins with more brackets than there may be levels is too deep to be a document. -/
theorem parse_of_brackets (rest : List Char) :
    parse (String.ofList (List.replicate (Bounds.documentLevels + 1) '[' ++ rest)) =
      .error (.excessive (.depth .array)) := by
  generalize text : List.replicate (Bounds.documentLevels + 1) '[' ++ rest = cs
  have first : cs = '[' :: cs.tail := by
    rw [← text, List.replicate_succ]
    rfl
  have noSpace : skipSpace cs = cs := by
    rw [first]
    simp [skipSpace, isSpace]
  have noMark : cs.head? ≠ some '\uFEFF' := by
    rw [first]
    simp
  have long : 2 * Bounds.documentLevels < 2 * cs.length + 2 := by
    rw [← text, List.length_append, List.length_replicate]
    omega
  have stops : readDocument cs = .error (.excessive (.depth .array)) := by
    rw [readDocument, if_neg noMark, noSpace, ← text, readValue_of_brackets (text ▸ long)]
  rw [parse, String.toList_ofList, stops]
  rfl

end Json

/-! ### The calls of a run -/

/-- With one tool for both purposes, all calls of a build name its executable. -/
theorem BuildStarts.head?_command {tool : Tool} {options : ResolvedOptions} {files : FileSystem}
    {processes : Processes} {calls : List Call}
    (starts : BuildStarts tool tool options files processes calls) :
    ∀ call ∈ calls, call.command.head? = some tool.executable := by
  have ofInfo {entries : List String} {call : Call} (mem : call ∈ entries.map tool.infoCall) :
      call.command.head? = some tool.executable := by
    obtain ⟨entry, -, rfl⟩ := List.mem_map.mp mem
    rfl
  have ofBundling {calls : List Call} (starts : BundlingStarts tool options files calls)
      {call : Call} (mem : call ∈ calls) : call.command.head? = some tool.executable := by
    cases starts with
    | started isThere form =>
      obtain rfl := List.mem_singleton.mp mem
      obtain ⟨flag, path, -, same⟩ := form.command
      rw [same]
      rfl
    | noDirectory missing => cases mem
  intro call mem
  cases starts with
  | bundled nothing bundling => exact ofBundling bundling mem
  | loaded something described bundling =>
    rcases List.mem_append.mp mem with info | bundle
    · exact ofInfo info
    · exact ofBundling bundling bundle
  | failed something inside described failure => exact ofInfo mem

namespace Program

variable {words : List String} {arguments : Arguments} {files : FileSystem}

/-- The calls of a run all name one executable. They are those of its build if it has its arguments
and its settings, and else there are none. -/
structure Starts (words : List String) (files : FileSystem) (processes : Processes)
    (executable : String) (calls : List Call) : Prop where
  oneExecutable : ∀ call ∈ calls, call.command.head? = some executable
  ofBuild : ∀ arguments settings, Arguments.parse words = .ok arguments →
    Settings.ofOption files arguments.given.config = .ok settings →
    executable = Program.executable arguments settings ∧
      BuildStarts ⟨executable, none⟩ ⟨executable, none⟩ (options arguments settings).resolved
        files processes calls
  ofNoBuild : (¬ ∃ arguments settings, Arguments.parse words = .ok arguments ∧
    Settings.ofOption files arguments.given.config = .ok settings) → calls = []

/-- A run that has no build makes no call. -/
theorem starts_nil {processes : Processes} {executable : String}
    (noBuild : ∀ arguments settings, Arguments.parse words = .ok arguments →
      Settings.ofOption files arguments.given.config ≠ .ok settings) :
    Starts words files processes executable [] where
  oneExecutable := by simp
  ofBuild := fun arguments settings parsed found =>
    absurd found (noBuild arguments settings parsed)
  ofNoBuild := fun _ => rfl

/-- **The calls of a run** are those of one build with one executable. -/
theorem run_starts (scratch : String) (words : List String) (start stop : Reading)
    (files : FileSystem) (processes : Processes) :
    ∃ executable calls, Starts words files processes executable calls ∧
      (run scratch words start stop files processes).processes = processes.after calls := by
  cases parsed : Arguments.parse words with
  | error halt =>
    refine ⟨"deno", [], starts_nil ?_, ?_⟩
    · intro arguments settings given
      rw [parsed] at given
      cases given
    · rw [run, parsed, Processes.after_nil]
  | ok arguments =>
    cases found : Settings.ofOption files arguments.given.config with
    | error error =>
      refine ⟨"deno", [], starts_nil ?_, ?_⟩
      · intro arguments' settings given
        rw [parsed] at given
        obtain rfl := Except.ok.inj given
        rw [found]
        rintro ⟨⟩
      · simp only [run, parsed, found, Processes.after_nil]
        split <;> rfl
    | ok settings =>
      obtain ⟨calls, starts, same⟩ := build_starts ⟨executable arguments settings, none⟩
        ⟨executable arguments settings, none⟩ scratch (options arguments settings).resolved start
        stop files processes
      refine ⟨executable arguments settings, calls, ⟨starts.head?_command, ?_, ?_⟩, ?_⟩
      · intro arguments' settings' given found'
        rw [parsed] at given
        obtain rfl := Except.ok.inj given
        rw [found] at found'
        obtain rfl := Except.ok.inj found'
        exact ⟨rfl, starts⟩
      · intro noBuild
        exact absurd ⟨arguments, settings, parsed, found⟩ noBuild
      · rw [run_eq parsed found, ← same]
        unfold conclude
        dsimp only
        split
        · rfl
        · split <;> rfl

/-- A run that is asked for settings where there are none makes no call, and ends with status 1
unless the value is void or the document too deep. -/
theorem run_of_not_holdsSettings {value : OptionValue}
    (parsed : Arguments.parse words = .ok arguments)
    (asked : arguments.given.config = some value) (missing : ¬ files.HoldsSettings value)
    (scratch : String) (start stop : Reading) (processes : Processes) :
    (run scratch words start stop files processes).processes = processes ∧
      ((run scratch words start stop files processes).result = .ok 1 ↔
        isUnlinked files.cwd = true ∨ ¬ files.IsBeyond value) := by
  obtain ⟨error, found, fault⟩ := Settings.ofOption_of_not_holdsSettings missing
  rw [run, parsed]
  dsimp only
  rw [asked, found]
  dsimp only
  split
  · rename_i isFault
    obtain ⟨linked, beyond⟩ := fault.mp isFault
    simp [linked, beyond]
  · rename_i plain
    refine ⟨rfl, iff_of_true rfl ?_⟩
    cases unlinked : isUnlinked files.cwd with
    | true => exact .inl rfl
    | false => exact .inr fun beyond => plain (fault.mpr ⟨unlinked, beyond⟩)

end Program

/-- **The processes of a build and of a run.** A build makes the calls that its options and the
outcomes tell. A run makes those of its build, all with one executable. A run that is asked
for settings where there are none makes no call, and ends with status 1 exactly when the value of
the option is not void and no document is too deep there, or the working directory is gone. -/
theorem process_protocol (scratch : String) (start stop : Reading) (files : FileSystem)
    (processes : Processes) :
    (∀ (loader bundler : Tool) (options : ResolvedOptions),
      ∃ calls, BuildStarts loader bundler options files processes calls ∧
        (build loader (bundler.bundle scratch) options start stop files processes).processes =
          processes.after calls) ∧
      (∀ words : List String,
        ∃ executable calls, Program.Starts words files processes executable calls ∧
          (Program.run scratch words start stop files processes).processes =
            processes.after calls) ∧
      ∀ words arguments value, Arguments.parse words = .ok arguments →
        arguments.given.config = some value → ¬ files.HoldsSettings value →
        (Program.run scratch words start stop files processes).processes = processes ∧
          ((Program.run scratch words start stop files processes).result = .ok 1 ↔
            isUnlinked files.cwd = true ∨ ¬ files.IsBeyond value) := by
  refine ⟨?_, ?_, ?_⟩
  · intro loader bundler options
    exact build_starts loader bundler scratch options start stop files processes
  · intro words
    exact Program.run_starts scratch words start stop files processes
  · intro words arguments value parsed asked missing
    exact Program.run_of_not_holdsSettings parsed asked missing scratch start stop processes

/-- Nothing is at a path in an empty directory, so a run that is asked for settings there starts
nothing and ends with status 1. -/
theorem process_protocol_without_file :
    let words := ["--config", "bundle.json", "-e", "h3", "main.ts"]
    let processes : Processes := ⟨[.exited 0 [] [] []], []⟩
    ¬ FileSystem.blank.HoldsSettings (.text "bundle.json") ∧
      (Program.run "<TMP>" words (.whole 0) (.whole 0) .blank processes).processes = processes ∧
      (Program.run "<TMP>" words (.whole 0) (.whole 0) .blank processes).result = .ok 1 := by
  intro words processes
  let arguments : Arguments :=
    ⟨⟨[], ["h3"], [], none, none, some (.text "bundle.json"), none, false, false⟩, ["main.ts"]⟩
  have parsed : Arguments.parse words = .ok arguments := eq_ok_of_toOption (by decide +kernel)
  have noFile : (FileSystem.blank.read "bundle.json").toOption = none := by decide +kernel
  have noText (outcome : Except Json.ReadError Json) :
      ¬ FileSystem.blank.ReadsAs (.text "bundle.json") outcome := by
    rw [FileSystem.readsAs_text_iff]
    rintro ⟨contents, cs, found, -⟩
    rw [found] at noFile
    cases noFile
  have missing : ¬ FileSystem.blank.HoldsSettings (.text "bundle.json") := by
    rintro ⟨members, reads⟩
    exact noText _ reads
  obtain ⟨calls, status⟩ := (process_protocol "<TMP>" (.whole 0) (.whole 0) .blank processes).2.2
    words arguments _ parsed rfl missing
  exact ⟨missing, calls, status.mpr (.inr (FileSystem.not_isBeyond_of_forall noText))⟩

/-- Neither the separator as the value of the option nor the path of a file with too many brackets
gives settings, and neither run ends with status 1. -/
theorem run_beyond_status_one :
    let files : FileSystem := { FileSystem.blank with
      tree := FileSystem.blank.tree.plant ["work", "deep.json"]
        (.file (List.replicate (Bounds.documentLevels + 1) 91)) }
    ∀ given ∈ [("--config=--", OptionValue.void), ("--config=deep.json", .text "deep.json")],
      ∃ arguments, Arguments.parse [given.1] = .ok arguments ∧
        arguments.given.config = some given.2 ∧ ¬ files.HoldsSettings given.2 ∧
        (Program.run "<TMP>" [given.1] (.whole 0) (.whole 0) files ⟨[], []⟩).result ≠ .ok 1 := by
  intro files
  have found : files.read "deep.json" = .ok (List.replicate (Bounds.documentLevels + 1) 91) :=
    eq_ok_of_toOption (by decide +kernel)
  have decoded : Utf8.decode (List.replicate (Bounds.documentLevels + 1) 91) =
      .ok (List.replicate (Bounds.documentLevels + 1) '[') := eq_ok_of_toOption (by decide +kernel)
  have unified : unifyLineBreaks (List.replicate (Bounds.documentLevels + 1) '[') =
      List.replicate (Bounds.documentLevels + 1) '[' := by decide +kernel
  have parsed : Json.parse (String.ofList (unifyLineBreaks
      (List.replicate (Bounds.documentLevels + 1) '['))) = .error (.excessive (.depth .array)) := by
    rw [unified, ← List.append_nil (List.replicate _ _)]
    exact Json.parse_of_brackets []
  have reads := FileSystem.readsAs_iff found decoded
  -- Such a value gives no settings and is a fault, so status 1 is not how the run ends.
  have notOne {word : String} {arguments : Arguments} {value : OptionValue}
      (given : Arguments.parse [word] = .ok arguments)
      (asked : arguments.given.config = some value) (missing : ¬ files.HoldsSettings value)
      (beyond : files.IsBeyond value) :
      (Program.run "<TMP>" [word] (.whole 0) (.whole 0) files ⟨[], []⟩).result ≠ .ok 1 := by
    intro ended
    rcases (Program.run_of_not_holdsSettings given asked missing _ _ _ _).2.mp ended with
      unlinked | readable
    · exact absurd unlinked (by decide)
    · exact readable beyond
  intro given mem
  simp only [List.mem_cons, List.not_mem_nil, or_false] at mem
  rcases mem with rfl | rfl
  · have given : Arguments.parse ["--config=--"] =
        .ok ⟨⟨[], [], [], none, none, some .void, none, false, false⟩, []⟩ :=
      eq_ok_of_toOption (by decide +kernel)
    have missing : ¬ files.HoldsSettings .void := by
      rintro ⟨members, path, contents, cs, same, -⟩
      cases same
    exact ⟨_, given, rfl, missing, notOne given rfl missing (.inl rfl)⟩
  · have given : Arguments.parse ["--config=deep.json"] =
        .ok ⟨⟨[], [], [], none, none, some (.text "deep.json"), none, false, false⟩, []⟩ :=
      eq_ok_of_toOption (by decide +kernel)
    have missing : ¬ files.HoldsSettings (.text "deep.json") := by
      rintro ⟨members, object⟩
      rw [reads, parsed] at object
      cases object
    exact ⟨_, given, rfl, missing,
      notOne given rfl missing (.inr ⟨.array, (reads _).mpr parsed⟩)⟩

end EsmBundle
