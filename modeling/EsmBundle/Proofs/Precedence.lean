import EsmBundle.Program
import EsmBundle.Proofs.PrivateDirectory

/-!
Where each option of a run comes from.

The program hands its build one set of options, put together from the command line, the
settings that it found, and defaults. `FirstSource` says field by field which of the three it
is: the command line if it says something that can be used, else the settings if they do, else
the default. A field asks for nothing but its own sources, and a list or map that comes to
nothing at one source leaves the field to the next.

* `Program.run_eq` — a run that has its arguments and settings is the build with those options.
* `firstSource_resolved` — the options are the ones of `FirstSource`.
* `run_takes_first_source` — both, and without settings the options are those of the command
  line alone.
-/

namespace EsmBundle

/-! ### What settings say -/

namespace Settings

/-- The names in a list among settings, none if it is not there. -/
def names (settings : Settings) (key : String) : List String :=
  ((findEntry key settings).map Json.names).getD []

/-- The text among settings, if there is one. -/
def text? (settings : Settings) (key : String) : Option String :=
  (findEntry key settings).bind Json.string?

/-- The truth value among settings, if there is one. -/
def flag? (settings : Settings) (key : String) : Option Bool :=
  (findEntry key settings).bind Json.bool?

/-- The replacements among settings, none if there is no object. -/
def replacements (settings : Settings) (key : String) : Replacements :=
  (((findEntry key settings).bind Json.object?).map Replacements.ofMembers).getD .empty

end Settings

/-! ### The first source of each option -/

/-- Each option is that of the command line if it says something that can be used, else that of the
settings if they do, else the default. -/
structure FirstSource (arguments : Arguments) (settings : Settings) (options : ResolvedOptions) :
    Prop where
  entrypoints :
    let given := (arguments.given.entrypoints ++ arguments.paths).flatMap commaPieces
    let found := settings.names "entrypoints"
    options.entrypoints =
      if given ≠ [] then given else if found ≠ [] then found else ["./main.ts"]
  external :
    let given := arguments.given.external.flatMap commaPieces
    let found := settings.names "external"
    options.external = if given ≠ [] then given else if found ≠ [] then found else []
  outputDir :
    options.outputDir =
      match arguments.given.outputDir, settings.text? "outputDir" with
      | some given, _ => given.path
      | none, some found => found
      | none, none => "dist"
  outputPath :
    options.outputPath =
      match arguments.given.outputPath, settings.text? "outputPath" with
      | some given, _ => some given.path
      | none, some found => some found
      | none, none => none
  minify :
    options.minify =
      match arguments.given.noMinify, arguments.given.minify, settings.flag? "minify" with
      | true, _, _ => false
      | false, true, _ => true
      | false, false, some found => found
      | false, false, none => true
  replace :
    let given := Replacements.ofWords (arguments.given.replace.flatMap commaPieces)
    let found := settings.replacements "replace"
    options.replace =
      if given.keys ≠ [] then given else if found.keys ≠ [] then found else .empty

/-- Every option has one first source. -/
theorem FirstSource.unique {arguments : Arguments} {settings : Settings}
    {options others : ResolvedOptions} (first : FirstSource arguments settings options)
    (second : FirstSource arguments settings others) : options = others := by
  cases options
  cases others
  congr
  · exact first.entrypoints.trans second.entrypoints.symm
  · exact first.external.trans second.external.symm
  · exact first.outputDir.trans second.outputDir.symm
  · exact first.outputPath.trans second.outputPath.symm
  · exact first.minify.trans second.minify.symm
  · exact first.replace.trans second.replace.symm

/-- A list that holds something hides the lists after it, and an empty one does not. -/
theorem getD_or_nonemptyList {α : Type} (first second default : List α) :
    ((nonemptyList first).or (nonemptyList second)).getD default =
      if first ≠ [] then first else if second ≠ [] then second else default := by
  cases first <;> cases second <;> rfl

theorem getD_or_nonemptyReplacements (first second default : Replacements) :
    ((nonemptyReplacements first).or (nonemptyReplacements second)).getD default =
      if first.keys ≠ [] then first else if second.keys ≠ [] then second else default := by
  have held (m : Replacements) :
      nonemptyReplacements m = if m.keys ≠ [] then some m else none := by
    obtain ⟨_ | ⟨entry, rest⟩, distinct⟩ := m <;> rfl
  rw [held, held]
  split
  · rfl
  · split <;> rfl

/-- The lists among settings, and the replacements, are set when they hold something. -/
theorem BuildOptions.ofSettings_eq (settings : Settings) :
    ofSettings settings =
      ⟨nonemptyList (settings.names "entrypoints"), nonemptyList (settings.names "external"),
        (settings.text? "outputDir").map .text, (settings.text? "outputPath").map .text,
        settings.flag? "minify", nonemptyReplacements (settings.replacements "replace")⟩ := by
  have lists (value : Option Json) : (value.bind fun value => nonemptyList value.names) =
      nonemptyList ((value.map Json.names).getD []) := by
    cases value <;> rfl
  have maps (value : Option Json) : (value.bind fun value => value.object?.bind fun members =>
      nonemptyReplacements (.ofMembers members)) =
      nonemptyReplacements
        (((value.bind Json.object?).map Replacements.ofMembers).getD .empty) := by
    cases value with
    | none => rfl
    | some value => cases value <;> rfl
  rw [ofSettings, lists, lists, maps]
  rfl

/-- **The options of a run** are taken from the first source of each. -/
theorem firstSource_resolved (arguments : Arguments) (settings : Settings) :
    FirstSource arguments settings (Program.options arguments settings).resolved := by
  rw [Program.options, BuildOptions.ofSettings_eq]
  constructor
  · exact getD_or_nonemptyList _ _ _
  · exact getD_or_nonemptyList _ _ _
  · show (((arguments.given.outputDir.or _).map OptionValue.path).getD _) = _
    cases arguments.given.outputDir with
    | some given => rfl
    | none => cases settings.text? "outputDir" <;> rfl
  · show (arguments.given.outputPath.or _).map OptionValue.path = _
    cases arguments.given.outputPath with
    | some given => rfl
    | none => cases settings.text? "outputPath" <;> rfl
  · show (Option.or (if arguments.given.noMinify then _ else _) _).getD true = _
    cases arguments.given.noMinify with
    | true => rfl
    | false =>
      cases arguments.given.minify with
      | true => rfl
      | false => cases settings.flag? "minify" <;> rfl
  · exact getD_or_nonemptyReplacements _ _ _

/-- Without settings only the command line counts, whether or not it says if to minify. -/
theorem resolved_options_nil (arguments : Arguments) :
    (Program.options arguments []).resolved = arguments.optionsAlone.resolved := by
  have unset : BuildOptions.ofSettings [] = .unset := rfl
  rw [Program.options, unset, BuildOptions.merged, BuildOptions.unset, BuildOptions.resolved]
  simp only [Option.or_none]
  rfl

/-! ### The run -/

namespace Program

/-- The report of a run from the report of its build. -/
def conclude (settings : Settings) (report : BuildReport) : ProgramReport :=
  let loaded := if settings.isEmpty then [] else ["Loaded config"]
  let stderr := logText (loaded ++ report.log)
  match report.result with
  | .ok result => ⟨.ok 0, resultText result, stderr, report.files, report.processes⟩
  | .error error =>
    match toolError? error with
    | some error => ⟨.ok 1, "", stderr ++ toolErrorText error, report.files, report.processes⟩
    | none => ⟨.error (.build error), "", stderr, report.files, report.processes⟩

variable {words : List String} {arguments : Arguments} {files : FileSystem} {settings : Settings}

/-- A run that has its arguments and its settings is its build, and the report on it. -/
theorem run_eq (parsed : Arguments.parse words = .ok arguments)
    (found : Settings.ofOption files arguments.given.config = .ok settings) (scratch : String)
    (start stop : Reading) (processes : Processes) :
    let tool : Tool := ⟨executable arguments settings, none⟩
    run scratch words start stop files processes =
      conclude settings (build tool (tool.bundle scratch) (options arguments settings).resolved
        start stop files processes) := by
  simp only [run, parsed, found]
  rfl

end Program

/-- **A run builds with the first source of each option**: with what its command line says, else
with what the settings say that it finds, else with the default. Without settings it builds with
what the command line says alone. -/
theorem run_takes_first_source {words : List String} {arguments : Arguments} {files : FileSystem}
    {settings : Settings} (parsed : Arguments.parse words = .ok arguments)
    (found : Settings.ofOption files arguments.given.config = .ok settings) (scratch : String)
    (start stop : Reading) (processes : Processes) :
    let tool : Tool := ⟨Program.executable arguments settings, none⟩
    let options := (Program.options arguments settings).resolved
    Program.run scratch words start stop files processes =
        Program.conclude settings
          (build tool (tool.bundle scratch) options start stop files processes) ∧
      FirstSource arguments settings options ∧
      (settings = [] → options = arguments.optionsAlone.resolved) := by
  refine ⟨Program.run_eq parsed found scratch start stop processes,
    firstSource_resolved arguments settings, ?_⟩
  rintro rfl
  exact resolved_options_nil arguments

/-- A list of commas alone and a replacement without a search text leave their options to the
settings, the switch does not, and a path that is no text leaves its option to the default. -/
theorem run_takes_first_source_of_project :
    let words := ["-e", ",", "-r", "=x", "--no-minify", "main.ts"]
    let text := "\x7b\"external\":\"h3,,hono\",\"outputDir\":3,\"minify\":true," ++
      "\"replace\":\x7b\"a\":\"b\"\x7d\x7d"
    let files : FileSystem := { FileSystem.blank with
      tree := FileSystem.blank.tree.plant ["work", Settings.fileName]
        (.file (Utf8.encode text.toList)) }
    let processes : Processes := ⟨[.exited 1 [] (Utf8.encode "bad".toList) []], []⟩
    let tool : Tool := ⟨"deno", none⟩
    let options : ResolvedOptions :=
      ⟨["main.ts"], ["h3", "hono"], "dist", none, false, .ofList [("a", "b")]⟩
    ∃ settings, Settings.ofOption files none = .ok settings ∧
      Program.run "<TMP>" words (.whole 0) (.whole 0) files processes =
        Program.conclude settings
          (build tool (tool.bundle "<TMP>") options (.whole 0) (.whole 0) files processes) := by
  intro words text files processes tool options
  let arguments : Arguments :=
    ⟨⟨[], [","], ["=x"], none, none, none, none, false, true⟩, ["main.ts"]⟩
  have parsed : Arguments.parse words = .ok arguments := eq_ok_of_toOption (by decide +kernel)
  have read : (Settings.ofOption files none).toOption.map (fun settings : Settings =>
      ((settings.names "external", (settings.replacements "replace").entries),
        settings.text? "outputDir", settings.text? "outputPath",
        Program.executable arguments settings)) =
      some ((["h3", "hono"], [("a", "b")]), none, none, "deno") := by
    decide +kernel
  obtain ⟨settings, isThere, told⟩ := Option.map_eq_some_iff.mp read
  simp only [Prod.mk.injEq] at told
  obtain ⟨⟨external, replace⟩, outputDir, outputPath, executable⟩ := told
  have found : Settings.ofOption files none = .ok settings := eq_ok_of_toOption isThere
  have isFirst : FirstSource arguments settings options := by
    have named : (arguments.given.entrypoints ++ arguments.paths).flatMap commaPieces =
        ["main.ts"] := by decide +kernel
    constructor
    · rw [named]
      rfl
    · rw [external]
      decide +kernel
    · rw [outputDir]
    · rw [outputPath]
    · rfl
    · rw [OrderedMap.ext (n := .ofList [("a", "b")]) replace]
      rfl
  obtain ⟨runs, first, -⟩ :=
    run_takes_first_source parsed found "<TMP>" (.whole 0) (.whole 0) processes
  rw [executable, first.unique isFirst] at runs
  exact ⟨settings, found, runs⟩

end EsmBundle
