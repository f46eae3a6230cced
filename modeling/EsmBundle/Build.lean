import EsmBundle.Bundler
import EsmBundle.Clock
import EsmBundle.FileTree.System
import EsmBundle.Options
import EsmBundle.SpecifierMap

/-!
A build from beginning to end: the map of the external packages, the bundle, and
every artifact finished and written.

All texts are there before the first of them is written. A failure ends the
build at once; what was written before it stays.
-/

namespace EsmBundle

/-! ### Results -/

/-- A finished build: how many milliseconds it took and the paths that were written. -/
structure BuildResult where
  duration : Int
  outputFiles : List String
deriving DecidableEq, Repr

/-- Why a build fails. -/
inductive BuildError where
  | load (error : LoadError)
  | bundle (error : BundleError)
  | write (error : PathError)
  | clock (fault : ClockFault)
deriving DecidableEq, Repr

/-- The wording of an error. -/
def BuildError.message : BuildError → String
  | .load error => error.message
  | .bundle error => error.message
  | .write error => error.message
  | .clock fault => fault.message

/-- How a build ends and what it leaves: its result, the files, the processes, the
messages in order, and the request that the bundler was given if it was reached. -/
structure BuildReport where
  result : Except BuildError BuildResult
  files : FileSystem
  processes : Processes
  log : List String
  request : Option BundleRequest

/-! ### Steps -/

/-- Packages are kept out exactly when there is a map of them, be it empty. -/
def packagesMode (mappings : Option SpecifierMap) : String :=
  if mappings.isSome then "external" else "bundle"

/-- What a build asks of the bundler. A single output file makes the output directory
meaningless. -/
def BundleRequest.ofOptions (options : ResolvedOptions) (mappings : Option SpecifierMap) :
    BundleRequest where
  entrypoints := options.entrypoints
  external := options.external
  packages := packagesMode mappings
  outputDir := if (nonempty options.outputPath).isSome then none else some options.outputDir
  outputPath := options.outputPath
  minify := options.minify

/-- The artifacts with their finished texts, and the specifiers met in all of them. -/
def finishArtifacts (replacements : Replacements) (mappings : Option SpecifierMap)
    (artifacts : List Artifact) : List Artifact × List String :=
  let steps := finishTexts replacements mappings [] (artifacts.map Artifact.text)
  (artifacts.zipWith (fun artifact step => ⟨artifact.path, step.1⟩) steps,
    (steps.getLast?.map Prod.snd).getD [])

/-- Writes artifacts in order, up to the first that cannot be written. -/
def writeArtifacts (fs : FileSystem) : List Artifact → Except PathError Unit × FileSystem
  | [] => (.ok (), fs)
  | artifact :: rest =>
    match fs.writeText artifact.path artifact.text with
    | (.error error, fs) => (.error error, fs)
    | (.ok (), fs) => writeArtifacts fs rest

/-- The warning about a specifier that no artifact imports. -/
def unmetWarning (bare : String) : String :=
  "warning: no import of " ++ quoted bare ++ " found in the bundle output; left unchanged"

/-- The warnings about a map, in its order. -/
def unmetWarnings (mappings : Option SpecifierMap) (met : List String) : List String :=
  match mappings with
  | none => []
  | some mappings =>
    ((OrderedMap.keys mappings).filter fun bare => bare ∉ met).map unmetWarning

/-- The messages about the map of a build. -/
def mappingMessages : Option SpecifierMap → List String
  | none => []
  | some mappings => SpecifierMap.messages mappings

/-! ### The build -/

/-- A build when it comes to writing: its map and the artifacts, or why there are none; the files,
the processes, the messages in order, and the request of the bundler if it was reached. -/
structure Preparation where
  result : Except BuildError (Option SpecifierMap × List Artifact)
  files : FileSystem
  processes : Processes
  log : List String
  request : Option BundleRequest

/-- Makes the map with a tool for the module graph, and bundles. -/
def prepare (tool : Tool) (bundler : Bundler) (options : ResolvedOptions) (files : FileSystem)
    (processes : Processes) : Preparation :=
  let log := ["Bundling project..."]
  match SpecifierMap.build tool options.external options.entrypoints processes with
  | (.error error, processes) => ⟨.error (.load error), files, processes, log, none⟩
  | (.ok mappings, processes) =>
    let log := log ++ mappingMessages mappings
    let request := BundleRequest.ofOptions options mappings
    match bundler request files processes with
    | ⟨.error error, files, processes⟩ =>
      ⟨.error (.bundle error), files, processes, log, some request⟩
    | ⟨.ok artifacts, files, processes⟩ =>
      ⟨.ok (mappings, artifacts), files, processes, log, some request⟩

/-- How a build ends that has written everything: with the time that it took. -/
def timedResult (start stop : Reading) (outputFiles : List String) :
    Except BuildError BuildResult :=
  match start.millisecondsTo stop with
  | .error fault => .error (.clock fault)
  | .ok duration => .ok ⟨duration, outputFiles⟩

/-- The messages at the end of a build that has written everything. -/
def closingMessages (mappings : Option SpecifierMap) (met : List String)
    (result : Except BuildError BuildResult) : List String :=
  unmetWarnings mappings met ++
    match result with
    | .error _ => []
    | .ok result => ["Bundle completed in " ++ toString result.duration ++ "ms"]

/-- Builds with a tool for the module graph and a bundler; the clock is read at the
beginning and at the end. -/
def build (tool : Tool) (bundler : Bundler) (options : ResolvedOptions) (start stop : Reading)
    (files : FileSystem) (processes : Processes) : BuildReport :=
  let ⟨prepared, files, processes, log, request⟩ := prepare tool bundler options files processes
  match prepared with
  | .error error => ⟨.error error, files, processes, log, request⟩
  | .ok (mappings, artifacts) =>
    let (finished, met) := finishArtifacts options.replace mappings artifacts
    match writeArtifacts files finished with
    | (.error error, files) => ⟨.error (.write error), files, processes, log, request⟩
    | (.ok (), files) =>
      let result := timedResult start stop (finished.map Artifact.path)
      ⟨result, files, processes, log ++ closingMessages mappings met result, request⟩

end EsmBundle
