import EsmBundle.FileTree.System
import EsmBundle.OrderedMap
import EsmBundle.Process

/-!
Bundling entry points with the external tool.

The tool writes what it emits into a private directory, which is then listed, and the
texts are read back. Each file there becomes an artifact whose path is already the one it
is meant for; nothing is written there yet. A file whose name leads out of the private
directory stays where it is, and is not read back.
-/

namespace EsmBundle

/-! ### Requests -/

/-- What is asked of a bundler: the entry points, the packages to keep out, how
packages are treated, where the output goes, and whether to minify. -/
structure BundleRequest where
  entrypoints : List String
  external : List String
  packages : String
  outputDir : Option String
  outputPath : Option String
  minify : Bool
deriving DecidableEq, Repr

/-- An emitted file: the path it is meant for and its text. -/
structure Artifact where
  path : String
  text : String
deriving DecidableEq, Repr

/-- Why bundling fails: the private directory cannot be made, read or removed, the tool fails, its
command is refused, or an emitted file is no text. -/
inductive BundleError where
  | scratch (error : PathError)
  | tool (error : ToolError)
  | refused
  | encoding (error : Utf8.DecodeError)
deriving DecidableEq, Repr

/-- The wording of an error. -/
def BundleError.message : BundleError → String
  | .scratch error => error.message
  | .tool error => error.message
  | .refused => embeddedNul
  | .encoding error => error.message

/-- The error about a failed run. -/
def BundleError.ofRun : RunError → BundleError
  | .tool error => .tool error
  | .refused => .refused

/-- A text that is given and not empty. -/
def nonempty (text : Option String) : Option String :=
  text.filter fun text => !text.isEmpty

/-- The arguments of the tool, to which the output goes as a single file if that is given, and else
into a directory. -/
def bundleArguments (request : BundleRequest) (outdir output : Option String) : List String :=
  let target :=
    match nonempty output with
    | some output => ["--output", output]
    | none => ["--outdir", (nonempty outdir).getD "."]
  ["bundle", "--format", "esm", "--packages", request.packages] ++
    (if request.minify then ["--minify"] else []) ++
    (request.external.flatMap fun name => ["--external", name]) ++
    target ++ request.entrypoints

namespace BundleRequest

/-- The path that is asked for as the single output file. -/
def singlePath (request : BundleRequest) : Option String :=
  nonempty request.outputPath

/-- The directory that the artifacts are meant for. -/
def destination (request : BundleRequest) : String :=
  match request.singlePath with
  | some path => Path.directoryOf path
  | none => (nonempty request.outputDir).getD "."

/-- The arguments of the tool for an output inside the private directory. -/
def arguments (request : BundleRequest) (scratch : String) : List String :=
  match request.singlePath with
  | some path =>
    bundleArguments request none (some (Path.join scratch (Path.lastNameOf path)))
  | none => bundleArguments request (some scratch) none

end BundleRequest

/-! ### Reading back -/

/-- The artifact of a file in a private directory, which is read by its path. -/
def Artifact.ofFile (scratch destination : String) (file : String × Bytes) :
    Except BundleError Artifact :=
  let path := Path.join scratch file.1
  if isLongPath path then .error (.scratch ⟨.nameTooLong, path⟩)
  else
    match Utf8.decode file.2 with
    | .ok cs => .ok ⟨Path.join destination file.1, String.ofList (unifyLineBreaks cs)⟩
    | .error error => .error (.encoding error)

/-- The artifacts of the files in a private directory, in the order of their paths, up to the first
that cannot be read. A directory with too many levels is not listed. -/
def collect (scratch destination : String) (files : FileSystem) :
    Except BundleError (List Artifact) :=
  if (files.held scratch).depth > Bounds.listedLevels then .error (.scratch ⟨.tooDeep, scratch⟩)
  else (files.listing scratch).mapM (Artifact.ofFile scratch destination)

/-! ### Bundling -/

/-- How bundling ends: the artifacts, the files, and the processes. -/
structure Bundling where
  result : Except BundleError (List Artifact)
  files : FileSystem
  processes : Processes

/-- A way to bundle: what becomes of a request, given the files and the processes to come. -/
abbrev Bundler := BundleRequest → FileSystem → Processes → Bundling

/-- Bundling by a run of the tool; `scratch` is the path of its private directory. The files that
can be made are made whatever the run comes to. When the directory cannot be removed, that is
the failure, whatever came before it. -/
def Tool.bundle (tool : Tool) (scratch : String) : Bundler :=
  fun request files processes =>
    match files.openScratch scratch with
    | .error error => ⟨.error (.scratch error), files, processes⟩
    | .ok opened =>
      let (output, after) := tool.run (request.arguments scratch) processes
      let filled := opened.fillScratch scratch processes.next.emitted
      let result :=
        match output with
        | .error error => .error (.ofRun error)
        | .ok _ => collect scratch request.destination filled
      match filled.closeScratch scratch with
      | (.error error, left) => ⟨.error (.scratch error), left, after⟩
      | (.ok (), left) => ⟨result, left, after⟩

end EsmBundle
