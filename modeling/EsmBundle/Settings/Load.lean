import EsmBundle.FileTree.System
import EsmBundle.Json.Parser
import EsmBundle.OptionValue
import EsmBundle.Text.Newline

/-!
Finding the settings of a build.

Settings are the members of a JSON object in a file. A file that is asked for by
its path has to hold them. Without such a path the first of two files that holds
an object is taken, that of the project and that of the home directory, and when
neither does there are no settings. A candidate that is no text at all, or whose
document passes a bound, is not passed over. A program looks for its own settings
from the working directory, which has to be there.
-/

namespace EsmBundle

/-- The members of a settings object. -/
abbrev Settings := List (String × Json)

namespace Settings

/-- The name of a settings file. -/
def fileName : String := ".denobundlerc"

/-- Why settings cannot be read. -/
inductive Error where
  | noDirectory
  | voidPath
  | access (error : PathError)
  | encoding (error : Utf8.DecodeError)
  | json (error : Json.ReadError)
  | notObject (path : String)
deriving DecidableEq, Repr

/-- The wording of an error. -/
def Error.message : Error → String
  | .noDirectory => OsError.message ⟨2, "No such file or directory", none⟩
  | .voidPath => "expected str, bytes or os.PathLike object, not list"
  | .access error => error.message
  | .encoding error => error.message
  | .json error => error.message
  | .notObject path => path ++ ": expected a JSON object"

/-- A failure that no program expects of settings: a void path, or a document that is nested too
deeply. -/
def Error.isFault : Error → Bool
  | .voidPath => true
  | .json (.excessive (.depth _)) => true
  | _ => false

/-- The text in the contents of a file, with single line feeds. -/
def textOf (contents : Bytes) : Except Utf8.DecodeError String :=
  (Utf8.decode contents).map fun cs => String.ofList (unifyLineBreaks cs)

/-- The document in the contents of a file. -/
def documentOf (contents : Bytes) : Except Error Json :=
  match textOf contents with
  | .error error => .error (.encoding error)
  | .ok text =>
    match Json.parse text with
    | .error error => .error (.json error)
    | .ok value => .ok value

/-- The settings in the file at a path. -/
def read (fs : FileSystem) (path : String) : Except Error Settings :=
  match fs.read path with
  | .error error => .error (.access error)
  | .ok contents =>
    match documentOf contents with
    | .error error => .error error
    | .ok (.object members) => .ok members
    | .ok _ => .error (.notObject path)

/-- The path of the settings file in a directory, with the steps that stay in place left out. -/
def fileIn (directory : String) : String :=
  let steps := ((Path.ofString directory).steps.filter fun step => step ≠ ".") ++ [fileName]
  Path.rootText directory.toList ++ "/".intercalate steps

/-- The settings in a candidate, none when it is no file or holds no object. -/
def candidate? (found : Except PathFault (Location × Entry)) (path : String) :
    Except Error (Option Settings) :=
  match found with
  | .ok (_, .file contents) =>
    match documentOf contents with
    | .ok value => .ok value.object?
    | .error (.json (.malformed _)) => .ok none
    | .error error => .error error
  | .ok (_, .directory) => .ok none
  | .error .nameTooLong => .error (.access ⟨.nameTooLong, path⟩)
  | .error _ => .ok none

/-- The settings of a project when no path is asked for. -/
def search (fs : FileSystem) (projectRoot : String) : Except Error Settings := do
  let path := fileIn projectRoot
  match ← candidate? (fs.stat path) path with
  | some settings => return settings
  | none =>
    let home := (fs.tree.walk [] (fs.home ++ [fileName]))
    return (← candidate? home fileName).getD []

/-- The settings at a path that is asked for, or else those of a project. -/
def load (fs : FileSystem) (projectRoot : String) : Option String → Except Error Settings
  | some path => read fs path
  | none => search fs projectRoot

/-- The settings of a program that is given an option for their path. -/
def ofOption (fs : FileSystem) (path : Option OptionValue) : Except Error Settings :=
  if isUnlinked fs.cwd then .error .noDirectory
  else
    match path with
    | some .void => .error .voidPath
    | some (.text path) => read fs path
    | none => search fs "."

end Settings

end EsmBundle
