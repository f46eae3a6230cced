import EsmBundle.Graph.Decode
import EsmBundle.Json.Parser
import EsmBundle.Process

/-!
Transcripts of the external tool: what its processes did, one JSON object a line.

A process that ran has the members `status`, `stdout`, `stderr` and `files`, the
last an object from the paths of emitted files to their texts. One that could
not be started has the member `error` with `code`, `text` and `path`, which is
`null` when the failure names no path and missing when it is about the
executable. One whose command was refused has an `error` that is a text. Whatever else
is missing is zero or empty.
-/

namespace EsmBundle

/-- The integer in a field, zero when there is none. -/
def Members.int (members : Members) (name : String) : Int :=
  match findEntry name members with
  | some (.int n) => n
  | _ => 0

/-- The bytes of the text in a field. -/
def Members.bytes (members : Members) (name : String) : Bytes :=
  Utf8.encode ((members.string? name).getD "").toList

namespace Outcome

/-- What a failed start is about. -/
def subjectOf (error : Members) : StartSubject :=
  match findEntry "path" error with
  | some (.string path) => .path path
  | some .null => .unnamed
  | _ => .executable

/-- The outcome that an object describes. -/
def ofMembers (members : Members) : Outcome :=
  match findEntry "error" members with
  | some (.object error) =>
    let text := (Members.string? error "text").getD ""
    .notStarted (Members.int error "code") text (subjectOf error)
  | some (.string _) => .refused
  | _ =>
    let files : Members := (members.object? "files").getD []
    .exited (members.int "status") (members.bytes "stdout") (members.bytes "stderr")
      (files.filterMap fun file => file.2.string?.map fun text => (file.1, Utf8.encode text.toList))

/-- The outcome that a line describes. -/
def ofLine? (line : String) : Option Outcome :=
  match Json.parse line with
  | .ok (.object members) => some (ofMembers members)
  | _ => none

end Outcome

end EsmBundle
