import EsmBundle.OsError
import EsmBundle.Text.Blank
import EsmBundle.Text.Newline
import EsmBundle.Text.Utf8

/-!
Runs of the external tool.

What the tool does is given from outside, as the list of outcomes of the processes
that will be started. Running the tool takes the next outcome, records the start,
and turns each way of failing into one error that carries the tool's own words. Only
a command with a NUL character, which cannot be passed on to the operating system, fails
with an error of another kind.
-/

namespace EsmBundle

/-! ### Outcomes -/

/-- What a failed start is about: the executable, some other path, or nothing that
has a name. -/
inductive StartSubject where
  | executable
  | path (text : String)
  | unnamed
deriving DecidableEq, Repr

/-- What becomes of a started process: its command is refused, since there is a NUL character in
it; it cannot be started, for a numbered reason; or it exits with a status, what it
printed, and the files it emitted into the directory it was given. -/
inductive Outcome where
  | refused
  | notStarted (code : Int) (text : String) (subject : StartSubject)
  | exited (status : Int) (stdout stderr : Bytes) (emitted : List (String × Bytes))
deriving DecidableEq, Repr

/-- The start of a process. -/
structure Call where
  command : List String
  cwd : Option String
deriving DecidableEq, Repr

/-- The outcomes still to come and the starts so far, in order. -/
structure Processes where
  pending : List Outcome
  calls : List Call
deriving DecidableEq, Repr

/-- The external tool: its executable, and the directory it is run in when that is not the
current one. -/
structure Tool where
  executable : String
  cwd : Option String
deriving DecidableEq, Repr

/-- A failed run: its message, the command if one was run, the exit status if it
has one, and all that was printed as diagnostics. -/
structure ToolError where
  message : String
  command : List String
  status : Option Int
  stderr : String
deriving DecidableEq, Repr

/-- Why a run fails: the tool fails, or its command is refused. -/
inductive RunError where
  | tool (error : ToolError)
  | refused
deriving DecidableEq, Repr

/-! ### Running -/

/-- What a process printed, as text: bad bytes are replaced and line breaks are single line
feeds. -/
def outputText (bytes : Bytes) : String :=
  String.ofList (unifyLineBreaks (Utf8.decodeLossy bytes))

/-- The outcome when no other is left: the executable is not there. -/
def Outcome.absent : Outcome :=
  .notStarted 2 "No such file or directory" .executable

/-- The files that a process emitted. -/
def Outcome.emitted : Outcome → List (String × Bytes)
  | .refused | .notStarted .. => []
  | .exited _ _ _ emitted => emitted

/-- The outcome of the process that is started next. -/
def Processes.next (processes : Processes) : Outcome :=
  processes.pending.headD .absent

/-- Starts a process: the next outcome, and the start recorded. -/
def Processes.start (processes : Processes) (call : Call) : Outcome × Processes :=
  ⟨processes.next, processes.pending.tail, processes.calls ++ [call]⟩

/-- The path that a failed start is about. -/
def Tool.subjectPath? (tool : Tool) : StartSubject → Option String
  | .executable => some tool.executable
  | .path text => some text
  | .unnamed => none

/-- The error about a run that the operating system keeps from happening. -/
def Tool.notRun (tool : Tool) (command : List String) (error : OsError) : ToolError :=
  ⟨"could not run " ++ quoted tool.executable ++ ": " ++ error.message, command, none, ""⟩

/-- How a run ends: with the output of a process that exits with status zero, or
with an error that says why it could not be run, or what it printed as
diagnostics, or at least its status. -/
def Tool.result (tool : Tool) (command : List String) : Outcome → Except RunError String
  | .refused => .error .refused
  | .notStarted code text subject =>
    .error (.tool (tool.notRun command ⟨code, text, tool.subjectPath? subject⟩))
  | .exited status stdout stderr _ =>
    if status = 0 then .ok (outputText stdout)
    else
      let stderr := outputText stderr
      let words := trim stderr
      let message :=
        if words.isEmpty then
          " ".intercalate command ++ " exited with status " ++ toString status
        else words
      .error (.tool ⟨message, command, some status, stderr⟩)

/-- Runs the tool with arguments. -/
def Tool.run (tool : Tool) (args : List String) (processes : Processes) :
    Except RunError String × Processes :=
  let command := tool.executable :: args
  let (outcome, processes) := processes.start ⟨command, tool.cwd⟩
  (tool.result command outcome, processes)

end EsmBundle
