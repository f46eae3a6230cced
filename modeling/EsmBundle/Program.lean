import EsmBundle.Build
import EsmBundle.CommandLine.Options
import EsmBundle.CommandLine.Usage
import EsmBundle.Settings.Load

/-!
The program: a build from a command line and settings, and what it prints.

Diagnostics go to the error output with a mark in front. A failure of the
external tool, or settings that cannot be read, end the program with status 1;
other failures are faults of the program's surroundings and end it without a
status of its own, and so does a void path of the settings or too deep a document.
-/

namespace EsmBundle

/-- A diagnostic message as it is printed. -/
def logLine (message : String) : String :=
  "[denobundle] " ++ message ++ "\n"

/-- The diagnostics of a build as they are printed. -/
def logText (messages : List String) : String :=
  String.join (messages.map logLine)

/-- A failure that ends the program without a status. -/
inductive Fault where
  | settings (error : Settings.Error)
  | build (error : BuildError)
deriving DecidableEq, Repr

/-- The wording of a fault. -/
def Fault.message : Fault → String
  | .settings error => error.message
  | .build error => error.message

/-- How the program ends and what it leaves. -/
structure ProgramReport where
  result : Except Fault Int
  stdout : String
  stderr : String
  files : FileSystem
  processes : Processes

namespace Program

/-- The error of a failed run of the tool, and its command if there is one. -/
def toolErrorText (error : ToolError) : String :=
  "Error: " ++ error.message ++ "\n" ++
    if error.command.isEmpty then ""
    else "       command: " ++ " ".intercalate error.command ++ "\n"

/-- The error about settings that cannot be read, with the path that was asked for. -/
def settingsErrorText (path : Option OptionValue) (error : Settings.Error) : String :=
  "Error: cannot read config " ++ (path.map OptionValue.display).getD "None" ++ ": " ++
    error.message ++ "\n"

/-- The report on a finished build. -/
def resultText (result : BuildResult) : String :=
  "Done! Bundled " ++ toString result.outputFiles.length ++ " file(s) in " ++
    toString result.duration ++ "ms\n" ++
    String.join (result.outputFiles.map fun path => "      " ++ path ++ "\n")

/-- The failed run of the tool in an error of a build. -/
def toolError? : BuildError → Option ToolError
  | .load (.tool error) => some error
  | .bundle (.tool error) => some error
  | _ => none

/-- The executable of the tool: the one that the command line names, else that of the settings,
else the one on the search path. -/
def executable (arguments : Arguments) (settings : Settings) : String :=
  match nonempty (arguments.given.deno.map OptionValue.path) with
  | some deno => deno
  | none => ((findEntry "deno" settings).bind Json.string?).getD "deno"

/-- The options of a run: the command line goes before the settings. -/
def options (arguments : Arguments) (settings : Settings) : BuildOptions :=
  arguments.options.merged (.ofSettings settings)

/-- Runs the program on the words of its command line, in the working directory of the files;
`scratch` is the path that the bundler's private directory has. -/
def run (scratch : String) (words : List String) (start stop : Reading) (files : FileSystem)
    (processes : Processes) : ProgramReport :=
  match Arguments.parse words with
  | .error halt =>
    ⟨.ok halt.farewell.status, halt.farewell.stdout, halt.farewell.stderr, files, processes⟩
  | .ok arguments =>
    match Settings.ofOption files arguments.given.config with
    | .error error =>
      if error.isFault then ⟨.error (.settings error), "", "", files, processes⟩
      else ⟨.ok 1, "", settingsErrorText arguments.given.config error, files, processes⟩
    | .ok settings =>
      let loaded := if settings.isEmpty then [] else ["Loaded config"]
      let tool : Tool := ⟨executable arguments settings, none⟩
      let report := build tool (tool.bundle scratch)
        (options arguments settings).resolved start stop files processes
      let stderr := logText (loaded ++ report.log)
      match report.result with
      | .ok result => ⟨.ok 0, resultText result, stderr, report.files, report.processes⟩
      | .error error =>
        match toolError? error with
        | some error =>
          ⟨.ok 1, "", stderr ++ toolErrorText error, report.files, report.processes⟩
        | none => ⟨.error (.build error), "", stderr, report.files, report.processes⟩

end Program

end EsmBundle
