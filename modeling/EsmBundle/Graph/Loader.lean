import EsmBundle.Graph.Decode
import EsmBundle.Json.Parser
import EsmBundle.Process

/-!
Loading the module graph of entry points with the external tool, one run for each
entry point, and merging what the runs print.
-/

namespace EsmBundle

/-- Why a graph cannot be loaded: a run fails or prints no graph, its command is refused, or its
document is unreadable or passes a bound. -/
inductive LoadError where
  | tool (error : ToolError)
  | refused
  | stray (scalar : StrayScalar)
  | excessive (excess : Json.Excess)
deriving DecidableEq, Repr

/-- The wording of an error. -/
def LoadError.message : LoadError → String
  | .tool error => error.message
  | .refused => embeddedNul
  | .stray scalar => scalar.message
  | .excessive excess => excess.message

/-- The error about a failed run. -/
def LoadError.ofRun : RunError → LoadError
  | .tool error => .tool error
  | .refused => .refused

namespace ModuleGraph

/-- An error about what a run printed, which belongs to no failed command. -/
def unusable (message : String) : LoadError :=
  .tool ⟨message, [], none, ""⟩

/-- The graph that a run for an entry point printed. -/
def ofOutput (entry output : String) : Except LoadError ModuleGraph :=
  match Json.parse output with
  | .error (.malformed error) =>
    .error (unusable
      ("deno info returned invalid JSON for " ++ entry ++ ": " ++ error.message))
  | .error (.excessive excess) => .error (.excessive excess)
  | .ok (.object members) =>
    match ofMembers members with
    | .ok graph => .ok graph
    | .error scalar => .error (.stray scalar)
  | .ok _ => .error (unusable ("deno info returned no graph for " ++ entry))

/-- The graph of one entry point. -/
def loadEntry (tool : Tool) (entry : String) (processes : Processes) :
    Except LoadError ModuleGraph × Processes :=
  match tool.run ["info", "--json", entry] processes with
  | (.error error, processes) => (.error (.ofRun error), processes)
  | (.ok output, processes) => (ofOutput entry output, processes)

/-- A graph with the graphs of further entry points merged into it; the first
failure ends the loading. -/
def loadInto (tool : Tool) (graph : ModuleGraph) :
    List String → Processes → Except LoadError ModuleGraph × Processes
  | [], processes => (.ok graph, processes)
  | entry :: rest, processes =>
    match loadEntry tool entry processes with
    | (.error error, processes) => (.error error, processes)
    | (.ok next, processes) => loadInto tool (graph.merge next) rest processes

/-- The merged graph of the entry points. -/
def load (tool : Tool) (entrypoints : List String) (processes : Processes) :
    Except LoadError ModuleGraph × Processes :=
  loadInto tool .empty entrypoints processes

end ModuleGraph

end EsmBundle
