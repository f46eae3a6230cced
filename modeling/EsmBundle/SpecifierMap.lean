import EsmBundle.Finish
import EsmBundle.Graph.Loader
import EsmBundle.Specifier

/-!
The map from bare specifiers to the specifiers they were resolved to, for the
packages that a caller keeps out of the bundle.

The map is written by the edges of the graph in order: an edge counts when its
module is an ES module, its target is a non-empty string that names a package
elsewhere, and its bare specifier is covered by the names of the caller.
-/

namespace EsmBundle

/-! ### Edges -/

namespace ModuleGraph

/-- The edges of the ES modules, in order. -/
def edges (graph : ModuleGraph) : List Dependency :=
  (graph.modules.filter fun module => module.kind = "esm").flatMap GraphModule.dependencies

/-- Where an edge leads: its resolved specifier after one redirect, if that is a string that is not
empty. -/
def target? (graph : ModuleGraph) (edge : Dependency) : Option String := do
  let resolution ← edge.code
  let specifier ← resolution.specifier
  let target ← ((graph.redirects.find? specifier).getD (.string specifier)).string?
  if target.isEmpty then none else some target

/-- What an edge writes into the map. -/
def mapping? (graph : ModuleGraph) (external : List String) (edge : Dependency) :
    Option (String × String) := do
  let target ← graph.target? edge
  let resolved := Specifier.normalize target
  if Specifier.isExternal resolved && Specifier.isCovered edge.specifier external then
    some (edge.specifier, resolved)
  else none

end ModuleGraph

/-! ### The map -/

namespace SpecifierMap

/-- The map of a graph for the names of the caller. -/
def ofGraph (graph : ModuleGraph) (external : List String) : SpecifierMap :=
  .ofList (graph.edges.filterMap (graph.mapping? external))

/-- The listing of a map, one pair a line, indented under its heading. -/
def listing (mappings : SpecifierMap) : String :=
  "\n\t".intercalate
    ("External mappings:" ::
      (OrderedMap.entries mappings).map fun pair => pair.1 ++ " => " ++ pair.2)

/-- The messages about a map: its listing, unless it is empty. -/
def messages (mappings : SpecifierMap) : List String :=
  if OrderedMap.isEmpty mappings then [] else [listing mappings]

/-- The map for a build: none when nothing is external, and otherwise that of the
loaded graph. -/
def build (tool : Tool) (external entrypoints : List String) (processes : Processes) :
    Except LoadError (Option SpecifierMap) × Processes :=
  if external.isEmpty then (.ok none, processes)
  else
    match ModuleGraph.load tool entrypoints processes with
    | (.error error, processes) => (.error error, processes)
    | (.ok graph, processes) => (.ok (some (ofGraph graph external)), processes)

end SpecifierMap

end EsmBundle
