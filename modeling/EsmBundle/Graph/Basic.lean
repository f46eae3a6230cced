import EsmBundle.Json.Value
import EsmBundle.OrderedMap

/-!
Module graphs: the modules reachable from the entry points, their import edges,
and the table of redirects between resolved specifiers.

Graphs of several entry points are merged. The first module of a specifier and
the first place of a root are kept, and the last value of a redirect.
-/

namespace EsmBundle

/-- Where an import edge was resolved to: the specifier before redirects, the
place of the import in the module, and the message of a failed resolution. -/
structure Resolution where
  specifier : Option String
  span : Option (List (String × Json))
  error : Option String
deriving Repr

/-- An import edge: the specifier as written and its resolution. -/
structure Dependency where
  specifier : String
  code : Option Resolution
deriving Repr

/-- A module with its import edges. -/
structure GraphModule where
  specifier : String
  kind : String
  dependencies : List Dependency
deriving Repr

/-- A module graph: the roots in the order of the entry points, the modules, and
the redirects. -/
structure ModuleGraph where
  roots : List String
  modules : List GraphModule
  redirects : OrderedMap String Json

namespace ModuleGraph

/-- The graph without modules. -/
def empty : ModuleGraph := ⟨[], [], .empty⟩

/-- Roots with further roots, those that are there already left out. -/
def addRoots (roots new : List String) : List String :=
  new.foldl (fun roots root => if root ∈ roots then roots else roots ++ [root]) roots

/-- Modules with further modules, those of a specifier that is there already left out. -/
def addModules (modules new : List GraphModule) : List GraphModule :=
  new.foldl
    (fun modules module =>
      if module.specifier ∈ modules.map GraphModule.specifier then modules
      else modules ++ [module])
    modules

/-- A graph with another one folded into it. -/
def merge (graph other : ModuleGraph) : ModuleGraph where
  roots := addRoots graph.roots other.roots
  modules := addModules graph.modules other.modules
  redirects := graph.redirects.insertAll other.redirects.entries

end ModuleGraph

end EsmBundle
