import EsmBundle.Graph.Basic
import EsmBundle.Proofs.FirstPlaces

/-!
Merging the module graphs of several documents.

Roots and modules are folded in under a new key only, redirects are written over
those that are there. So the three parts of a merged graph follow three rules.

* `IsUnion` — the graph that a list of documents makes: the distinct roots, the first
  module of every specifier, and the last value of every redirect, each in the order
  in which its key first appears.
* `isUnion_foldl_merge` — merging the documents one after another into an empty graph
  makes exactly that.
-/

namespace EsmBundle.ModuleGraph

/-! ### One part at a time -/

/-- Roots are added one by one, so adding two lists is adding them at once. -/
theorem roots_foldl_merge (graph : ModuleGraph) (documents : List ModuleGraph) :
    (documents.foldl merge graph).roots = addRoots graph.roots (documents.flatMap roots) := by
  induction documents generalizing graph with
  | nil => rfl
  | cons document rest ih =>
    rw [List.foldl_cons, ih, List.flatMap_cons, addRoots, addRoots, List.foldl_append]
    rfl

/-- Modules are added one by one, so adding two lists is adding them at once. -/
theorem modules_foldl_merge (graph : ModuleGraph) (documents : List ModuleGraph) :
    (documents.foldl merge graph).modules =
      addModules graph.modules (documents.flatMap modules) := by
  induction documents generalizing graph with
  | nil => rfl
  | cons document rest ih =>
    rw [List.foldl_cons, ih, List.flatMap_cons, addModules, addModules, List.foldl_append]
    rfl

/-- Redirects are written one by one, so writing two tables is writing them at once. -/
theorem redirects_foldl_merge (graph : ModuleGraph) (documents : List ModuleGraph) :
    (documents.foldl merge graph).redirects =
      graph.redirects.insertAll (documents.flatMap fun document => document.redirects.entries) := by
  induction documents generalizing graph with
  | nil => rfl
  | cons document rest ih =>
    rw [List.foldl_cons, ih, List.flatMap_cons, OrderedMap.insertAll_append]
    rfl

theorem addRoots_eq_addNew (roots new : List String) :
    addRoots roots new = addNew id roots new := by
  simp [addRoots, addNew]

theorem addModules_eq_addNew (modules new : List GraphModule) :
    addModules modules new = addNew GraphModule.specifier modules new := rfl

/-- A redirect of the graph that is merged in goes before one that was there. -/
theorem find?_redirects_merge (graph other : ModuleGraph) (key : String) :
    (graph.merge other).redirects.find? key =
      (other.redirects.find? key).or (graph.redirects.find? key) :=
  OrderedMap.find?_insertAll _ other.redirects.distinct key

/-- The last document that has a redirect gives it its value. -/
theorem find?_redirects_foldl_merge (graph : ModuleGraph) (documents : List ModuleGraph)
    (key : String) :
    (documents.foldl merge graph).redirects.find? key =
      (documents.reverse.findSome? fun document => document.redirects.find? key).or
        (graph.redirects.find? key) := by
  induction documents generalizing graph with
  | nil => rfl
  | cons document rest ih =>
    rw [List.foldl_cons, ih, find?_redirects_merge, List.reverse_cons, List.findSome?_append,
      Option.or_assoc, List.findSome?_singleton]

/-! ### The union of documents -/

/-- A graph is the union of documents: their distinct roots, the first module of every
specifier, and every redirect with its last value, each part in the order in which the
keys first appear. -/
structure IsUnion (documents : List ModuleGraph) (graph : ModuleGraph) : Prop where
  roots : graph.roots = firstsBy id (documents.flatMap ModuleGraph.roots)
  modules : graph.modules = firstsBy GraphModule.specifier (documents.flatMap ModuleGraph.modules)
  redirectKeys : graph.redirects.keys =
    firstsBy id (documents.flatMap fun document => document.redirects.keys)
  redirectValues : ∀ key, graph.redirects.find? key =
    documents.reverse.findSome? fun document => document.redirects.find? key

/-- The union of documents has every root once. -/
theorem IsUnion.nodup_roots {documents : List ModuleGraph} {graph : ModuleGraph}
    (union : IsUnion documents graph) : graph.roots.Nodup := by
  have distinct := nodup_map_firstsBy id (documents.flatMap ModuleGraph.roots)
  rwa [List.map_id, ← union.roots] at distinct

/-- The union of documents has every specifier once. -/
theorem IsUnion.nodup_specifiers {documents : List ModuleGraph} {graph : ModuleGraph}
    (union : IsUnion documents graph) : (graph.modules.map GraphModule.specifier).Nodup := by
  rw [union.modules]
  exact nodup_map_firstsBy _ _

/-- A module of the union stands in the documents behind no other of its specifier. -/
theorem IsUnion.mem_modules_iff {documents : List ModuleGraph} {graph : ModuleGraph}
    (union : IsUnion documents graph) {module : GraphModule} :
    module ∈ graph.modules ↔
      ∃ before after, documents.flatMap ModuleGraph.modules = before ++ module :: after ∧
        module.specifier ∉ before.map GraphModule.specifier := by
  rw [union.modules]
  exact mem_firstsBy_iff

/-- **Merging documents one after another** into an empty graph makes their union. -/
theorem isUnion_foldl_merge (documents : List ModuleGraph) :
    IsUnion documents (documents.foldl merge empty) where
  roots := by
    rw [roots_foldl_merge, addRoots_eq_addNew]
    exact addNew_nil_left id _
  modules := by
    rw [modules_foldl_merge, addModules_eq_addNew]
    exact addNew_nil_left GraphModule.specifier _
  redirectKeys := by
    rw [redirects_foldl_merge, OrderedMap.keys_insertAll, List.map_flatMap]
    exact addNew_nil_left id _
  redirectValues := by
    intro key
    rw [find?_redirects_foldl_merge]
    exact Option.or_none

end EsmBundle.ModuleGraph
