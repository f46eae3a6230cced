import EsmBundle.Proofs.FirstPlaces
import EsmBundle.SpecifierMap

/-!
What the map of a module graph holds.

An edge has to pass several tests before it writes into the map. `QualifiesAs` says what the
tests ask, in terms of the graph and the names of the caller alone, and `qualifyingEdges`
lists the edges that pass them, in the order of the document.

* `normalize_eq_iff`, `target?_eq_some_iff`, `mapping?_eq_some_iff` — each step of the way
  from an edge to what it writes, against what the step is meant to find.
* `ofGraph_exactly_qualifying` — the keys of the map are the bare specifiers of the
  qualifying edges at their first places, every key has the specifier of its last edge, and
  no other edge matters.
-/

namespace EsmBundle

/-! ### Plain forms -/

/-- The plain form of a specifier: a slash right after a leading `npm:` or `jsr:` is left out. -/
inductive IsPlainForm : String → String → Prop where
  | npm (rest : String) : IsPlainForm ("npm:/" ++ rest) ("npm:" ++ rest)
  | jsr (rest : String) : IsPlainForm ("jsr:/" ++ rest) ("jsr:" ++ rest)
  | same {specifier : String} : ¬ "npm:/".toList <+: specifier.toList →
      ¬ "jsr:/".toList <+: specifier.toList → IsPlainForm specifier specifier

theorem IsPlainForm.exists (specifier : String) : ∃ plain, IsPlainForm specifier plain := by
  have begins {head : String} (starts : head.toList <+: specifier.toList) :
      ∃ rest, specifier = head ++ rest := by
    obtain ⟨rest, same⟩ := starts
    refine ⟨String.ofList rest, ?_⟩
    rw [← String.toList_inj, String.toList_append, String.toList_ofList, same]
  by_cases npm : "npm:/".toList <+: specifier.toList
  · obtain ⟨rest, rfl⟩ := begins npm
    exact ⟨_, .npm rest⟩
  · by_cases jsr : "jsr:/".toList <+: specifier.toList
    · obtain ⟨rest, rfl⟩ := begins jsr
      exact ⟨_, .jsr rest⟩
    · exact ⟨_, .same npm jsr⟩

namespace Specifier

theorem dropSlash_of_plain {cs : List Char} (noNpm : ¬ "npm:/".toList <+: cs)
    (noJsr : ¬ "jsr:/".toList <+: cs) : dropSlash cs = cs := by
  unfold dropSlash
  split
  · exact absurd (List.prefix_append "npm:/".toList _) noNpm
  · exact absurd (List.prefix_append "jsr:/".toList _) noJsr
  · rfl

theorem normalize_of_isPlainForm {specifier plain : String} (form : IsPlainForm specifier plain) :
    normalize specifier = plain := by
  rw [normalize]
  cases form with
  | npm rest =>
    rw [← String.toList_inj, String.toList_ofList, String.toList_append, String.toList_append]
    rfl
  | jsr rest =>
    rw [← String.toList_inj, String.toList_ofList, String.toList_append, String.toList_append]
    rfl
  | same noNpm noJsr => rw [dropSlash_of_plain noNpm noJsr, String.ofList_toList]

/-- **Normalising a specifier** gives its plain form. -/
theorem normalize_eq_iff {specifier plain : String} :
    normalize specifier = plain ↔ IsPlainForm specifier plain := by
  refine ⟨?_, normalize_of_isPlainForm⟩
  rintro rfl
  obtain ⟨plain, form⟩ := IsPlainForm.exists specifier
  rwa [normalize_of_isPlainForm form]

/-- A specifier names a package elsewhere when it begins with one of the three protocols. -/
theorem isExternal_iff {specifier : String} :
    isExternal specifier = true ↔
      ∃ protocol ∈ ["npm:", "jsr:", "https:"], protocol.toList <+: specifier.toList := by
  simp [isExternal, externalProtocols]

/-- A bare specifier is covered when it begins with one of the names. -/
theorem isCovered_iff {bare : String} {names : List String} :
    isCovered bare names = true ↔ ∃ name ∈ names, name.toList <+: bare.toList := by
  simp [isCovered]

end Specifier

namespace ModuleGraph

/-! ### Edges that qualify -/

/-- Where an edge leads: its resolved specifier, or what the redirect of that specifier says, if it
is a string that is not empty. The redirect of a redirect is not followed. -/
def LeadsTo (graph : ModuleGraph) (edge : Dependency) (target : String) : Prop :=
  ∃ resolution specifier, edge.code = some resolution ∧ resolution.specifier = some specifier ∧
    (graph.redirects.find? specifier = some (.string target) ∨
      graph.redirects.find? specifier = none ∧ target = specifier) ∧
    target ≠ ""

/-- An edge is to be mapped to a specifier: the plain form of where it leads, which names a package
elsewhere, while the caller named the beginning of its bare specifier. -/
def QualifiesAs (graph : ModuleGraph) (external : List String) (edge : Dependency)
    (resolved : String) : Prop :=
  (∃ target, graph.LeadsTo edge target ∧ IsPlainForm target resolved) ∧
    (∃ protocol ∈ ["npm:", "jsr:", "https:"], protocol.toList <+: resolved.toList) ∧
    ∃ name ∈ external, name.toList <+: edge.specifier.toList

/-- An edge is to be mapped. -/
def Qualifies (graph : ModuleGraph) (external : List String) (edge : Dependency) : Prop :=
  ∃ resolved, graph.QualifiesAs external edge resolved

variable {graph : ModuleGraph} {external : List String} {edge : Dependency}

/-- The walk from an edge ends where the edge leads. -/
theorem target?_eq_some_iff {target : String} :
    graph.target? edge = some target ↔ graph.LeadsTo edge target := by
  have kept {text : String} :
      (if text.isEmpty then none else some text) = some target ↔ text = target ∧ target ≠ "" := by
    by_cases empty : text = ""
    · subst empty
      simp
    · have visible : text.isEmpty = false := by simpa using empty
      rw [visible, if_neg Bool.false_ne_true, Option.some.injEq]
      exact ⟨fun same => ⟨same, same ▸ empty⟩, And.left⟩
  have redirected {specifier : String} :
      ((graph.redirects.find? specifier).getD (.string specifier)).string? = some target ↔
        graph.redirects.find? specifier = some (.string target) ∨
          graph.redirects.find? specifier = none ∧ target = specifier := by
    rw [Json.string?_eq_some_iff]
    cases graph.redirects.find? specifier <;> simp [eq_comm]
  unfold target? LeadsTo
  simp only [Option.bind_eq_bind, Option.bind_eq_some_iff, kept]
  constructor
  · rintro ⟨resolution, coded, specifier, resolves, value, found, rfl, nonempty⟩
    exact ⟨resolution, specifier, coded, resolves, redirected.mp found, nonempty⟩
  · rintro ⟨resolution, specifier, coded, resolves, found, nonempty⟩
    exact ⟨resolution, coded, specifier, resolves, target, redirected.mpr found, rfl, nonempty⟩

/-- **What an edge writes into the map** is its bare specifier with what it is to be mapped to. -/
theorem mapping?_eq_some_iff {bare resolved : String} :
    graph.mapping? external edge = some (bare, resolved) ↔
      bare = edge.specifier ∧ graph.QualifiesAs external edge resolved := by
  unfold mapping? QualifiesAs
  simp only [Option.bind_eq_bind, Option.bind_eq_some_iff, target?_eq_some_iff,
    ← Specifier.normalize_eq_iff, ← Specifier.isExternal_iff, ← Specifier.isCovered_iff]
  constructor
  · rintro ⟨target, leads, written⟩
    split at written
    · rename_i passes
      obtain ⟨rfl, rfl⟩ := Prod.mk.inj (Option.some.inj written)
      obtain ⟨isExternal, isCovered⟩ := Bool.and_eq_true_iff.mp passes
      exact ⟨rfl, ⟨target, leads, rfl⟩, isExternal, isCovered⟩
    · cases written
  · rintro ⟨rfl, ⟨target, leads, rfl⟩, isExternal, isCovered⟩
    exact ⟨target, leads, if_pos (by rw [isExternal, isCovered, Bool.and_self])⟩

/-- Qualifying is decided by looking at what the edge writes. -/
instance : Decidable (graph.Qualifies external edge) :=
  decidable_of_iff ((graph.mapping? external edge).isSome = true) <| by
    rw [Option.isSome_iff_exists]
    constructor
    · rintro ⟨⟨bare, resolved⟩, writes⟩
      exact ⟨resolved, (mapping?_eq_some_iff.mp writes).2⟩
    · rintro ⟨resolved, qualifies⟩
      exact ⟨_, mapping?_eq_some_iff.mpr ⟨rfl, qualifies⟩⟩

/-- An edge that does not qualify writes nothing. -/
theorem mapping?_eq_none_iff :
    graph.mapping? external edge = none ↔ ¬ graph.Qualifies external edge := by
  rw [Option.eq_none_iff_forall_ne_some]
  constructor
  · rintro nothing ⟨resolved, qualifies⟩
    exact nothing _ (mapping?_eq_some_iff.mpr ⟨rfl, qualifies⟩)
  · rintro unqualified ⟨bare, resolved⟩ writes
    exact unqualified ⟨resolved, (mapping?_eq_some_iff.mp writes).2⟩

/-- The qualifying edges of the ES modules, in the order of the document. -/
def qualifyingEdges (graph : ModuleGraph) (external : List String) : List Dependency :=
  graph.modules.flatMap fun module =>
    module.dependencies.filter fun edge => module.kind = "esm" ∧ graph.Qualifies external edge

theorem qualifies_of_mem_qualifyingEdges (mem : edge ∈ graph.qualifyingEdges external) :
    graph.Qualifies external edge := by
  obtain ⟨module, -, kept⟩ := List.mem_flatMap.mp mem
  exact (of_decide_eq_true (List.mem_filter.mp kept).2).2

/-- The specifier that an edge writes into the map, if it writes one. -/
def writtenBy (graph : ModuleGraph) (external : List String) (edge : Dependency) : String :=
  ((graph.mapping? external edge).map Prod.snd).getD ""

theorem mapping?_of_qualifies (qualifies : graph.Qualifies external edge) :
    graph.mapping? external edge = some (edge.specifier, graph.writtenBy external edge) := by
  obtain ⟨resolved, qualifiesAs⟩ := qualifies
  have writes := mapping?_eq_some_iff.mpr ⟨rfl, qualifiesAs⟩
  rw [writtenBy, writes]
  rfl

theorem qualifiesAs_writtenBy_iff (qualifies : graph.Qualifies external edge) {resolved : String} :
    graph.QualifiesAs external edge resolved ↔ graph.writtenBy external edge = resolved := by
  have writes := mapping?_of_qualifies qualifies
  constructor
  · intro qualifiesAs
    rw [mapping?_eq_some_iff.mpr ⟨rfl, qualifiesAs⟩] at writes
    exact (Prod.mk.inj (Option.some.inj writes)).2.symm
  · rintro rfl
    exact (mapping?_eq_some_iff.mp writes).2

/-- What edges write is written by those that qualify. -/
theorem filterMap_mapping? (edges : List Dependency) :
    edges.filterMap (graph.mapping? external) =
      (edges.filter fun edge => graph.Qualifies external edge).map fun edge =>
        (edge.specifier, graph.writtenBy external edge) := by
  induction edges with
  | nil => rfl
  | cons edge rest ih =>
    by_cases qualifies : graph.Qualifies external edge
    · rw [List.filterMap_cons_some (mapping?_of_qualifies qualifies), ih,
        List.filter_cons_of_pos (by simpa using qualifies), List.map_cons]
    · rw [List.filterMap_cons_none (mapping?_eq_none_iff.mpr qualifies), ih,
        List.filter_cons_of_neg (by simpa using qualifies)]

/-- The qualifying edges are those of the walk that qualify. -/
theorem qualifyingEdges_eq (graph : ModuleGraph) (external : List String) :
    graph.qualifyingEdges external =
      graph.edges.filter fun edge => graph.Qualifies external edge := by
  rw [qualifyingEdges, edges, List.filter_flatMap]
  induction graph.modules with
  | nil => rfl
  | cons module rest ih =>
    rw [List.flatMap_cons, ih]
    by_cases isModule : module.kind = "esm"
    · rw [List.filter_cons_of_pos (by simpa using isModule), List.flatMap_cons]
      simp [isModule]
    · rw [List.filter_cons_of_neg (by simpa using isModule)]
      simp [isModule]

end ModuleGraph

/-! ### The map -/

namespace SpecifierMap

open ModuleGraph

/-- The map is what the qualifying edges write, one after another. -/
theorem ofGraph_eq (graph : ModuleGraph) (external : List String) :
    ofGraph graph external =
      .ofList ((graph.qualifyingEdges external).map fun edge =>
        (edge.specifier, graph.writtenBy external edge)) := by
  rw [ofGraph, filterMap_mapping?, qualifyingEdges_eq]

theorem keys_ofGraph (graph : ModuleGraph) (external : List String) :
    (ofGraph graph external).keys =
      firstsBy id ((graph.qualifyingEdges external).map Dependency.specifier) := by
  rw [ofGraph_eq, OrderedMap.keys_ofList, List.map_map]
  rfl

theorem find?_ofGraph (graph : ModuleGraph) (external : List String) (bare : String) :
    (ofGraph graph external).find? bare =
      lastValue (fun edge => some edge.specifier) (graph.writtenBy external) bare
        (graph.qualifyingEdges external) none := by
  have total : ((graph.qualifyingEdges external).map fun edge =>
        (edge.specifier, graph.writtenBy external edge)) =
      (graph.qualifyingEdges external).filterMap fun edge =>
        (some edge.specifier).map fun key => (key, graph.writtenBy external edge) :=
    (congrFun List.filterMap_eq_map' _).symm
  rw [ofGraph_eq, total]
  exact OrderedMap.find?_ofList_filterMap _ _ _ _

/-- An edge that does not qualify could as well be missing. -/
theorem ofGraph_of_unqualified {graph : ModuleGraph} {external : List String}
    {modules others : List GraphModule} {module : GraphModule}
    {dependencies rest : List Dependency} {edge : Dependency}
    (here : graph.modules = modules ++ module :: others)
    (there : module.dependencies = dependencies ++ edge :: rest)
    (unqualified : ¬ (module.kind = "esm" ∧ graph.Qualifies external edge)) :
    ofGraph { graph with
      modules := modules ++ { module with dependencies := dependencies ++ rest } :: others }
        external = ofGraph graph external := by
  have same : ModuleGraph.qualifyingEdges { graph with
      modules := modules ++ { module with dependencies := dependencies ++ rest } :: others }
        external = graph.qualifyingEdges external := by
    unfold qualifyingEdges
    rw [here, List.flatMap_append, List.flatMap_append, List.flatMap_cons, List.flatMap_cons,
      there, List.filter_append, List.filter_append,
      List.filter_cons_of_neg (by simpa using unqualified)]
    rfl
  rw [ofGraph_eq, ofGraph_eq, same]
  rfl

/-- **The map of a graph, exactly.** Its keys are the bare specifiers of the qualifying edges, in
the order in which they first appear; a key has the specifier that the last of its qualifying edges
is to be mapped to; and an edge that does not qualify could as well be missing. -/
theorem ofGraph_exactly_qualifying (graph : ModuleGraph) (external : List String) :
    (ofGraph graph external).keys =
        firstsBy id ((graph.qualifyingEdges external).map Dependency.specifier) ∧
      (∀ bare resolved, (ofGraph graph external).find? bare = some resolved ↔
        ∃ before edge after, graph.qualifyingEdges external = before ++ edge :: after ∧
          edge.specifier = bare ∧ graph.QualifiesAs external edge resolved ∧
          ∀ later ∈ after, later.specifier ≠ bare) ∧
      ∀ modules module others dependencies edge rest,
        graph.modules = modules ++ module :: others →
        module.dependencies = dependencies ++ edge :: rest →
        ¬ (module.kind = "esm" ∧ graph.Qualifies external edge) →
        ofGraph { graph with
          modules := modules ++ { module with dependencies := dependencies ++ rest } :: others }
            external = ofGraph graph external := by
  refine ⟨keys_ofGraph graph external, ?_, ?_⟩
  · intro bare resolved
    rw [find?_ofGraph, lastValue_eq_some_iff]
    simp only [reduceCtorEq, false_and, or_false, ne_eq, Option.some.injEq]
    constructor
    · rintro ⟨before, edge, after, split, here, written, later⟩
      have mem : edge ∈ graph.qualifyingEdges external := by simp [split]
      have qualifies := qualifies_of_mem_qualifyingEdges mem
      exact ⟨before, edge, after, split, here,
        (qualifiesAs_writtenBy_iff qualifies).mpr written, later⟩
    · rintro ⟨before, edge, after, split, here, qualifiesAs, later⟩
      exact ⟨before, edge, after, split, here,
        (qualifiesAs_writtenBy_iff ⟨resolved, qualifiesAs⟩).mp qualifiesAs, later⟩
  · intro modules module others dependencies edge rest here there unqualified
    exact ofGraph_of_unqualified here there unqualified

/-- Two modules import `h3`, which is resolved differently in them, and one of them has a file
beside it. The later resolution stands, and the file makes no difference. -/
theorem ofGraph_beside_file :
    let edge (bare target : String) : Dependency := ⟨bare, some ⟨some target, none, none⟩⟩
    let first : GraphModule := ⟨"a.ts", "esm", [edge "h3" "npm:h3@1", edge "h3/x" "file:///x.ts"]⟩
    let second : GraphModule := ⟨"b.ts", "esm", [edge "h3" "npm:h3@^2"]⟩
    let redirects : OrderedMap String Json := .ofList [("npm:h3@^2", .string "npm:/h3@2.0.1")]
    let graph : ModuleGraph := ⟨["a.ts"], [first, second], redirects⟩
    let without : ModuleGraph := ⟨["a.ts"], [{ first with dependencies := [edge "h3" "npm:h3@1"] },
      second], redirects⟩
    ¬ (first.kind = "esm" ∧ graph.Qualifies ["h3"] (edge "h3/x" "file:///x.ts")) ∧
      ofGraph without ["h3"] = ofGraph graph ["h3"] ∧
      (ofGraph graph ["h3"]).entries = [("h3", "npm:h3@2.0.1")] := by
  intro edge first second redirects graph without
  have unqualified :
      ¬ (first.kind = "esm" ∧ graph.Qualifies ["h3"] (edge "h3/x" "file:///x.ts")) := by
    decide +kernel
  have same := (ofGraph_exactly_qualifying graph ["h3"]).2.2 [] first [second]
    [edge "h3" "npm:h3@1"] (edge "h3/x" "file:///x.ts") [] rfl rfl unqualified
  exact ⟨unqualified, same, by decide +kernel⟩

end SpecifierMap

end EsmBundle
