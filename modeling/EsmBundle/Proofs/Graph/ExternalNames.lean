import EsmBundle.Proofs.Graph.Mapping

/-!
How the map of a graph depends on the names that the caller keeps out.

A name only decides which bare specifiers are looked at, not what they are mapped to. So more names
make a larger map, in which the entries of the fewer names stand as they were.

* `qualifiesAs_iff_of_subset`, `mapping?_of_subset` — an edge and what it writes, under fewer names.
* `ofGraph_restricts` — the map of some of the names is the part of the whole map that they cover,
  and neither the order of the names nor their number counts.
-/

namespace EsmBundle

namespace ModuleGraph

variable {graph : ModuleGraph} {names more : List String} {edge : Dependency}

/-- Under fewer names, an edge is to be mapped as under more, if they still cover it. -/
theorem qualifiesAs_iff_of_subset (among : ∀ name ∈ names, name ∈ more) {resolved : String} :
    graph.QualifiesAs names edge resolved ↔
      graph.QualifiesAs more edge resolved ∧
        ∃ name ∈ names, name.toList <+: edge.specifier.toList := by
  constructor
  · rintro ⟨leads, elsewhere, name, mem, begins⟩
    exact ⟨⟨leads, elsewhere, name, among name mem, begins⟩, name, mem, begins⟩
  · rintro ⟨⟨leads, elsewhere, -⟩, covered⟩
    exact ⟨leads, elsewhere, covered⟩

/-- Under fewer names, an edge writes what it writes under more, if they still cover it. -/
theorem mapping?_of_subset (among : ∀ name ∈ names, name ∈ more) :
    graph.mapping? names edge =
      (graph.mapping? more edge).filter fun pair =>
        ∃ name ∈ names, name.toList <+: pair.1.toList := by
  ext ⟨bare, resolved⟩
  rw [Option.filter_eq_some_iff, mapping?_eq_some_iff, mapping?_eq_some_iff,
    qualifiesAs_iff_of_subset among, decide_eq_true_iff]
  constructor
  · rintro ⟨rfl, qualifies, covered⟩
    exact ⟨⟨rfl, qualifies⟩, covered⟩
  · rintro ⟨⟨rfl, qualifies⟩, covered⟩
    exact ⟨rfl, qualifies, covered⟩

end ModuleGraph

namespace SpecifierMap

open ModuleGraph

/-- The map of fewer names is the part of the map of more that they cover. -/
theorem entries_ofGraph_of_subset (graph : ModuleGraph) {names more : List String}
    (among : ∀ name ∈ names, name ∈ more) :
    (ofGraph graph names).entries =
      (ofGraph graph more).entries.filter fun entry =>
        ∃ name ∈ names, name.toList <+: entry.1.toList := by
  have pairs : graph.edges.filterMap (graph.mapping? names) =
      (graph.edges.filterMap (graph.mapping? more)).filter fun pair =>
        ∃ name ∈ names, name.toList <+: pair.1.toList := by
    rw [List.filter_filterMap]
    exact congrArg (graph.edges.filterMap ·) (funext fun edge => mapping?_of_subset among)
  rw [ofGraph, pairs]
  exact OrderedMap.entries_ofList_filter
    (fun bare : String => decide (∃ name ∈ names, name.toList <+: bare.toList)) _

/-- **More names only add entries.** The map of some names is the part of the map of these and any
others whose keys begin with one of them, with the same values in the same order. The map depends
on which names there are, not on their order or how often each is given. -/
theorem ofGraph_restricts (graph : ModuleGraph) :
    (∀ names others : List String,
        (ofGraph graph names).entries =
          (ofGraph graph (names ++ others)).entries.filter fun entry =>
            ∃ name ∈ names, name.toList <+: entry.1.toList) ∧
      ∀ names others : List String, (∀ name, name ∈ names ↔ name ∈ others) →
        ofGraph graph names = ofGraph graph others := by
  refine ⟨?_, ?_⟩
  · intro names others
    exact entries_ofGraph_of_subset graph fun name mem => List.mem_append_left others mem
  · intro names others same
    refine OrderedMap.ext ?_
    calc (ofGraph graph names).entries
        = (ofGraph graph others).entries.filter fun entry =>
            ∃ name ∈ names, name.toList <+: entry.1.toList :=
          entries_ofGraph_of_subset graph fun name mem => (same name).mp mem
      _ = (ofGraph graph others).entries.filter fun entry =>
            ∃ name ∈ others, name.toList <+: entry.1.toList := by simp only [same]
      _ = (ofGraph graph others).entries :=
          (entries_ofGraph_of_subset graph fun name mem => mem).symm

/-- A module imports two packages, one of them by two specifiers, and resolves one specifier twice.
The map of one name is a part of the map of both, in which the last resolution stands; both names in
the other order, one of them twice, make the same map. -/
theorem ofGraph_restricts_to_h3 :
    let edge (bare target : String) : Dependency := ⟨bare, some ⟨some target, none, none⟩⟩
    let graph : ModuleGraph := ⟨["a.ts"], [⟨"a.ts", "esm", [edge "h3" "npm:h3@1",
      edge "hono" "jsr:@hono/hono@4", edge "h3/router" "npm:h3@1/router",
      edge "h3" "npm:h3@2"]⟩], .empty⟩
    (ofGraph graph (["h3"] ++ ["hono"])).entries =
        [("h3", "npm:h3@2"), ("hono", "jsr:@hono/hono@4"), ("h3/router", "npm:h3@1/router")] ∧
      (ofGraph graph ["h3"]).entries = [("h3", "npm:h3@2"), ("h3/router", "npm:h3@1/router")] ∧
      ofGraph graph ["h3", "hono"] = ofGraph graph ["hono", "h3", "hono"] := by
  intro edge graph
  have both : (ofGraph graph (["h3"] ++ ["hono"])).entries =
      [("h3", "npm:h3@2"), ("hono", "jsr:@hono/hono@4"), ("h3/router", "npm:h3@1/router")] := by
    decide +kernel
  refine ⟨both, ?_, ?_⟩
  · rw [(ofGraph_restricts graph).1 ["h3"] ["hono"], both]
    decide
  · refine (ofGraph_restricts graph).2 ["h3", "hono"] ["hono", "h3", "hono"] fun name => ?_
    simp only [List.mem_cons, List.not_mem_nil, or_false]
    grind

end SpecifierMap

end EsmBundle
