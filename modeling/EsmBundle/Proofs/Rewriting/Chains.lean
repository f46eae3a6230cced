import EsmBundle.Proofs.Rewriting.Simultaneous
import EsmBundle.SpecifierMap

/-!
Chains in a map: pairs that take up what a pair before them has written.

The map of a graph holds one pair for every import of an external package, direct imports
of `npm:` and `jsr:` specifiers among them. So the resolved specifier of one pair can be
the bare one of a later pair, which then rewrites it in the running text. That is the only
way in which an import can end up with another specifier than the map has for it.

* `SpecifierMap.faithful_iff_keepsWritten` — a map gives every import its own resolution
  exactly when no later pairs lead a written specifier elsewhere.
* `SpecifierMap.keepsWritten_ofGraph` — so it is for a graph in which all external
  packages are imported by names without a protocol.
-/

namespace EsmBundle

namespace SpecifierMap

/-- Every import of a bare specifier of the map holds its resolution after the substitution, in
every text. -/
def Faithful (mappings : SpecifierMap) : Prop :=
  ∀ (text : String) (i : Nat) (quote : Char) (bare resolved : String),
    (QuoteCut.ofText text.toList).IsImportSlot i →
    (QuoteCut.ofText text.toList).pieces[i]? = some (quote, bare.toList) →
    mappings.find? bare = some resolved →
    (QuoteCut.ofText (substituteSpecifiers mappings text).1.toList).pieces[i]? =
      some (quote, resolved.toList)

/-- No resolved specifier is led elsewhere by the pairs behind its own. -/
def KeepsWritten (mappings : SpecifierMap) : Prop :=
  ∀ before bare resolved after, mappings.entries = before ++ (bare, resolved) :: after →
    settle after resolved.toList = resolved.toList

variable {mappings : SpecifierMap}

/-- The substitution settles the contents of the import slots, and leaves the rest of the cut. -/
theorem ofText_substituteSpecifiers
    (plain : ∀ entry ∈ mappings.entries, Plain entry.1.toList ∧ Plain entry.2.toList)
    (text : String) :
    QuoteCut.ofText (substituteSpecifiers mappings text).1.toList =
      (QuoteCut.ofText text.toList).swapSlots (settle mappings.entries) := by
  have run : (substituteSpecifiers mappings text).1.toList =
      ((QuoteCut.ofText text.toList).swapSlots (settle mappings.entries)).text := by
    rw [← (substituteEach_ofText plain text.toList).1]
    exact String.toList_ofList
  have proper := ((QuoteCut.ofText text.toList).tame_settle plain).proper
    (QuoteCut.proper_ofText text.toList)
  rw [run, QuoteCut.swapSlots, QuoteCut.ofText_text proper]

/-- What an import slot holds after the substitution. -/
theorem getElem?_pieces_substituteSpecifiers
    (plain : ∀ entry ∈ mappings.entries, Plain entry.1.toList ∧ Plain entry.2.toList)
    {text : String} {i : Nat} {quote : Char} {content : List Char}
    (slot : (QuoteCut.ofText text.toList).IsImportSlot i)
    (holds : (QuoteCut.ofText text.toList).pieces[i]? = some (quote, content)) :
    (QuoteCut.ofText (substituteSpecifiers mappings text).1.toList).pieces[i]? =
      some (quote, settle mappings.entries content) := by
  rw [ofText_substituteSpecifiers plain, QuoteCut.swapSlots, QuoteCut.getElem?_pieces_mapPieces,
    holds]
  simp [slot]

/-- The pairs settle a bare specifier to what the pairs behind its own make of its resolution. -/
theorem settle_bare {before after : List (String × String)} {bare resolved : String}
    (split : mappings.entries = before ++ (bare, resolved) :: after) :
    settle mappings.entries bare.toList = settle after resolved.toList := by
  have distinct := mappings.distinct
  rw [split] at distinct ⊢
  have absent : String.ofList bare.toList ∉ before.map Prod.fst := by
    rw [String.ofList_toList]
    exact bare_not_mem_before distinct
  rw [settle_append, settle_of_not_mem absent, settle, if_pos rfl]

/-- **A map is faithful exactly when it keeps what it has written.** -/
theorem faithful_iff_keepsWritten
    (plain : ∀ entry ∈ mappings.entries, Plain entry.1.toList ∧ Plain entry.2.toList) :
    mappings.Faithful ↔ mappings.KeepsWritten := by
  constructor
  · intro faithful before bare resolved after split
    have mem : (bare, resolved) ∈ mappings.entries := by simp [split]
    -- One import of the bare specifier shows what becomes of its resolution.
    let cut : QuoteCut := ⟨"import from ".toList, [('"', bare.toList), ('"', [])]⟩
    have proper : cut.Proper := by
      refine ⟨(show QuoteFree "import from ".toList by decide), ?_⟩
      simp only [cut, List.forall_mem_cons]
      exact ⟨⟨rfl, (plain _ mem).1.1⟩, ⟨rfl, by decide⟩, by simp⟩
    have same : QuoteCut.ofText (String.ofList cut.text).toList = cut := by
      rw [String.toList_ofList, QuoteCut.ofText_text proper]
    have slot : cut.IsImportSlot 0 :=
      Or.inl ⟨_, _, _, _, rfl, rfl, rfl,
        (show ClauseForm.static.EndsInHead "import from ".toList by decide),
        ClauseForm.beginsWithTail_static _⟩
    rw [← same] at slot
    have holds : (QuoteCut.ofText (String.ofList cut.text).toList).pieces[0]? =
        some ('"', bare.toList) := by
      rw [same]
      rfl
    have kept := faithful _ 0 '"' bare resolved slot holds
      ((findEntry_eq_some_iff mappings.distinct).mpr mem)
    rw [getElem?_pieces_substituteSpecifiers plain slot holds, settle_bare split] at kept
    exact (Prod.mk.inj (Option.some.inj kept)).2
  · intro keeps text i quote bare resolved slot holds found
    have mem := (findEntry_eq_some_iff mappings.distinct).mp found
    obtain ⟨before, after, split⟩ := List.append_of_mem mem
    rw [getElem?_pieces_substituteSpecifiers plain slot holds, settle_bare split,
      keeps before bare resolved after split]

/-! ### The map of a graph -/

/-- What an edge writes into the map names a package elsewhere. -/
theorem isExternal_of_mapping?_eq_some {graph : ModuleGraph} {external : List String}
    {edge : Dependency} {bare resolved : String}
    (writes : graph.mapping? external edge = some (bare, resolved)) :
    Specifier.isExternal resolved = true := by
  unfold ModuleGraph.mapping? at writes
  obtain ⟨target, -, writes⟩ := Option.bind_eq_some_iff.mp writes
  dsimp only at writes
  split at writes
  · rename_i covered
    obtain ⟨rfl, rfl⟩ := Prod.mk.inj (Option.some.inj writes)
    exact (Bool.and_eq_true_iff.mp covered).1
  · cases writes

/-- The map of a graph keeps what it has written when its bare specifiers have no protocol. -/
theorem keepsWritten_ofGraph {graph : ModuleGraph} {external : List String}
    (bare : ∀ key ∈ (ofGraph graph external).keys, Specifier.isExternal key = false) :
    (ofGraph graph external).KeepsWritten := by
  intro before key resolved after split
  have mem : (key, resolved) ∈ (ofGraph graph external).entries := by simp [split]
  obtain ⟨edge, -, writes⟩ := List.mem_filterMap.mp (OrderedMap.mem_of_mem_ofList mem)
  have elsewhere := isExternal_of_mapping?_eq_some writes
  refine settle_of_not_mem ?_
  intro later
  rw [String.ofList_toList] at later
  have isKey : resolved ∈ (ofGraph graph external).keys := by
    rw [OrderedMap.keys, split, List.map_append, List.map_cons]
    exact List.mem_append_right _ (List.mem_cons_of_mem _ later)
  rw [bare resolved isKey] at elsewhere
  cases elsewhere

/-- **The map of a graph gives every import its own resolution** exactly when it keeps what it has
written, and so it does when its bare specifiers have no protocol. -/
theorem faithful_ofGraph_iff (graph : ModuleGraph) (external : List String)
    (plain : ∀ entry ∈ (ofGraph graph external).entries,
      Plain entry.1.toList ∧ Plain entry.2.toList) :
    ((ofGraph graph external).Faithful ↔ (ofGraph graph external).KeepsWritten) ∧
      ((∀ key ∈ (ofGraph graph external).keys, Specifier.isExternal key = false) →
        (ofGraph graph external).Faithful) := by
  have iff := faithful_iff_keepsWritten plain
  exact ⟨iff, fun bare => iff.mpr (keepsWritten_ofGraph bare)⟩

/-- The graph of one module that imports `h3`, which is redirected twice, and something else. -/
def importsBeside (bare target : String) : ModuleGraph where
  roots := ["file:///work/main.ts"]
  modules := [⟨"file:///work/main.ts", "esm",
    [⟨"h3", some ⟨some "npm:h3", none, none⟩⟩, ⟨bare, some ⟨some target, none, none⟩⟩]⟩]
  redirects := .ofList [("npm:h3", .string "npm:h3@1"), ("npm:h3@1", .string "npm:h3@1.15.1")]

/-- A second import by name does no harm. -/
theorem faithful_beside_router :
    (ofGraph (importsBeside "h3/router" "npm:/h3@1/router") ["h3"]).Faithful :=
  (faithful_ofGraph_iff (importsBeside "h3/router" "npm:/h3@1/router") ["h3"]
    (by decide +kernel)).2 (by decide +kernel)

/-- A second import of the very specifier that is written takes the first one along. -/
theorem not_faithful_beside_resolved :
    ¬ (ofGraph (importsBeside "npm:h3@1" "npm:h3@1") ["h3", "npm:"]).Faithful := by
  intro faithful
  have written := faithful "import x from \"h3\";" 0 '"' "h3" "npm:h3@1" (by decide +kernel)
    (by decide +kernel) (by decide +kernel)
  exact absurd written (by decide +kernel)

end SpecifierMap

end EsmBundle
