import EsmBundle.Proofs.Graph.StrayValues

/-!
What a graph is read from: the well-formed parts of its document.

In a document whose list fields hold lists, an entry of a list either is well formed or counts as
missing. A module is any object, an edge is an object with a string for its specifier, and a root
is a string. `IsReadFrom` says for each part what it has to be to stand for an entry.

* `Sifts` — the well-formed entries of a list, in order, each with what it is read as.
* `Members.IsListed` — the documents whose list fields hold lists.
* `isReadFrom_iff` — the graph of such a document is the one that is read from its well-formed
  entries.
-/

namespace EsmBundle

/-! ### Well-formed entries -/

/-- A value is an object. -/
def Json.IsObject (value : Json) : Prop := ∃ members, value = .object members

/-- A value is a string. -/
def Json.IsString (value : Json) : Prop := ∃ text, value = .string text

theorem Json.not_isObject_iff {value : Json} : ¬ value.IsObject ↔ value.object? = none := by
  rw [Option.eq_none_iff_forall_ne_some, IsObject, not_exists]
  simp only [ne_eq, object?_eq_some_iff]

theorem Json.not_isString_iff {value : Json} : ¬ value.IsString ↔ value.string? = none := by
  rw [Option.eq_none_iff_forall_ne_some, IsString, not_exists]
  simp only [ne_eq, string?_eq_some_iff]

/-- A value is an object with a string for its specifier. -/
def Json.IsEdge (value : Json) : Prop :=
  ∃ fields text, value = .object fields ∧ findEntry "specifier" fields = some (.string text)

/-- The results are what the well-formed ones among the values are read as, in order; the others
count as missing. -/
inductive Sifts {α : Type} (WellFormed : Json → Prop) (Reads : Json → α → Prop) :
    List Json → List α → Prop where
  | nil : Sifts WellFormed Reads [] []
  | skipped {value : Json} {rest : List Json} {results : List α} :
      ¬ WellFormed value → Sifts WellFormed Reads rest results →
      Sifts WellFormed Reads (value :: rest) results
  | kept {value : Json} {rest : List Json} {result : α} {results : List α} :
      WellFormed value → Reads value result → Sifts WellFormed Reads rest results →
      Sifts WellFormed Reads (value :: rest) (result :: results)

/-- Sifting is what a reader does that gives something for the well-formed values only. -/
theorem sifts_iff {α : Type} {WellFormed : Json → Prop} {Reads : Json → α → Prop}
    {read : Json → Option α} {values : List Json} {results : List α}
    (skips : ∀ value ∈ values, ¬ WellFormed value ↔ read value = none)
    (reads : ∀ value ∈ values, ∀ result, Reads value result ↔ read value = some result) :
    Sifts WellFormed Reads values results ↔ results = values.filterMap read := by
  induction values generalizing results with
  | nil =>
    constructor
    · rintro ⟨⟩
      rfl
    · rintro rfl
      exact .nil
  | cons value rest ih =>
    obtain ⟨skipsFirst, skipsRest⟩ := List.forall_mem_cons.mp skips
    obtain ⟨readsFirst, readsRest⟩ := List.forall_mem_cons.mp reads
    constructor
    · rintro (_ | ⟨junk, sifted⟩ | ⟨-, first, sifted⟩)
      · rw [List.filterMap_cons_none (skipsFirst.mp junk)]
        exact (ih skipsRest readsRest).mp sifted
      · rw [List.filterMap_cons_some ((readsFirst _).mp first)]
        exact congrArg _ ((ih skipsRest readsRest).mp sifted)
    · rintro rfl
      have sifted := (ih skipsRest readsRest).mpr rfl
      cases known : read value with
      | none =>
        rw [List.filterMap_cons_none known]
        exact .skipped (skipsFirst.mpr known) sifted
      | some result =>
        rw [List.filterMap_cons_some known]
        refine .kept ?_ ((readsFirst _).mpr known) sifted
        refine Classical.not_not.mp fun junk => ?_
        rw [skipsFirst.mp junk] at known
        cases known

/-- A field holds this list, or is missing and the list is empty. -/
def Members.HoldsList (members : Members) (name : String) (items : List Json) : Prop :=
  findEntry name members = some (.array items) ∨ findEntry name members = none ∧ items = []

/-! ### Parts of a graph -/

/-- A resolution is read from the members of an object: its texts where they are strings, and its
span where that is an object. -/
structure Resolution.IsReadFrom (resolution : Resolution) (block : Members) : Prop where
  specifier : ∀ text, resolution.specifier = some text ↔
    findEntry "specifier" block = some (.string text)
  span : ∀ members, resolution.span = some members ↔
    findEntry "span" block = some (.object members)
  error : ∀ text, resolution.error = some text ↔ findEntry "error" block = some (.string text)

/-- An edge is read from an object with its specifier. Its resolution is read from the object that
stands for its code, and is missing where none does. -/
def Dependency.IsReadFrom (value : Json) (edge : Dependency) : Prop :=
  ∃ fields, value = .object fields ∧
    findEntry "specifier" fields = some (.string edge.specifier) ∧
    ((∃ block resolution, findEntry "code" fields = some (.object block) ∧
        edge.code = some resolution ∧ resolution.IsReadFrom block) ∨
      (∀ block, findEntry "code" fields ≠ some (.object block)) ∧ edge.code = none)

/-- A module is read from an object. Its edges are read from the well-formed ones among its
dependencies. -/
def GraphModule.IsReadFrom (value : Json) (module : GraphModule) : Prop :=
  ∃ fields : Members, ∃ items, value = .object fields ∧ fields.HoldsList "dependencies" items ∧
    module.specifier = fields.text "specifier" ∧ module.kind = fields.text "kind" ∧
    Sifts Json.IsEdge Dependency.IsReadFrom items module.dependencies

/-- A graph is read from the members of a document: its roots from the strings and its modules from
the objects in their lists, and its redirects from the members of their object. -/
structure ModuleGraph.IsReadFrom (members : Members) (graph : ModuleGraph) : Prop where
  roots : ∃ items, members.HoldsList "roots" items ∧
    Sifts Json.IsString (fun value root => value = .string root) items graph.roots
  modules : ∃ items, members.HoldsList "modules" items ∧
    Sifts Json.IsObject GraphModule.IsReadFrom items graph.modules
  redirects : ∃ table, (findEntry "redirects" members = some (.object table) ∨
      (∀ table, findEntry "redirects" members ≠ some (.object table)) ∧ table = []) ∧
    graph.redirects = .ofList table

/-- The list fields of a document that are read hold lists, or are missing. -/
structure Members.IsListed (members : Members) : Prop where
  modules : ∃ items, members.HoldsList "modules" items
  dependencies : ∀ items, members.HoldsList "modules" items →
    ∀ fields : Members, .object fields ∈ items → ∃ edges, fields.HoldsList "dependencies" edges
  roots : ∃ items, members.HoldsList "roots" items

/-! ### Reading the parts -/

namespace Members

variable {members : Members} {name : String} {items : List Json}

theorem string?_eq_some_iff {text : String} :
    members.string? name = some text ↔ findEntry name members = some (.string text) := by
  simp [string?, Option.bind_eq_some_iff, Json.string?_eq_some_iff]

theorem object?_eq_some_iff {fields : Members} :
    members.object? name = some fields ↔ findEntry name members = some (.object fields) := by
  simp [object?, Option.bind_eq_some_iff, Json.object?_eq_some_iff]

theorem object?_eq_none_iff :
    members.object? name = none ↔ ∀ fields, findEntry name members ≠ some (.object fields) := by
  simp only [Option.eq_none_iff_forall_ne_some, ne_eq, object?_eq_some_iff]

/-- A list in a field is no scalar, holds its own values and spells nothing. -/
theorem HoldsList.parts (holds : members.HoldsList name items) :
    ¬ members.IsStray name ∧ members.items name = items ∧ members.spelled name = [] := by
  rcases holds with held | ⟨missing, rfl⟩
  · simp [IsStray, Members.items, spelled, held, Json.IsStray, Json.items, Json.spelled]
  · simp [IsStray, Members.items, spelled, missing]

/-- A field that holds a list holds the one that is found. -/
theorem holdsList_iff (listed : ∃ items, members.HoldsList name items) :
    members.HoldsList name items ↔ items = members.items name := by
  obtain ⟨found, holds⟩ := listed
  have same := holds.parts.2.1
  constructor
  · intro holds
    exact holds.parts.2.1.symm
  · rintro rfl
    exact same ▸ holds

end Members

/-- What is read from the members of an object is the resolution that they describe. -/
theorem Resolution.isReadFrom_iff {resolution : Resolution} {block : Members} :
    resolution.IsReadFrom block ↔ resolution = ofMembers block := by
  constructor
  · rintro ⟨specifier, span, error⟩
    obtain ⟨specifier', span', error'⟩ := resolution
    have specifierSame : specifier' = block.string? "specifier" :=
      Option.ext fun text => (specifier text).trans Members.string?_eq_some_iff.symm
    have spanSame : span' = block.object? "span" :=
      Option.ext fun fields => (span fields).trans Members.object?_eq_some_iff.symm
    have errorSame : error' = block.string? "error" :=
      Option.ext fun text => (error text).trans Members.string?_eq_some_iff.symm
    rw [specifierSame, spanSame, errorSame]
    rfl
  · rintro rfl
    exact ⟨fun _ => Members.string?_eq_some_iff, fun _ => Members.object?_eq_some_iff,
      fun _ => Members.string?_eq_some_iff⟩

namespace Dependency

/-- What is read from a value is the edge that it describes. -/
theorem isReadFrom_iff {value : Json} {edge : Dependency} :
    IsReadFrom value edge ↔ ofJson? value = some edge := by
  have coded {fields : Members} :
      ((∃ block resolution, findEntry "code" fields = some (.object block) ∧
          edge.code = some resolution ∧ resolution.IsReadFrom block) ∨
        (∀ block, findEntry "code" fields ≠ some (.object block)) ∧ edge.code = none) ↔
      (fields.object? "code").map Resolution.ofMembers = edge.code := by
    simp only [Resolution.isReadFrom_iff, ← Members.object?_eq_some_iff,
      ← Members.object?_eq_none_iff]
    cases fields.object? "code" <;> simp [eq_comm]
  unfold IsReadFrom ofJson?
  simp only [coded, Option.bind_eq_bind, Option.bind_eq_some_iff, Json.object?_eq_some_iff,
    Members.string?_eq_some_iff]
  constructor
  · rintro ⟨fields, object, specifier, code⟩
    refine ⟨fields, object, edge.specifier, specifier, ?_⟩
    rw [code]
    rfl
  · rintro ⟨fields, object, specifier, found, same⟩
    obtain rfl := Option.some.inj same
    exact ⟨fields, object, found, rfl⟩

/-- Exactly the well-formed values describe an edge. -/
theorem not_isEdge_iff {value : Json} : ¬ value.IsEdge ↔ ofJson? value = none := by
  have described : value.IsEdge ↔ ∃ edge, ofJson? value = some edge := by
    unfold Json.IsEdge ofJson?
    simp only [Option.bind_eq_bind, Option.bind_eq_some_iff, Json.object?_eq_some_iff,
      Members.string?_eq_some_iff]
    constructor
    · rintro ⟨fields, text, object, specifier⟩
      exact ⟨_, fields, object, text, specifier, rfl⟩
    · rintro ⟨-, fields, object, text, specifier, -⟩
      exact ⟨fields, text, object, specifier⟩
  rw [described, Option.eq_none_iff_forall_ne_some, not_exists]

end Dependency

namespace GraphModule

/-- What is read from a value whose dependencies are a list is the module that it describes. -/
theorem isReadFrom_iff {value : Json} {module : GraphModule}
    (listed : ∀ fields : Members, value = .object fields →
      ∃ edges, fields.HoldsList "dependencies" edges) :
    IsReadFrom value module ↔ value.object?.map ofPresent = some module := by
  have sifted {items : List Json} :
      Sifts Json.IsEdge Dependency.IsReadFrom items module.dependencies ↔
        module.dependencies = items.filterMap Dependency.ofJson? :=
    sifts_iff (fun _ _ => Dependency.not_isEdge_iff) fun _ _ _ => Dependency.isReadFrom_iff
  simp only [IsReadFrom, sifted, Option.map_eq_some_iff, Json.object?_eq_some_iff]
  constructor
  · rintro ⟨fields, items, object, holds, specifier, kind, dependencies⟩
    rw [Members.holdsList_iff (listed fields object)] at holds
    refine ⟨fields, object, ?_⟩
    rw [ofPresent, ← specifier, ← kind, ← holds, ← dependencies]
  · rintro ⟨fields, object, rfl⟩
    exact ⟨fields, _, object, (Members.holdsList_iff (listed fields object)).mpr rfl, rfl, rfl, rfl⟩

end GraphModule

namespace ModuleGraph

variable {members : Members} {graph : ModuleGraph}

/-- What is read from a document whose list fields hold lists is the graph that it describes. -/
theorem isReadFrom_iff (listed : members.IsListed) :
    IsReadFrom members graph ↔ graph = ofPresent members := by
  have siftedRoots {items : List Json} :
      Sifts Json.IsString (fun value root => value = .string root) items graph.roots ↔
        graph.roots = items.filterMap Json.string? :=
    sifts_iff (fun _ _ => Json.not_isString_iff) fun _ _ _ => Json.string?_eq_some_iff.symm
  have siftedModules {items : List Json} (held : members.HoldsList "modules" items) :
      Sifts Json.IsObject GraphModule.IsReadFrom items graph.modules ↔
        graph.modules = items.filterMap fun value => value.object?.map GraphModule.ofPresent := by
    refine sifts_iff (fun value _ => ?_) fun value inside module => ?_
    · rw [Option.map_eq_none_iff, Json.not_isObject_iff]
    · refine GraphModule.isReadFrom_iff fun fields object => ?_
      exact listed.dependencies items held fields (object ▸ inside)
  have redirected {table : Members} :
      (findEntry "redirects" members = some (.object table) ∨
        (∀ table, findEntry "redirects" members ≠ some (.object table)) ∧ table = []) ↔
        table = (members.object? "redirects").getD [] := by
    rw [← Members.object?_eq_some_iff, ← Members.object?_eq_none_iff]
    cases members.object? "redirects" <;> simp [eq_comm]
  constructor
  · rintro ⟨⟨roots, heldRoots, sifted⟩, ⟨modules, heldModules, sifted'⟩, table, found, redirects⟩
    rw [siftedRoots, ← heldRoots.parts.2.1] at sifted
    rw [siftedModules heldModules, ← heldModules.parts.2.1, ← List.map_filterMap] at sifted'
    rw [redirected.mp found] at redirects
    obtain ⟨roots', modules', redirects'⟩ := graph
    obtain rfl := sifted
    obtain rfl := sifted'
    obtain rfl := redirects
    rfl
  · rintro rfl
    have heldModules := (Members.holdsList_iff listed.modules).mpr rfl
    refine ⟨⟨_, (Members.holdsList_iff listed.roots).mpr rfl, siftedRoots.mpr rfl⟩,
      ⟨_, heldModules, (siftedModules heldModules).mpr ?_⟩,
      ⟨_, redirected.mpr rfl, rfl⟩⟩
    exact List.map_filterMap

end ModuleGraph

end EsmBundle
