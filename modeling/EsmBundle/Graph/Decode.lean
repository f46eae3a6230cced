import EsmBundle.Graph.Basic
import EsmBundle.Json.Printer

/-!
Reading a module graph from the document that the loader prints.

Entries of the wrong shape are skipped: modules and resolutions that are no
objects, edges without a specifier, roots that are no strings. A field that
should hold a list may be void, and a string or an object there counts as the
list of its characters or names. Only another scalar in such a place makes the
document unreadable.
-/

namespace EsmBundle

/-- A scalar that stands where a list should. -/
inductive StrayScalar where
  | int
  | bool
  | real
deriving DecidableEq, Repr

/-- The wording of a stray scalar. -/
def StrayScalar.message (scalar : StrayScalar) : String :=
  let kind :=
    match scalar with
    | .int => "int"
    | .bool => "bool"
    | .real => "float"
  "'" ++ kind ++ "' object is not iterable"

/-- The values that a list field holds. -/
def Json.elements : Json → Except StrayScalar (List Json)
  | .null => .ok []
  | .bool b => if b then .error .bool else .ok []
  | .int n => if n = 0 then .ok [] else .error .int
  | .real x => if x.isZero then .ok [] else .error .real
  | .string s => .ok (s.toList.map fun c => .string (String.singleton c))
  | .array items => .ok items
  | .object members => .ok (members.map fun member => .string member.1)

/-- The members of an object. -/
abbrev Members := List (String × Json)

namespace Members

/-- The values of a list field, none when it is missing. -/
def elements (members : Members) (name : String) : Except StrayScalar (List Json) :=
  match findEntry name members with
  | some value => value.elements
  | none => .ok []

/-- The text of a field, empty when it is missing. -/
def text (members : Members) (name : String) : String :=
  match findEntry name members with
  | some value => value.display
  | none => ""

/-- The string in a field. -/
def string? (members : Members) (name : String) : Option String :=
  (findEntry name members).bind Json.string?

/-- The object in a field. -/
def object? (members : Members) (name : String) : Option Members :=
  (findEntry name members).bind Json.object?

end Members

namespace Resolution

/-- The resolution that an object describes. -/
def ofMembers (members : Members) : Resolution where
  specifier := members.string? "specifier"
  span := members.object? "span"
  error := members.string? "error"

end Resolution

namespace Dependency

/-- The edge that a value describes: an object with a specifier. -/
def ofJson? (value : Json) : Option Dependency := do
  let members : Members ← value.object?
  let specifier ← members.string? "specifier"
  return ⟨specifier, (members.object? "code").map Resolution.ofMembers⟩

end Dependency

namespace GraphModule

/-- The module that an object describes. -/
def ofMembers (members : Members) : Except StrayScalar GraphModule := do
  let dependencies ← members.elements "dependencies"
  return ⟨members.text "specifier", members.text "kind", dependencies.filterMap Dependency.ofJson?⟩

/-- The modules that a list of values describes. -/
def ofJsons : List Json → Except StrayScalar (List GraphModule)
  | [] => .ok []
  | value :: rest =>
    match value.object? with
    | none => ofJsons rest
    | some members => do
      let module ← ofMembers members
      let modules ← ofJsons rest
      return module :: modules

end GraphModule

namespace ModuleGraph

/-- The graph that an object describes. -/
def ofMembers (members : Members) : Except StrayScalar ModuleGraph := do
  let modules ← members.elements "modules"
  let modules ← GraphModule.ofJsons modules
  let roots ← members.elements "roots"
  let redirects := (members.object? "redirects").getD []
  return ⟨roots.filterMap Json.string?, modules, .ofList redirects⟩

end ModuleGraph

end EsmBundle
