import EsmBundle.Decimal.Binary64

/-!
JSON documents. Integers of any size and floating-point numbers are different
values, and the members of an object keep their order.
-/

namespace EsmBundle

/-- A JSON document. -/
inductive Json where
  | null
  | bool (b : Bool)
  | int (n : Int)
  | real (x : Binary64)
  | string (s : String)
  | array (items : List Json)
  | object (members : List (String × Json))
deriving Repr, Inhabited

namespace Json

/-- The text of a string. -/
def string? : Json → Option String
  | .string s => some s
  | _ => none

/-- The members of an object. -/
def object? : Json → Option (List (String × Json))
  | .object members => some members
  | _ => none

theorem string?_eq_some_iff {value : Json} {text : String} :
    value.string? = some text ↔ value = .string text := by
  cases value <;> simp [string?]

theorem object?_eq_some_iff {value : Json} {members : List (String × Json)} :
    value.object? = some members ↔ value = .object members := by
  cases value <;> simp [object?]

/-- A truth value. -/
def bool? : Json → Option Bool
  | .bool b => some b
  | _ => none

theorem bool?_eq_some_iff {value : Json} {flag : Bool} :
    value.bool? = some flag ↔ value = .bool flag := by
  cases value <;> simp [bool?]

end Json

end EsmBundle
