import EsmBundle.Decimal.Layout
import EsmBundle.Json.Value
import EsmBundle.Text.Quoted

/-!
Two ways to write a JSON document as text.

`compact` is JSON again, without spaces and with as few escapes as the format
allows. `display` is the form in which a value stands for a name: a string is
itself, and other values are shown with capitalised words and quoted strings.
-/

namespace EsmBundle.Json

/-! ### Numbers -/

/-- Numbers are written positionally from 10⁻⁴ up to 10¹⁶. -/
def compactLayout : Layout := ⟨-4, 16, "Infinity", "NaN"⟩

/-- As in a document, with lowercase names for the values without digits. -/
def displayLayout : Layout := ⟨-4, 16, "inf", "nan"⟩

/-! ### As JSON -/

/-- One character of a string: quotes, backslashes and controls are escaped. -/
def escapeChar (c : Char) : List Char :=
  if c = '"' then ['\\', '"']
  else if c = '\\' then ['\\', '\\']
  else if c = '\n' then ['\\', 'n']
  else if c = '\r' then ['\\', 'r']
  else if c = '\t' then ['\\', 't']
  else if c = '\x08' then ['\\', 'b']
  else if c = '\x0c' then ['\\', 'f']
  else if c.toNat < 0x20 then '\\' :: 'u' :: Quoted.hex 4 c.toNat
  else [c]

/-- A string with its quotes. -/
def compactString (s : String) : String :=
  String.ofList ('"' :: s.toList.flatMap escapeChar ++ ['"'])

mutual

/-- The document as JSON without spaces. -/
def compact : Json → String
  | .null => "null"
  | .bool b => if b then "true" else "false"
  | .int n => toString n
  | .real x => compactLayout.write x
  | .string s => compactString s
  | .array items => "[" ++ ",".intercalate (compactItems items) ++ "]"
  | .object members => "\x7b" ++ ",".intercalate (compactMembers members) ++ "\x7d"

/-- Each item as JSON. -/
def compactItems : List Json → List String
  | [] => []
  | item :: rest => compact item :: compactItems rest

/-- Each member as JSON. -/
def compactMembers : List (String × Json) → List String
  | [] => []
  | (name, value) :: rest =>
    (compactString name ++ ":" ++ compact value) :: compactMembers rest

end

/-! ### For display -/

mutual

/-- A value inside a collection, its strings quoted. -/
def displayInner : Json → String
  | .null => "None"
  | .bool b => if b then "True" else "False"
  | .int n => toString n
  | .real x => displayLayout.write x
  | .string s => quoted s
  | .array items => "[" ++ ", ".intercalate (displayItems items) ++ "]"
  | .object members => "\x7b" ++ ", ".intercalate (displayMembers members) ++ "\x7d"

/-- Each item for display. -/
def displayItems : List Json → List String
  | [] => []
  | item :: rest => displayInner item :: displayItems rest

/-- Each member for display. -/
def displayMembers : List (String × Json) → List String
  | [] => []
  | (name, value) :: rest => (quoted name ++ ": " ++ displayInner value) :: displayMembers rest

end

/-- The text that a value stands for: a string is itself. -/
def display : Json → String
  | .string s => s
  | value => displayInner value

end EsmBundle.Json
