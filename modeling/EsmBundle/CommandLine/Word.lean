import EsmBundle.CommandLine.Flag
import EsmBundle.Text.DecimalDigit
import EsmBundle.Text.Split

/-!
The words of a command line by their kinds.

A word is plain, a flag, perhaps with a value attached to it, or an unknown
flag. The first `--` is a separator, and every word after it is plain.
-/

namespace EsmBundle

/-- A word by its kind. A flag keeps whether its spelling is a short one and the value attached to
it. -/
inductive Word where
  | plain (text : String)
  | flag (flag : Flag) (short : Bool) (value : Option (List Char))
  | unknown (text : String)
  | separator
deriving DecidableEq, Repr

namespace Word

/-- A spelling is short when its second character is not a dash too. -/
def isShort (spelling : String) : Bool :=
  spelling.toList[1]? != some '-'

/-- The flag and the value in a word such as `--name=value`. -/
def withEquals? (text : String) : Option Word := do
  let (spelling, value) ← cutAtEquals text
  let known ← Flag.ofSpelling? spelling
  return .flag known (isShort spelling) (some value.toList)

/-- The flag and the value in a word such as `-nvalue`. -/
def attached? (text : String) : Option Word :=
  match text.toList with
  | '-' :: letter :: value =>
    if letter = '-' then none
    else (Flag.ofLetter? letter).map fun known => .flag known true (some value)
  | _ => none

/-- The kind of a word before the separator. A word with a dash in front that is
no known flag is still plain when it looks like a negative number or holds a
space. -/
def classify (text : String) : Word :=
  if text.toList.head? ≠ some '-' then .plain text
  else
    match Flag.ofSpelling? text with
    | some known => .flag known (isShort text) none
    | none =>
      if text = "-" then .plain text
      else
        match (withEquals? text).or (attached? text) with
        | some word => word
        | none =>
          if looksNegative text || text.toList.contains ' ' then .plain text else .unknown text

/-- The words of a command line. -/
def ofArguments : List String → List Word
  | [] => []
  | text :: rest =>
    if text = "--" then .separator :: rest.map .plain else classify text :: ofArguments rest

end Word

end EsmBundle
