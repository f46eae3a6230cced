/-!
Values that options are given.

The separator of the command line is no value. Where a value has to be and the
separator stands in its place, the option is given, but its value is void: it
holds nothing, and still it hides a value from elsewhere.
-/

namespace EsmBundle

/-- The value of an option that is given: a text, or nothing. -/
inductive OptionValue where
  | text (value : String)
  | void
deriving DecidableEq, Repr

namespace OptionValue

/-- The value that a word gives. -/
def ofWord (word : String) : OptionValue :=
  if word = "--" then .void else .text word

/-- A value as it is printed and as lists take it up; a void one is an empty list. -/
def display : OptionValue → String
  | .text value => value
  | .void => "[]"

/-- A value as a path; a void one is the empty path. -/
def path : OptionValue → String
  | .text value => value
  | .void => ""

/-- A word that is not the separator stands for itself. -/
theorem ofWord_of_ne {word : String} (h : word ≠ "--") : ofWord word = .text word :=
  if_neg h

end OptionValue

end EsmBundle
