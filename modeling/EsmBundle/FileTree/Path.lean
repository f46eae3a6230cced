import EsmBundle.Text.Split

/-!
Paths as texts: their parts, and how they are taken apart and joined.
-/

namespace EsmBundle

/-! ### Parts of a path -/

/-- The steps that a path takes, from the root or from the working directory; a
path that ends in a slash can only lead to a directory. -/
structure Path where
  absolute : Bool
  steps : List String
  slashAtEnd : Bool
deriving DecidableEq, Repr

namespace Path

/-- The names between the slashes of a text. -/
def names (cs : List Char) : List String :=
  ((splitAt '/' cs).filter fun name => !name.isEmpty).map String.ofList

/-- The path that a text writes. -/
def ofString (text : String) : Path :=
  let cs := text.toList
  ⟨cs.head? = some '/', names cs, cs.getLast? = some '/'⟩

/-- How a text writes the root that it starts from: exactly two slashes stay two,
any other number of them is one. -/
def rootText (cs : List Char) : String :=
  match (cs.takeWhile (· = '/')).length with
  | 0 => ""
  | 2 => "//"
  | _ => "/"

/-! ### Directory and last name -/

/-- A text that is slashes only. -/
def allSlashes (cs : List Char) : Bool :=
  cs.all (· = '/')

/-- The text up to and including the last slash. -/
def upToSlash (cs : List Char) : List Char :=
  (cs.reverse.dropWhile (· ≠ '/')).reverse

/-- The text after the last slash. -/
def lastName (cs : List Char) : List Char :=
  (cs.reverse.takeWhile (· ≠ '/')).reverse

/-- The text without the slashes at its end, unless it has nothing else. -/
def stripSlashes (cs : List Char) : List Char :=
  if allSlashes cs then cs else (cs.reverse.dropWhile (· = '/')).reverse

/-- The directory part of a path. -/
def directory (cs : List Char) : List Char :=
  stripSlashes (upToSlash cs)

/-- The directory part of a path given as a string. -/
def directoryOf (text : String) : String :=
  String.ofList (directory text.toList)

/-- The last name of a path given as a string. -/
def lastNameOf (text : String) : String :=
  String.ofList (lastName text.toList)

/-- A name below a path: a slash is put between them unless one is there or the
path is empty, and an absolute name stands alone. -/
def join (path name : String) : String :=
  if name.toList.head? = some '/' then name
  else if path.isEmpty || path.toList.getLast? = some '/' then path ++ name
  else path ++ "/" ++ name

/-- A path is what leads up to its last slash, followed by its last name. -/
theorem upToSlash_append_lastName (cs : List Char) : upToSlash cs ++ lastName cs = cs := by
  rw [upToSlash, lastName, ← List.reverse_append, List.takeWhile_append_dropWhile,
    List.reverse_reverse]

end Path

end EsmBundle
