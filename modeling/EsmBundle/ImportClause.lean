import EsmBundle.Text.Blank
import EsmBundle.Text.Scan

/-!
The places of a text where a module specifier is imported.

A static clause is the word `import` or `export`, a run without quotes that ends
in `from` and blanks, and a quoted specifier. A dynamic clause is the word
`import` and a quoted specifier alone in parentheses, with blanks anywhere
between. The two quotes of a specifier are the same character. The clauses are
found in the text as it stands, so also inside strings and comments, and a word
may be the end of a longer one.
-/

namespace EsmBundle

/-! ### Clauses -/

/-- The two forms of a clause. -/
inductive ClauseForm where
  | static
  | dynamic
deriving DecidableEq, Repr

/-- A clause around a specifier: what stands before and after it, the quotes included. -/
structure ImportClause where
  head : List Char
  tail : List Char
deriving DecidableEq, Repr

/-- The number of characters of a clause around a specifier. -/
def ImportClause.width (bare : List Char) (clause : ImportClause) : Nat :=
  clause.head.length + bare.length + clause.tail.length

/-- A quote of either kind. -/
def isQuote (c : Char) : Bool :=
  c = '"' || c = '\''

/-- The text after a word, if it begins with it. -/
def dropWord? (word cs : List Char) : Option (List Char) :=
  if word.isPrefixOf cs then some (cs.drop word.length) else none

namespace ImportClause

/-- The words that begin a static clause. -/
def keywords : List (List Char) :=
  ["import".toList, "export".toList]

/-- A run ends in `from` and blanks. -/
def endsInFrom (run : List Char) : Bool :=
  "from".toList.isSuffixOf (trimRight run)

/-- The static clause around `bare` in front of a text whose first word is `keyword`. -/
def staticAfter? (bare keyword cs : List Char) : Option ImportClause :=
  match dropWord? keyword cs with
  | none => none
  | some rest =>
    let run := rest.takeWhile (!isQuote ·)
    match rest.dropWhile (!isQuote ·) with
    | [] => none
    | quote :: rest =>
      if endsInFrom run && (bare ++ [quote]).isPrefixOf rest then
        some ⟨keyword ++ run ++ [quote], [quote]⟩
      else none

/-- The static clause around `bare` in front of a text. -/
def static? (bare cs : List Char) : Option ImportClause :=
  keywords.findSome? fun keyword => staticAfter? bare keyword cs

/-- The dynamic clause around `bare` in front of a text. -/
def dynamic? (bare cs : List Char) : Option ImportClause :=
  match dropWord? "import".toList cs with
  | none => none
  | some rest =>
    match trimLeft rest with
    | '(' :: inner =>
      match trimLeft inner with
      | [] => none
      | quote :: rest' =>
        if isQuote quote then
          match dropWord? (bare ++ [quote]) rest' with
          | none => none
          | some after =>
            match trimLeft after with
            | ')' :: _ =>
              some ⟨"import".toList ++ rest.takeWhile isBlank ++ ['('] ++
                inner.takeWhile isBlank ++ [quote], quote :: after.takeWhile isBlank ++ [')']⟩
            | _ => none
        else none
    | _ => none

end ImportClause

/-- The clause of a form around `bare` in front of a text. -/
def ClauseForm.find? (form : ClauseForm) (bare cs : List Char) : Option ImportClause :=
  match form with
  | .static => ImportClause.static? bare cs
  | .dynamic => ImportClause.dynamic? bare cs

/-- The clauses of a form around `bare` in a text with their positions, from the left and without
overlap. -/
def ClauseForm.clauses (form : ClauseForm) (bare cs : List Char) : List (Nat × ImportClause) :=
  scan (form.find? bare) (ImportClause.width bare) 0 0 cs

/-! ### Substitution -/

/-- The place of the specifier in a clause at a position. -/
def ImportClause.slot (bare : List Char) (place : Nat × ImportClause) : Span :=
  let start := place.1 + place.2.head.length
  ⟨start, start + bare.length⟩

/-- The text with another specifier in every clause of a form around `bare`, and
whether there was one. -/
def ClauseForm.substitute (form : ClauseForm) (bare resolved cs : List Char) :
    List Char × Bool :=
  let clauses := form.clauses bare cs
  (splice resolved 0 cs (clauses.map (ImportClause.slot bare)), !clauses.isEmpty)

end EsmBundle
