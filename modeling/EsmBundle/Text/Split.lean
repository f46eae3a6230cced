/-!
Cutting texts: at every comma, and at the first equals sign.
-/

namespace EsmBundle

/-- The pieces between the separators, in order, empty ones included. -/
def splitAt (separator : Char) : List Char → List (List Char)
  | [] => [[]]
  | c :: rest =>
    if c = separator then [] :: splitAt separator rest
    else
      match splitAt separator rest with
      | [] => [[c]]
      | piece :: pieces => (c :: piece) :: pieces

/-- The pieces of a text between commas that are not empty. -/
def commaPieces (s : String) : List String :=
  ((splitAt ',' s.toList).filter fun piece => !piece.isEmpty).map String.ofList

/-- What stands before and after the first separator, if there is one. -/
def cutAtFirst (separator : Char) : List Char → Option (List Char × List Char)
  | [] => none
  | c :: rest =>
    if c = separator then some ([], rest)
    else (cutAtFirst separator rest).map fun parts => (c :: parts.1, parts.2)

/-- The text before and after the first equals sign, if there is one. -/
def cutAtEquals (s : String) : Option (String × String) :=
  (cutAtFirst '=' s.toList).map fun parts => (String.ofList parts.1, String.ofList parts.2)

/-- A text is cut at a separator, and at the first one. -/
theorem cutAtFirst_eq_some_iff {separator : Char} {cs before after : List Char} :
    cutAtFirst separator cs = some (before, after) ↔
      cs = before ++ separator :: after ∧ separator ∉ before := by
  induction cs generalizing before with
  | nil => simp [cutAtFirst]
  | cons c rest ih =>
    by_cases h : c = separator
    · subst h
      cases before with
      | nil => simp [cutAtFirst]
      | cons d ds => grind [cutAtFirst]
    · cases before with
      | nil => simp [cutAtFirst, h]
      | cons d ds =>
        have : cutAtFirst separator (c :: rest) = some (d :: ds, after) ↔
            c = d ∧ cutAtFirst separator rest = some (ds, after) := by
          simp [cutAtFirst, h]
          grind
        rw [this, ih]
        grind

end EsmBundle
