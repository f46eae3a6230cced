import EsmBundle.OrderedMap
import EsmBundle.Text.Scan

/-!
Literal replacements in a text.

Each pair of a search text and its replacement is one pass over the running text:
the occurrences are taken from the left without overlap, and what a pass writes is
not searched again in that pass. A pair with an empty search text does nothing.
-/

namespace EsmBundle

/-- Search texts with their replacements, in the order of their passes. -/
abbrev Replacements := OrderedMap String String

/-- The leftmost occurrences of a search text that do not overlap. -/
def occurrences (search cs : List Char) : List Span :=
  (scan (fun cs => if search.isPrefixOf cs then some () else none) (fun _ => search.length)
    0 0 cs).map fun found => ⟨found.1, found.1 + search.length⟩

/-- One pass: every occurrence of the search text is replaced. -/
def replaceAll (search replacement cs : List Char) : List Char :=
  if search.isEmpty then cs else splice replacement 0 cs (occurrences search cs)

/-- All passes, in order, each over the result of the one before. -/
def applyReplacements (replacements : Replacements) (cs : List Char) : List Char :=
  replacements.entries.foldl (fun cs pair => replaceAll pair.1.toList pair.2.toList cs) cs

end EsmBundle
