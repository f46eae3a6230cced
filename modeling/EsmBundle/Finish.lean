import EsmBundle.ImportClause
import EsmBundle.Replacement

/-!
What is done to every emitted text before it is written.

First the literal replacements are applied, then every bare specifier that was
resolved elsewhere is swapped for its resolution in the import clauses. The
second step also reports which specifiers it met, so that one that no text
imports can be pointed out.
-/

namespace EsmBundle

/-- Bare specifiers with the specifiers they were resolved to. -/
abbrev SpecifierMap := OrderedMap String String

/-- Swaps one bare specifier, in the static clauses first and then in the dynamic ones of the
result; also says whether there was a clause. -/
def substituteSpecifier (bare resolved : String) (cs : List Char) : List Char × Bool :=
  let (cs, static) := ClauseForm.static.substitute bare.toList resolved.toList cs
  let (cs, dynamic) := ClauseForm.dynamic.substitute bare.toList resolved.toList cs
  (cs, static || dynamic)

/-- Swaps the bare specifiers of a list of pairs one after another in the running text; also
returns those that were met. -/
def substituteEach : List (String × String) → List Char → List Char × List String
  | [], cs => (cs, [])
  | (bare, resolved) :: rest, cs =>
    let (cs, met) := substituteSpecifier bare resolved cs
    let (cs, others) := substituteEach rest cs
    (cs, if met then bare :: others else others)

/-- Swaps every bare specifier of a map; also returns those that were met, in the order of the
map. -/
def substituteSpecifiers (mappings : SpecifierMap) (text : String) : String × List String :=
  let (cs, met) := substituteEach mappings.entries text.toList
  (String.ofList cs, met)

/-- The text with the literal replacements applied. -/
def replaceText (replacements : Replacements) (text : String) : String :=
  String.ofList (applyReplacements replacements text.toList)

/-- Both steps; without a map the second is left out and meets nothing. -/
def finishText (replacements : Replacements) (mappings : Option SpecifierMap) (text : String) :
    String × List String :=
  let text := replaceText replacements text
  match mappings with
  | none => (text, [])
  | some mappings => substituteSpecifiers mappings text

/-- The specifiers met so far together with newly met ones, each once. -/
def addMet (met new : List String) : List String :=
  new.foldl (fun met bare => if bare ∈ met then met else met ++ [bare]) met

/-- Both steps for every text in turn, with the specifiers met in all of them. -/
def finishTexts (replacements : Replacements) (mappings : Option SpecifierMap)
    (met : List String) : List String → List (String × List String)
  | [] => []
  | text :: rest =>
    let (text, new) := finishText replacements mappings text
    let met := addMet met new
    (text, met) :: finishTexts replacements mappings met rest

end EsmBundle
