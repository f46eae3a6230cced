import EsmBundle.Json.Printer
import EsmBundle.Options
import EsmBundle.OrderedMap
import EsmBundle.Text.Split

/-!
Build options from the values of settings and command line words.

A list option is given as one value or several, and every value may hold several
names with commas between them. Values that are no strings stand for their text.
-/

namespace EsmBundle

/-- The values that a list option is given as: the items of an array, the names of
an object, a scalar itself, and none for `null`. -/
def Json.listValues : Json → List Json
  | .null => []
  | .array items => items
  | .object members => members.map fun member => .string member.1
  | value => [value]

/-- The names in a list option: the pieces between commas of all its values. -/
def Json.names (value : Json) : List String :=
  value.listValues.flatMap fun item => commaPieces item.display

/-- The replacements that words such as `find=replace` give. A word without an
equals sign, or with nothing before the first one, gives none. -/
def Replacements.ofWords (words : List String) : Replacements :=
  .ofList (words.filterMap fun word =>
    (cutAtEquals word).filter fun pair => !pair.1.isEmpty)

/-- The replacements among the members of an object: those from a text that is not
empty to a string. -/
def Replacements.ofMembers (members : List (String × Json)) : Replacements :=
  .ofList (members.filterMap fun member =>
    if member.1.isEmpty then none else member.2.string?.map fun text => (member.1, text))

/-- The options that settings set. Values of the wrong type set nothing. -/
def BuildOptions.ofSettings (settings : List (String × Json)) : BuildOptions where
  entrypoints := (findEntry "entrypoints" settings).bind fun value => nonemptyList value.names
  external := (findEntry "external" settings).bind fun value => nonemptyList value.names
  outputDir := ((findEntry "outputDir" settings).bind Json.string?).map .text
  outputPath := ((findEntry "outputPath" settings).bind Json.string?).map .text
  minify := (findEntry "minify" settings).bind Json.bool?
  replace := (findEntry "replace" settings).bind fun value =>
    value.object?.bind fun members => nonemptyReplacements (.ofMembers members)

end EsmBundle
