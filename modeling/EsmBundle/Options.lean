import EsmBundle.OptionValue
import EsmBundle.Replacement

/-!
The options of a build.

Every option may be unset. Options of several sources are merged field by field,
and what no source sets has a default.
-/

namespace EsmBundle

/-- Build options, each of them set or not: the files to bundle, the package
names to keep out, the directory for the output or the single file for it,
whether to minify, and the literal replacements. -/
structure BuildOptions where
  entrypoints : Option (List String)
  external : Option (List String)
  outputDir : Option OptionValue
  outputPath : Option OptionValue
  minify : Option Bool
  replace : Option Replacements

/-- Build options with every default applied; a void path is an empty one. -/
structure ResolvedOptions where
  entrypoints : List String
  external : List String
  outputDir : String
  outputPath : Option String
  minify : Bool
  replace : Replacements

namespace BuildOptions

/-- No option is set. -/
def unset : BuildOptions := ⟨none, none, none, none, none, none⟩

/-- The options with what they leave unset taken from others. -/
def merged (options fallback : BuildOptions) : BuildOptions where
  entrypoints := options.entrypoints.or fallback.entrypoints
  external := options.external.or fallback.external
  outputDir := options.outputDir.or fallback.outputDir
  outputPath := options.outputPath.or fallback.outputPath
  minify := options.minify.or fallback.minify
  replace := options.replace.or fallback.replace

/-- The entry points when none are given. -/
def defaultEntrypoints : List String := ["./main.ts"]

/-- The output directory when none is given. -/
def defaultOutputDir : String := "dist"

/-- The options with the defaults for what is unset. -/
def resolved (options : BuildOptions) : ResolvedOptions where
  entrypoints := options.entrypoints.getD defaultEntrypoints
  external := options.external.getD []
  outputDir := (options.outputDir.map OptionValue.path).getD defaultOutputDir
  outputPath := options.outputPath.map OptionValue.path
  minify := options.minify.getD true
  replace := options.replace.getD .empty

end BuildOptions

/-- A list that is set only when it holds something. -/
def nonemptyList {α : Type} (xs : List α) : Option (List α) :=
  if xs.isEmpty then none else some xs

/-- Replacements that are set only when there are some. -/
def nonemptyReplacements (replacements : Replacements) : Option Replacements :=
  if replacements.isEmpty then none else some replacements

end EsmBundle
