import EsmBundle.CommandLine.Arguments
import EsmBundle.Settings.Decode

/-!
Build options from a command line.
-/

namespace EsmBundle.Arguments

/-- The options that a command line sets. Plain words are entry points after those of the flag, a
list without names sets nothing, and of the two switches the one against minifying wins. -/
def options (arguments : Arguments) : BuildOptions where
  entrypoints := nonemptyList
    ((arguments.given.entrypoints ++ arguments.paths).flatMap commaPieces)
  external := nonemptyList (arguments.given.external.flatMap commaPieces)
  outputDir := arguments.given.outputDir
  outputPath := arguments.given.outputPath
  minify :=
    if arguments.given.noMinify then some false
    else if arguments.given.minify then some true
    else none
  replace := nonemptyReplacements (.ofWords (arguments.given.replace.flatMap commaPieces))

/-- The options of a command line that stands alone: it always says whether to minify. -/
def optionsAlone (arguments : Arguments) : BuildOptions :=
  { arguments.options with minify := some (arguments.options.minify.getD true) }

end EsmBundle.Arguments
