import EsmBundle.CommandLine.Given
import EsmBundle.Text.Quoted

/-!
What the program prints when a command line sets no options.
-/

namespace EsmBundle

/-- The version of the program. -/
def programVersion : String := "0.1.0"

/-- The summary of the command line. -/
def usage : String :=
  "usage: denobundle [-h] [-i ENTRYPOINTS] [-e EXTERNAL] [-o OUTPUT_DIR]\n" ++
  "                  [--outputPath OUTPUT_PATH] [-m] [--no-minify]\n" ++
  "                  [-r FIND=REPLACE] [--config PATH] [--deno PATH] [--version]\n" ++
  "                  [ENTRYPOINT ...]\n"

/-- The summary and what every part of it means. -/
def helpText : String :=
  usage ++ "\n" ++
  "Bundle a Deno project to ESM, keeping chosen packages external.\n" ++
  "\n" ++
  "positional arguments:\n" ++
  "  ENTRYPOINT            Extra entry points, appended to --entrypoints\n" ++
  "\n" ++
  "options:\n" ++
  "  -h, --help            show this help message and exit\n" ++
  "  -i ENTRYPOINTS, --entrypoints ENTRYPOINTS\n" ++
  "                        Entry point files (repeatable or comma-separated;\n" ++
  "                        default: ./main.ts)\n" ++
  "  -e EXTERNAL, --external EXTERNAL\n" ++
  "                        Package-name prefixes to leave external (repeatable or\n" ++
  "                        comma-separated)\n" ++
  "  -o OUTPUT_DIR, --outputDir OUTPUT_DIR\n" ++
  "                        Output directory (default: dist)\n" ++
  "  --outputPath OUTPUT_PATH\n" ++
  "                        Single-file output path (overrides --outputDir)\n" ++
  "  -m, --minify          Minify the output (default); --minify=false turns it\n" ++
  "                        off\n" ++
  "  --no-minify           Do not minify; wins over --minify\n" ++
  "  -r FIND=REPLACE, --replace FIND=REPLACE\n" ++
  "                        Literal replacement applied to the bundled code\n" ++
  "                        (repeatable)\n" ++
  "  --config PATH         Read settings from this file instead of .denobundlerc\n" ++
  "  --deno PATH           deno executable to run (default: deno on PATH)\n" ++
  "  --version             show program's version number and exit\n"

/-- A printed end of the program: its exit status and what it prints. -/
structure Farewell where
  status : Int
  stdout : String
  stderr : String
deriving DecidableEq, Repr

namespace Farewell

/-- The end for a command line with an error. -/
def misuse (text : String) : Farewell :=
  ⟨2, "", usage ++ "denobundle: error: " ++ text ++ "\n"⟩

end Farewell

/-- How the program ends. -/
def Halt.farewell : Halt → Farewell
  | .help => ⟨0, helpText, ""⟩
  | .version => ⟨0, "denobundle " ++ programVersion ++ "\n", ""⟩
  | .missingValue flag => .misuse ("argument " ++ flag.label ++ ": expected one argument")
  | .ignoredValue flag value =>
    .misuse ("argument " ++ flag.label ++ ": ignored explicit argument " ++ quoted value)
  | .unrecognized words => .misuse ("unrecognized arguments: " ++ " ".intercalate words)

end EsmBundle
