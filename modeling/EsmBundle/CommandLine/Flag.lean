/-!
The flags of the command line: how each is spelled and whether it takes a value.
-/

namespace EsmBundle

/-- The flags. -/
inductive Flag where
  | help
  | entrypoints
  | external
  | outputDir
  | outputPath
  | minify
  | noMinify
  | replace
  | config
  | deno
  | version
deriving DecidableEq, Repr

namespace Flag

/-- All flags, as they are declared. -/
def all : List Flag :=
  [help, entrypoints, external, outputDir, outputPath, minify, noMinify, replace, config, deno,
   version]

/-- The spellings of a flag, the short one first. -/
def spellings : Flag → List String
  | help => ["-h", "--help"]
  | entrypoints => ["-i", "--entrypoints"]
  | external => ["-e", "--external"]
  | outputDir => ["-o", "--outputDir"]
  | outputPath => ["--outputPath"]
  | minify => ["-m", "--minify"]
  | noMinify => ["--no-minify"]
  | replace => ["-r", "--replace"]
  | config => ["--config"]
  | deno => ["--deno"]
  | version => ["--version"]

/-- A flag that takes a value; the others are switches. -/
def takesValue : Flag → Bool
  | help | minify | noMinify | version => false
  | entrypoints | external | outputDir | outputPath | replace | config | deno => true

/-- A flag as messages name it: all its spellings. -/
def label (flag : Flag) : String :=
  "/".intercalate flag.spellings

/-- The flag with a spelling. Flags are not abbreviated. -/
def ofSpelling? (word : String) : Option Flag :=
  all.find? fun flag => word ∈ flag.spellings

/-- The flag with a one-letter spelling. -/
def ofLetter? (letter : Char) : Option Flag :=
  ofSpelling? (String.ofList ['-', letter])

/-- No two flags share a spelling. -/
theorem spellings_disjoint : (all.flatMap spellings).Nodup := by decide

end Flag

end EsmBundle
