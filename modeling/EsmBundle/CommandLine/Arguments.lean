import EsmBundle.CommandLine.Given

/-!
The meaning of a whole command line: what its flags say, and its plain words, which
are further entry points.

The flags are taken out in two rounds. The first leaves the separator with the
words after it, but only if a plain word stands before it. The second round takes
the flags out of what the first one left, so after a separator that was dropped
words may be flags again. Of what then remains, the first run of plain words
holds the entry points, and anything else is not recognized.
-/

namespace EsmBundle

/-! ### The two rounds -/

/-- The words that the first round leaves; `seen` says that a plain word stood before. -/
def leftWords (seen : Bool) : List Leftover → List String
  | [] => []
  | .plain text :: rest => text :: leftWords true rest
  | .unknown text :: rest => text :: leftWords seen rest
  | .separator :: rest => if seen then "--" :: leftWords seen rest else leftWords seen rest
  | .gap :: rest => leftWords seen rest

namespace Leftover

/-- A plain word or the separator: what a run of plain words is made of. -/
def inRun : Leftover → Bool
  | .plain _ | .separator => true
  | .unknown _ | .gap => false

/-- The word of a run, none for the separator. -/
def runWord? : Leftover → Option String
  | .plain text => some text
  | _ => none

/-- The word that is not recognized. -/
def strayWord? : Leftover → Option String
  | .plain text | .unknown text => some text
  | .separator => some "--"
  | .gap => none

end Leftover

/-- The first run of plain words, and the words that are not in it. -/
def firstRun (left : List Leftover) : List String × List String :=
  let before := left.takeWhile fun item => !item.inRun
  let after := left.dropWhile fun item => !item.inRun
  ((after.takeWhile Leftover.inRun).filterMap Leftover.runWord?,
    (before ++ after.dropWhile Leftover.inRun).filterMap Leftover.strayWord?)

/-! ### Command lines -/

/-- What a command line says: its flags and its plain words. -/
structure Arguments where
  given : Given
  paths : List String
deriving DecidableEq, Repr

namespace Arguments

/-- The values of `--minify` that mean no, in lowercase. -/
def noWords : List (List Char) :=
  ["false".toList, "0".toList, "no".toList, "off".toList]

/-- A value that means no, blanks around it and ASCII case aside. No letter beyond
ASCII is another case of a letter of these words. -/
def meansNo (value : String) : Bool :=
  noWords.contains ((trim value).toList.map Char.toLower)

/-- A word such as `--minify=value` as the switch that it stands for. -/
def expandMinify (text : String) : String :=
  match cutAtEquals text with
  | some ("--minify", value) => if meansNo value then "--no-minify" else "--minify"
  | _ => text

/-- Every `--minify=value` before the separator as a switch. -/
def expandSwitches : List String → List String
  | [] => []
  | text :: rest =>
    if text = "--" then text :: rest else expandMinify text :: expandSwitches rest

/-- The meaning of a command line, or why it has none. -/
def parse (words : List String) : Except Halt Arguments := do
  let (given, left) ← takeFlags .nothing (Word.ofArguments (expandSwitches words))
  let (given, left) ← takeFlags given (Word.ofArguments (leftWords false left))
  let (paths, strays) := firstRun left
  if strays.isEmpty then return ⟨given, paths⟩ else .error (.unrecognized strays)

end Arguments

end EsmBundle
