import EsmBundle.Program
import EsmBundle.Transcript

/-!
The command line of the program.

The working directory is read into a tree, together with the settings file of the
home directory and with every file that a word of the command line names. The
runs of the external tool are given on standard input as a transcript. After the
program has run on the tree, the directories and files that it made are written.
-/

namespace EsmBundle.CommandLine

/-- The names on an absolute path. -/
def locate (path : String) : Location :=
  (Path.ofString path).steps

/-- The absolute path of a location. -/
def pathTo (location : Location) : String :=
  "/" ++ "/".intercalate location

/-- The directory for temporary files. -/
def temporary : Location := ["tmp"]

/-- Adds a directory's entries to a tree; what is neither a file nor a directory is left out. -/
partial def readEntry (tree : FileTree) (location : Location) (entry : IO.FS.DirEntry) :
    IO FileTree := do
  let location := location ++ [entry.fileName]
  match (← entry.path.symlinkMetadata).type with
  | .file =>
    return tree.plant location (.file (← IO.FS.readBinFile entry.path).toList)
  | .dir =>
    let entries ← entry.path.readDir
    entries.foldlM (fun tree entry => readEntry tree location entry)
      (tree.plant location .directory)
  | _ => return tree

/-- Adds the file at a path to a tree, if there is one. -/
def readFile (tree : FileTree) (location : Location) (path : String) : IO FileTree := do
  try
    let contents ← IO.FS.readBinFile path
    return tree.plant location (.file contents.toList)
  catch _ => return tree

/-- Adds the file that a word names, alone or after an equals sign. -/
def readWord (cwd : Location) (tree : FileTree) (word : String) : IO FileTree := do
  let path := ((cutAtEquals word).map Prod.snd).getD word
  let place := Path.ofString path
  let plain := place.steps.all fun step => !FileSystem.isDots step
  if place.steps.isEmpty || place.slashAtEnd || !plain then return tree
  readFile tree ((if place.absolute then [] else cwd) ++ place.steps) path

/-- The location of the working directory; one that was removed has no name. -/
def currentLocation : IO Location := do
  try return locate (← IO.currentDir).toString
  catch _ => return [""]

/-- The files that a run with the given words may look at. -/
def readFiles (words : List String) : IO FileSystem := do
  let cwd ← currentLocation
  let homePath := (← IO.getEnv "HOME").getD "/"
  let home := locate homePath
  let tree := ((FileTree.empty.plant cwd .directory).plant home .directory).plant temporary
    .directory
  let entries ← if isUnlinked cwd then pure #[] else (← IO.currentDir).readDir
  let tree ← entries.foldlM (fun tree entry => readEntry tree cwd entry) tree
  let tree ← readFile tree (home ++ [Settings.fileName]) (Path.join homePath Settings.fileName)
  let tree ← words.foldlM (readWord cwd) tree
  return ⟨tree, cwd, home, temporary⟩

/-- The outcomes that a stream describes, up to its end. -/
partial def readTranscript (stream : IO.FS.Stream) : IO (List Outcome) := do
  let line ← stream.getLine
  if line.isEmpty then return []
  let rest ← readTranscript stream
  return (Outcome.ofLine? line).toList ++ rest

/-- Writes what a tree has at a location that another tree does not have there. -/
def writeChange (before : FileTree) (item : Location × Entry) : IO Unit := do
  unless before.get? item.1 = some item.2 do
    match item.2 with
    | .directory => IO.FS.createDirAll (pathTo item.1)
    | .file contents => IO.FS.writeBinFile (pathTo item.1) (ByteArray.mk contents.toArray)

/-- The present time in seconds. -/
def readClock : IO Reading := do
  return .real (.ofUnits false ((← IO.monoNanosNow) * Binary64.one) (Nat.pow 10 9))

/-- Runs the program and gives its exit status. -/
def runProgram (words : List String) : IO UInt32 := do
  let start ← readClock
  let files ← readFiles words
  let outcomes ← readTranscript (← IO.getStdin)
  let report := Program.run "/tmp/denobundle" words start (← readClock) files ⟨outcomes, []⟩
  for item in report.files.tree.entries do
    writeChange files.tree item
  (← IO.getStdout).putStr report.stdout
  (← IO.getStderr).putStr report.stderr
  match report.result with
  | .ok status => return UInt32.ofNat status.toNat
  | .error fault =>
    (← IO.getStderr).putStrLn fault.message
    return 1

end EsmBundle.CommandLine

/-- Runs the program on the words of the command line. -/
def main (words : List String) : IO UInt32 :=
  EsmBundle.CommandLine.runProgram words
