import EsmBundle.Bounds
import EsmBundle.FileTree.Path
import EsmBundle.FileTree.Place
import EsmBundle.OsError

/-!
Reading and writing a tree of files by paths.

A path is walked step by step from the root or the working directory. Every step
has to start in a directory; `.` stays there, `..` goes up, the root being above
itself, and a name has to be there and must not be too long. A failure names the
path as it was given, except that of a path with a NUL character, which is no
path at all, and of one that needs too many new directories.

The working directory may be removed. It stays an empty directory that leads up to
where it was, but nothing can be made in it.
-/

namespace EsmBundle

/-- A file tree with the locations of the working directory, of the home directory and of the one
for temporary files. -/
structure FileSystem where
  tree : FileTree
  cwd : Location
  home : Location
  temporary : Location

/-- Why a path cannot be used. -/
inductive PathFault where
  | nulCharacter
  | notFound
  | fileExists
  | notDirectory
  | isDirectory
  | nameTooLong
  | tooDeep
deriving DecidableEq, Repr

/-- A path that cannot be used, as it was given. -/
structure PathError where
  fault : PathFault
  path : String
deriving DecidableEq, Repr

/-- The failure that the operating system reports. It never sees a path with a NUL
character, nor one that is too deep. -/
def PathError.osError? (e : PathError) : Option OsError :=
  match e.fault with
  | .nulCharacter => none
  | .notFound => some (.notFound e.path)
  | .fileExists => some (.fileExists e.path)
  | .notDirectory => some (.notDirectory e.path)
  | .isDirectory => some (.isDirectory e.path)
  | .nameTooLong => some (.nameTooLong e.path)
  | .tooDeep => none

/-- The wording of an error. -/
def PathError.message (e : PathError) : String :=
  match e.osError?, e.fault with
  | some error, _ => error.message
  | none, .tooDeep => Bounds.tooDeep
  | none, _ => embeddedNul

/-! ### Walking -/

/-- A name of more than 255 bytes. -/
def isLongName (name : String) : Bool :=
  name.utf8ByteSize > 255

/-- A path of more than 4095 bytes. -/
def isLongPath (path : String) : Bool :=
  path.utf8ByteSize > 4095

/-- What is wrong with a path whatever the tree holds. -/
def textFault? (path : String) : Option PathFault :=
  if path.toList.contains '\x00' then some .nulCharacter
  else if path.isEmpty then some .notFound
  else if isLongPath path then some .nameTooLong
  else none

/-- Where the steps lead from a place, and what is there. -/
def Place.walk (place : Place) : List String → Except PathFault (Location × Entry)
  | [] =>
    match place.entry with
    | some entry => .ok (place.location, entry)
    | none => .error .notFound
  | step :: rest =>
    match place.entry with
    | none => .error .notFound
    | some (.file _) => .error .notDirectory
    | some .directory =>
      if step = "." then place.walk rest
      else if step = ".." then place.up.walk rest
      else if place.isUnlinked then .error .notFound
      else if isLongName step then .error .nameTooLong
      else (place.down step).walk rest

/-- Where the steps lead from a location, and what is there. -/
def FileTree.walk (tree : FileTree) (location : Location) (steps : List String) :
    Except PathFault (Location × Entry) :=
  (tree.place location).walk steps

/-- No step leads to what the tree has at the location. -/
theorem FileTree.walk_nil (tree : FileTree) (location : Location) :
    tree.walk location [] =
      match tree.get? location with
      | some entry => .ok (location, entry)
      | none => .error .notFound := by
  simp [walk, Place.walk]

/-- The first step has to start in a directory; then the others are taken from where it leads. -/
theorem FileTree.walk_cons (tree : FileTree) (location : Location) (step : String)
    (rest : List String) :
    tree.walk location (step :: rest) =
      match tree.get? location with
      | none => .error .notFound
      | some (.file _) => .error .notDirectory
      | some .directory =>
        if step = "." then tree.walk location rest
        else if step = ".." then tree.walk location.dropLast rest
        else if isUnlinked location then .error .notFound
        else if isLongName step then .error .nameTooLong
        else tree.walk (location ++ [step]) rest := by
  simp [walk, Place.walk, up_place, down_place]

/-! ### Listing -/

namespace FileTree

mutual

/-- The files that a walk through a tree comes to, with the names that lead to them. A directory
whose own path is too long cannot be looked into, and is passed over. -/
def listing (path : String) : FileTree → List (Location × Bytes)
  | node (some (.file contents)) _ => [([], contents)]
  | node (some .directory) branches =>
    if isLongPath path then [] else listingBelow path [] branches
  | node none _ => []

/-- The files in the directory at a path, of which some names are done. -/
def listingBelow (path : String) (done : List String) :
    List (String × FileTree) → List (Location × Bytes)
  | [] => []
  | (name, tree) :: rest =>
    if name ∈ done then listingBelow path done rest
    else
      (tree.listing (Path.join path name)).map (fun file => (name :: file.1, file.2)) ++
        listingBelow path (name :: done) rest

end

end FileTree

/-! ### Looking up -/

namespace FileSystem

/-- Where a path starts. -/
def start (fs : FileSystem) (path : Path) : Location :=
  if path.absolute then [] else fs.cwd

/-- Where a path leads and what is there. -/
def stat (fs : FileSystem) (text : String) : Except PathFault (Location × Entry) := do
  if let some fault := textFault? text then throw fault
  let path := Path.ofString text
  let (location, entry) ← fs.tree.walk (fs.start path) path.steps
  match entry with
  | .file _ => if path.slashAtEnd then throw .notDirectory else return (location, entry)
  | .directory => return (location, entry)

/-- Something is at a path. -/
def isThere (fs : FileSystem) (text : String) : Bool :=
  match fs.stat text with
  | .ok _ => true
  | .error _ => false

/-- A directory is at a path. -/
def isDirectory (fs : FileSystem) (text : String) : Bool :=
  match fs.stat text with
  | .ok (_, .directory) => true
  | _ => false

/-! ### Reading -/

/-- The contents of the file at a path. -/
def read (fs : FileSystem) (text : String) : Except PathError Bytes :=
  match fs.stat text with
  | .ok (_, .file contents) => .ok contents
  | .ok (_, .directory) => .error ⟨.isDirectory, text⟩
  | .error fault => .error ⟨fault, text⟩

/-! ### Creating -/

/-- The directory that a new entry goes into and the last step of its path. -/
def parent (fs : FileSystem) (text : String) : Except PathFault (Location × Option String) := do
  if let some fault := textFault? text then throw fault
  let path := Path.ofString text
  match path.steps.getLast? with
  | none => return ([], none)
  | some last =>
    match ← fs.tree.walk (fs.start path) path.steps.dropLast with
    | (_, .file _) => throw .notDirectory
    | (location, .directory) => return (location, some last)

/-- A step that leads to a directory that is always there. -/
def isDots (step : String) : Bool :=
  step = "." || step = ".."

/-- Where a path would put a new directory. -/
def newDirectory (fs : FileSystem) (text : String) : Except PathFault Location := do
  match ← fs.parent text with
  | (_, none) => throw .fileExists
  | (location, some last) =>
    if isDots last then throw .fileExists
    if isUnlinked location then throw .notFound
    if isLongName last then throw .nameTooLong
    if (fs.tree.get? (location ++ [last])).isSome then throw .fileExists
    return location ++ [last]

/-- Makes the directory at a path, whose parent has to be there. -/
def makeDirectory (fs : FileSystem) (text : String) : Except PathError Unit × FileSystem :=
  match fs.newDirectory text with
  | .error fault => (.error ⟨fault, text⟩, fs)
  | .ok location => (.ok (), { fs with tree := fs.tree.put location .directory })

/-- Where a path would put a file. -/
def newFile (fs : FileSystem) (text : String) : Except PathFault Location := do
  match ← fs.parent text with
  | (_, none) => throw .isDirectory
  | (location, some last) =>
    if isDots last || (Path.ofString text).slashAtEnd then throw .isDirectory
    if isUnlinked location then throw .notFound
    if isLongName last then throw .nameTooLong
    match fs.tree.get? (location ++ [last]) with
    | some .directory => throw .isDirectory
    | _ => return location ++ [last]

/-- Writes the file at a path, in place of the one that is there. -/
def write (fs : FileSystem) (text : String) (contents : Bytes) :
    Except PathError Unit × FileSystem :=
  match fs.newFile text with
  | .error fault => (.error ⟨fault, text⟩, fs)
  | .ok location => (.ok (), { fs with tree := fs.tree.put location (.file contents) })

/-- The path without its last name, slashes at the end aside, and that name. -/
def splitPath (cs : List Char) : List Char × List Char :=
  let name := Path.lastName cs
  if name.isEmpty then
    let cs := Path.directory cs
    (Path.directory cs, Path.lastName cs)
  else (Path.directory cs, name)

/-- Makes a directory and before it, from the outermost on, those that lead to it
and are not there, in at most the given number of levels; a path that needs more is
refused before anything is made. A directory that is there already is no failure;
its parent being something else shows when the next one is made. -/
def makeDirectoriesWithin :
    (levels : Nat) → FileSystem → List Char → Except PathError Unit × FileSystem
  | 0, fs, cs => (.error ⟨.tooDeep, String.ofList cs⟩, fs)
  | levels + 1, fs, cs =>
    let text := String.ofList cs
    let (head, tail) := splitPath cs
    let make (fs : FileSystem) : Except PathError Unit × FileSystem :=
      match fs.makeDirectory text with
      | (.error error, fs) => (if fs.isDirectory text then .ok () else .error error, fs)
      | done => done
    if !head.isEmpty && !tail.isEmpty && !fs.isThere (String.ofList head) then
      match makeDirectoriesWithin levels fs head with
      | (.error error, fs) =>
        if error.fault = .fileExists then
          if tail = ['.'] then (.ok (), fs) else make fs
        else (.error error, fs)
      | (.ok (), fs) => if tail = ['.'] then (.ok (), fs) else make fs
    else make fs

/-- Makes a directory with all that lead to it. -/
def makeDirectories (fs : FileSystem) (text : String) : Except PathError Unit × FileSystem :=
  makeDirectoriesWithin Bounds.madeLevels fs text.toList

/-- Writes a file at a path, after making the directories that lead to it. -/
def writeBelow (fs : FileSystem) (path : String) (contents : Bytes) :
    Except PathError Unit × FileSystem :=
  let directory := Path.directoryOf path
  if directory.isEmpty then fs.write path contents
  else
    match fs.makeDirectories directory with
    | (.error error, fs) => (.error error, fs)
    | (.ok (), fs) => fs.write path contents

/-- Writes a text at a path, after making the directories that lead to it. -/
def writeText (fs : FileSystem) (path text : String) : Except PathError Unit × FileSystem :=
  fs.writeBelow path (Utf8.encode text.toList)

/-- Makes what a name and contents describe below a directory: a directory when the name ends
in a slash, and else a file. An empty name describes a file, in the place of the
directory itself. -/
def createIn (fs : FileSystem) (directory : String) (item : String × Bytes) :
    Except PathError Unit × FileSystem :=
  let path := Path.join directory item.1
  if (Path.ofString item.1).slashAtEnd then fs.makeDirectories path
  else fs.writeBelow path item.2

/-- Makes items below a directory in order, up to the first that cannot be made. -/
def createAllIn (fs : FileSystem) (directory : String) :
    List (String × Bytes) → Except PathError Unit × FileSystem
  | [] => (.ok (), fs)
  | item :: rest =>
    match fs.createIn directory item with
    | (.error error, fs) => (.error error, fs)
    | (.ok (), fs) => createAllIn fs directory rest

/-! ### Removing -/

/-- Removes what is at a location and all that is below it. The working directory
loses its name with it, but stays where the processes are. -/
def remove (fs : FileSystem) (location : Location) : FileSystem :=
  let tree := fs.tree.prune location
  if location.isPrefixOf fs.cwd then
    let cwd := location.dropLast ++ "" :: fs.cwd.drop location.length
    { fs with tree := tree.plant cwd .directory, cwd := cwd }
  else { fs with tree := tree }

/-! ### Private directories -/

/-- The location of a private directory. Its path starts from the directory for temporary
files. -/
def scratchLocation (fs : FileSystem) (path : String) : Location :=
  { fs with cwd := fs.temporary }.start (Path.ofString path) ++ (Path.ofString path).steps

/-- Makes a private directory, which needs the directory for temporary files. -/
def openScratch (fs : FileSystem) (path : String) : Except PathError FileSystem :=
  match fs.tree.get? fs.temporary with
  | some .directory => .ok { fs with tree := fs.tree.put (fs.scratchLocation path) .directory }
  | some (.file _) => .error ⟨.notDirectory, path⟩
  | none => .error ⟨.notFound, path⟩

/-- Makes items in a private directory, up to the first that cannot be made. The name of an item
may lead out of the directory. -/
def fillScratch (fs : FileSystem) (path : String) (items : List (String × Bytes)) : FileSystem :=
  { ({ fs with cwd := fs.temporary }.createAllIn path items).2 with cwd := fs.cwd }

/-- What a private directory holds. -/
def held (fs : FileSystem) (path : String) : FileTree :=
  fs.tree.subtree (fs.scratchLocation path)

/-- The files of a private directory in the order of their paths, each with its path from there. -/
def listing (fs : FileSystem) (path : String) : List (String × Bytes) :=
  (((fs.held path).listing path).map fun file => ("/".intercalate file.1, file.2)).mergeSort
    fun a b => a.1 ≤ b.1

/-- Removes a private directory. One with too many levels stays, since the removal fails on its way
down; how much of it is gone by then is not told. -/
def closeScratch (fs : FileSystem) (path : String) : Except PathError Unit × FileSystem :=
  if (fs.held path).depth > Bounds.removedLevels then (.error ⟨.tooDeep, path⟩, fs)
  else (.ok (), { fs with tree := fs.tree.prune (fs.scratchLocation path) })

end FileSystem

end EsmBundle
