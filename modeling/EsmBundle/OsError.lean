import EsmBundle.Text.Quoted

/-!
Failures that the operating system reports.
-/

namespace EsmBundle

/-- A numbered failure, with the path it is about. -/
structure OsError where
  code : Int
  text : String
  path : Option String
deriving DecidableEq, Repr

/-- The wording about a text with a NUL character, which the operating system never sees. -/
def embeddedNul : String := "embedded null byte"

namespace OsError

/-- The number, the text and the quoted path. -/
def message (e : OsError) : String :=
  "[Errno " ++ toString e.code ++ "] " ++ e.text ++
    match e.path with
    | some path => ": " ++ quoted path
    | none => ""

/-- Nothing is at the path. -/
def notFound (path : String) : OsError := ⟨2, "No such file or directory", some path⟩

/-- Something is at the path already. -/
def fileExists (path : String) : OsError := ⟨17, "File exists", some path⟩

/-- The path leads through something that is no directory. -/
def notDirectory (path : String) : OsError := ⟨20, "Not a directory", some path⟩

/-- A directory is at the path. -/
def isDirectory (path : String) : OsError := ⟨21, "Is a directory", some path⟩

/-- The path or a part of it is too long. -/
def nameTooLong (path : String) : OsError := ⟨36, "File name too long", some path⟩

end OsError

end EsmBundle
