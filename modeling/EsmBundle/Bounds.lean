/-!
Bounds on what is worked on: the digits of a whole number and the levels of
nesting. What is beyond them is refused with a wording of its own.

The levels stand for the recursion that an interpreter allows. Each of them
differs from one interpreter to the next, and by the calls that are open already;
only that there are such bounds matters, not where exactly they lie.
-/

namespace EsmBundle.Bounds

/-- The most digits of a whole number that is read or written. -/
def digits : Nat := 4300

/-- The most levels of collections in a document that is read. -/
def documentLevels : Nat := 990

/-- The most new directories of one path. -/
def madeLevels : Nat := 990

/-- The most levels of a directory whose files are listed. -/
def listedLevels : Nat := 990

/-- The most levels of a directory that is removed. -/
def removedLevels : Nat := 990

/-- A whole number with more digits than can be written. -/
def isTooLong (n : Int) : Bool :=
  Nat.pow 10 digits ≤ n.natAbs

/-- The wording about a whole number that is too long, with the number of its digits
where that is known. -/
def tooLong (count : Option Nat) : String :=
  "Exceeds the limit (" ++ toString digits ++ " digits) for integer string conversion" ++
    (match count with
      | some count => ": value has " ++ toString count ++ " digits"
      | none => "") ++
    "; use sys.set_int_max_str_digits() to increase the limit"

/-- The wording about too many levels. -/
def tooDeep : String := "maximum recursion depth exceeded"

/-- A number is not too long exactly when it is below the power of ten with one digit more. -/
theorem isTooLong_eq_false_iff {n : Int} : isTooLong n = false ↔ n.natAbs < Nat.pow 10 digits := by
  simp [isTooLong]

end EsmBundle.Bounds
