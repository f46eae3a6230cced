import EsmBundle.Bounds
import EsmBundle.Decimal.Binary64

/-!
Measuring how long a build takes.

A clock reading is a number of seconds, whole or not. The time between two
readings is given in milliseconds with the fraction cut off; it is computed in
floating point unless both readings are whole, and then a whole reading must not
be too large for it. A time with too many digits cannot be told.
-/

namespace EsmBundle

/-- A number of seconds. -/
inductive Reading where
  | whole (seconds : Int)
  | real (seconds : Binary64)
deriving DecidableEq, Repr

/-- Why a time has no number of milliseconds. -/
inductive ClockFault where
  | tooLarge
  | notANumber
  | infinite
  | tooLong
deriving DecidableEq, Repr

/-- The wording of a fault. -/
def ClockFault.message : ClockFault → String
  | .tooLarge => "int too large to convert to float"
  | .notANumber => "cannot convert float NaN to integer"
  | .infinite => "cannot convert float infinity to integer"
  | .tooLong => Bounds.tooLong none

namespace Reading

/-- The number of seconds in floating point. A whole number that would round to
infinity is too large. -/
def toBinary64 : Reading → Except ClockFault Binary64
  | .whole seconds =>
    match Binary64.ofInt seconds with
    | .infinite _ => .error .tooLarge
    | number => .ok number
  | .real seconds => .ok seconds

/-- The milliseconds from one reading to another. -/
def millisecondsTo : (start stop : Reading) → Except ClockFault Int
  | .whole start, .whole stop =>
    let duration := (stop - start) * 1000
    if Bounds.isTooLong duration then .error .tooLong else .ok duration
  | start, stop => do
    match ((← stop.toBinary64).sub (← start.toBinary64)).scale 1000 with
    | .finite negative units => .ok (Binary64.truncate negative units)
    | .infinite _ => .error .infinite
    | .nan => .error .notANumber

end Reading

end EsmBundle
