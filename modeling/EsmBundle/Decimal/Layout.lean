import EsmBundle.Decimal.Shortest

/-!
The written form of floating-point numbers.

The digits are those of the shortest decimal. A layout says which exponents are
written out with zeros and what the numbers without digits are called.
-/

namespace EsmBundle

/-- The decisions of a written form: the exponents of the leading digit that are
written positionally, from `lowest` up to but not including `highest`, and the
names of the values that have no digits. -/
structure Layout where
  lowest : Int
  highest : Int
  infinity : String
  notANumber : String

namespace Layout

/-- Digits with a point: `exponent` is that of the leading digit, and at least one digit stands on
either side of the point. -/
def positional (digits : List Char) (exponent : Int) : List Char :=
  if exponent < 0 then
    '0' :: '.' :: List.replicate (-exponent - 1).toNat '0' ++ digits
  else
    let whole := exponent.toNat + 1
    let fraction := digits.drop whole
    digits.take whole ++ List.replicate (whole - digits.length) '0' ++ '.' ::
      (if fraction.isEmpty then ['0'] else fraction)

/-- Digits with an exponent: a sign always, and two digits at least. -/
def scientific (digits : List Char) (exponent : Int) : List Char :=
  let mantissa :=
    match digits with
    | lead :: fraction => if fraction.isEmpty then [lead] else lead :: '.' :: fraction
    | [] => []
  let size := Nat.toDigits 10 exponent.natAbs
  mantissa ++ 'e' :: (if exponent < 0 then '-' else '+') ::
    (List.replicate (2 - size.length) '0' ++ size)

/-- A positive number by its shortest digits. -/
def magnitude (layout : Layout) (units : Nat) : List Char :=
  let d := Decimal.shortest units
  let digits := Nat.toDigits 10 d.digits
  let exponent := d.exponent + digits.length - 1
  if layout.lowest ≤ exponent && exponent < layout.highest then positional digits exponent
  else scientific digits exponent

/-- A number as the layout writes it. -/
def write (layout : Layout) : Binary64 → String
  | .finite negative units =>
    let digits := if units = 0 then ['0', '.', '0'] else layout.magnitude units
    String.ofList (if negative then '-' :: digits else digits)
  | .infinite negative => if negative then "-" ++ layout.infinity else layout.infinity
  | .nan => layout.notANumber

end Layout

end EsmBundle
