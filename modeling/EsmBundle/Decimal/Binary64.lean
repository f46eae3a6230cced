/-!
Binary floating-point numbers of double width, by exact arithmetic.

A finite number is a sign and a count of units of 2⁻¹⁰⁷⁴, the least positive
number of the format. Every operation is carried out on integers and rounded
once: to the nearest number with 53 significant bits, a tie going to the even
one, and past the largest number to infinity.
-/

namespace EsmBundle

/-- A floating-point number; a finite one is `units` times 2⁻¹⁰⁷⁴ with its sign. -/
inductive Binary64 where
  | finite (negative : Bool) (units : Nat)
  | infinite (negative : Bool)
  | nan
deriving DecidableEq, Repr

namespace Binary64

/-- The number of units in one. -/
def one : Nat := Nat.pow 2 1074

/-- The least number of units that is past every finite number. -/
def limit : Nat := Nat.pow 2 2098

/-! ### Rounding -/

/-- The quotient rounded to the nearest natural number, a tie to the even one. -/
def nearest (num den : Nat) : Nat :=
  let quotient := num / den
  let twice := 2 * (num % den)
  if den < twice || (twice == den && quotient % 2 == 1) then quotient + 1 else quotient

/-- The quotient is at most half away from its rounding. -/
theorem nearest_within_half {num den : Nat} (pos : 0 < den) :
    2 * num ≤ (2 * nearest num den + 1) * den ∧ 2 * nearest num den * den ≤ 2 * num + den := by
  have split := Nat.div_add_mod num den
  have small := Nat.mod_lt num pos
  simp only [nearest]
  generalize num / den = q at *
  generalize num % den = r at *
  subst split
  split <;> rename_i h <;> simp at h <;> constructor <;> grind

/-- The distance of neighbouring numbers around a count of units. -/
def spacing (units : Nat) : Nat :=
  Nat.pow 2 (units.log2 - 52)

/-- The number nearest to `num / den` units. -/
def ofUnits (negative : Bool) (num den : Nat) : Binary64 :=
  let step := spacing (num / den)
  let units := nearest num (den * step) * step
  if units < limit then .finite negative units else .infinite negative

/-! ### Reading decimals -/

/-- The number nearest to `digits` times the given power of ten. Powers that
leave the range whatever the digits are not computed. -/
def ofDecimal (negative : Bool) (digits : Nat) (exponent : Int) : Binary64 :=
  if digits = 0 then .finite negative 0
  else
    let size := (Nat.toDigits 10 digits).length
    if size + exponent > 310 then .infinite negative
    else if size + exponent < -330 then .finite negative 0
    else if exponent ≥ 0 then ofUnits negative (digits * Nat.pow 10 exponent.toNat * one) 1
    else ofUnits negative (digits * one) (Nat.pow 10 (-exponent).toNat)

/-- The number nearest to an integer. -/
def ofInt (n : Int) : Binary64 :=
  ofUnits (n < 0) (n.natAbs * one) 1

/-! ### Arithmetic -/

/-- The units of a finite number with their sign. -/
def signed (negative : Bool) (units : Nat) : Int :=
  if negative then -units else units

/-- The number nearest to a signed count of units. -/
def ofSigned (n : Int) : Binary64 :=
  ofUnits (n < 0) n.natAbs 1

/-- The difference, rounded. -/
def sub : Binary64 → Binary64 → Binary64
  | .finite s m, .finite t n => ofSigned (signed s m - signed t n)
  | .nan, _ => .nan
  | _, .nan => .nan
  | .infinite s, .infinite t => if s = t then .nan else .infinite s
  | .infinite s, .finite _ _ => .infinite s
  | .finite _ _, .infinite t => .infinite (!t)

/-- The product with a natural number, rounded. -/
def scale (k : Nat) : Binary64 → Binary64
  | .finite s m => ofUnits s (k * m) 1
  | x => x

/-- The integer part of a finite number, its fraction cut off. -/
def truncate (negative : Bool) (units : Nat) : Int :=
  signed negative (units / one)

/-- A number that is zero, of either sign. -/
def isZero : Binary64 → Bool
  | .finite _ units => units == 0
  | _ => false

end Binary64

end EsmBundle
