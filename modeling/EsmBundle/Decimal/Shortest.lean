import EsmBundle.Decimal.Binary64

/-!
The shortest decimal of a floating-point number.

For 1, 2, … 17 digits the two neighbours of the number on the grid of decimals
with that many digits are read back. The first grid with a neighbour that reads
back as the number wins; of two such neighbours the nearer is taken, and of two
equally near ones the even one.
-/

namespace EsmBundle

/-- The decimal `digits · 10 ^ exponent`. -/
structure Decimal where
  digits : Nat
  exponent : Int
deriving DecidableEq, Repr

namespace Decimal

open Binary64

/-- The decimal reads back as the positive number of the given units. -/
def readsBack (units : Nat) (d : Decimal) : Bool :=
  ofDecimal false d.digits d.exponent == .finite false units

/-- The least exponent `k` with the number below `10 ^ k`. -/
def magnitude (units : Nat) : Int :=
  if one ≤ units then (Nat.toDigits 10 (units / one)).length
  else
    match (List.range 330).find? fun j => one ≤ units * Nat.pow 10 j with
    | some j => 1 - j
    | none => -330

/-- The number in units of `10 ^ exponent`, as a quotient. -/
def onGrid (units : Nat) (exponent : Int) : Nat × Nat :=
  if exponent ≥ 0 then (units, one * Nat.pow 10 exponent.toNat)
  else (units * Nat.pow 10 (-exponent).toNat, one)

/-- The neighbour of the number on a grid that stands for it, if one reads back. -/
def neighbour? (units : Nat) (exponent : Int) : Option Decimal :=
  let (num, den) := onGrid units exponent
  let below : Decimal := ⟨num / den, exponent⟩
  let above : Decimal := ⟨num / den + 1, exponent⟩
  match readsBack units below, readsBack units above with
  | true, true => some ⟨nearest num den, exponent⟩
  | true, false => some below
  | false, true => some above
  | false, false => none

/-- The decimal with the zeros at the end of its digits moved to the exponent,
as many as `fuel` allows. -/
def stripZeros : (fuel : Nat) → Decimal → Decimal
  | 0, d => d
  | fuel + 1, d =>
    if d.digits % 10 = 0 then stripZeros fuel ⟨d.digits / 10, d.exponent + 1⟩ else d

/-- The shortest decimal that reads back as the positive number of the given units. -/
def shortest (units : Nat) : Decimal :=
  let k := magnitude units
  match (List.range 17).findSome? fun (n : Nat) => neighbour? units (k - (n + 1 : Nat)) with
  | some d => stripZeros 20 d
  | none => ⟨units * Nat.pow 5 1074, -1074⟩

end Decimal

end EsmBundle
