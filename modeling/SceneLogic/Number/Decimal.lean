/-
Decimal numerals and the numbers they name.

A numeral `digits × 10^exponent` names the number nearest to it (`Decimal.toNumber`).
Numerals far beyond the greatest finite number, or far below the least, are settled by the
place of their first digit, so that no power of ten grows with the exponent as written.
-/
import SceneLogic.Number.Basic
namespace SceneLogic

/-- The numeral `digits × 10^exponent`. -/
structure Decimal where
  digits : Nat
  exponent : Int
deriving DecidableEq

namespace Decimal

/-- The numerator of the value. -/
def num (d : Decimal) : Nat := d.digits * Nat.pow 10 d.exponent.toNat

/-- The denominator of the value. -/
def den (d : Decimal) : Nat := Nat.pow 10 (-d.exponent).toNat

/-- Where the point stands, counted from before the first digit: the value is below
`10^point` and, unless it is zero, not below `10^(point - 1)`. -/
def point (d : Decimal) : Int := (Nat.toDigits 10 d.digits).length + d.exponent

/-- Numerals with a later point are infinite. -/
def greatestPoint : Int := 310

/-- Numerals with an earlier point are zero. -/
def leastPoint : Int := -330

/-- The number nearest to the value, with the sign given. -/
def toNumber (negative : Bool) (d : Decimal) : Number :=
  if d.digits = 0 then .ofQuotient negative 0 1
  else if greatestPoint < d.point then .infinity negative
  else if d.point < leastPoint then .ofQuotient negative 0 1
  else .ofQuotient negative (d.num * quantaPerUnit) d.den

/-- The same value without zeros at the end of the digits. -/
def dropZeros (d : Decimal) : Decimal :=
  if h : d.digits ≠ 0 ∧ d.digits % 10 = 0 then dropZeros ⟨d.digits / 10, d.exponent + 1⟩ else d
termination_by d.digits
decreasing_by omega

end Decimal

end SceneLogic
