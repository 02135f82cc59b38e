/-
The written form of a number.

A number is written with the fewest digits that read back.  The point is positional as long as
the first digit stands at most 21 places before it or six behind it; other numbers have an
exponent with its sign.  Zero has no sign.
-/
import SceneLogic.Number.Shortest
namespace SceneLogic.Number

/-- The last place of the point that is written positionally. -/
def positionalMax : Int := 21

/-- The place of the point from which on, downwards, an exponent is written. -/
def positionalMin : Int := -6

/-- Digits with a point behind the first, if more follow. -/
def mantissa : List Char → List Char
  | [] => []
  | [d] => [d]
  | d :: rest => d :: '.' :: rest

/-- An exponent with its sign. -/
def exponentText (e : Int) : List Char :=
  'e' :: (if e < 0 then '-' else '+') :: Nat.toDigits 10 e.natAbs

/-- The digits of a value whose point stands `point` places behind the start of its digits. -/
def layout (digits : List Char) (point : Int) : List Char :=
  if digits.length ≤ point ∧ point ≤ positionalMax then
    digits ++ List.replicate (point.toNat - digits.length) '0'
  else if 0 < point ∧ point ≤ positionalMax then
    digits.take point.toNat ++ '.' :: digits.drop point.toNat
  else if positionalMin < point ∧ point ≤ 0 then
    '0' :: '.' :: List.replicate (-point).toNat '0' ++ digits
  else mantissa digits ++ exponentText (point - 1)

/-- A positive count of quanta, written out. -/
def magnitudeText (m : Nat) : List Char :=
  let d := shortest m
  layout (Nat.toDigits 10 d.digits) d.point

/-- A finite value, written out. -/
def scalarText (x : Scalar) : List Char :=
  if x.quanta = 0 then ['0']
  else if x.quanta < 0 then '-' :: magnitudeText x.quanta.natAbs
  else magnitudeText x.quanta.natAbs

/-- The written form. -/
def text : Number → String
  | nan => "NaN"
  | infinity false => "Infinity"
  | infinity true => "-Infinity"
  | negativeZero => "0"
  | scalar x => String.ofList (scalarText x)

end SceneLogic.Number

/-- The written form of a finite value. -/
def SceneLogic.Scalar.text (x : SceneLogic.Scalar) : String := (SceneLogic.Number.scalar x).text
