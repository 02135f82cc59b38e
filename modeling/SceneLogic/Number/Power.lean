/-
Powers and square roots.

`sqrt` is the number nearest to the square root.  `pow` is computed in steps that round, so it is
not always the nearest number, and each step counts:

* a logarithm to base two is found as a sum of two numbers (`Parts`), of which the upper has 21
  binary digits, so that products with it are exact;
* it is multiplied by the exponent, which is parted in the same way;
* two is raised to this product by a rational approximation between `-1/2` and `1/2`, and the
  result is scaled by what was left out.

The polynomials have fixed coefficients, which are given by their 64 bits.
-/
import SceneLogic.Number.Basic
namespace SceneLogic.Number

instance : Add Number := ⟨add⟩
instance : Sub Number := ⟨sub⟩
instance : Mul Number := ⟨mul⟩
instance : Div Number := ⟨div⟩

/-! ### Bits -/

/-- The number that 64 bits stand for. -/
def ofBits (bits : Nat) : Number :=
  let negative := bits / Nat.pow 2 63 == 1
  let exponent := bits / Nat.pow 2 52 % Nat.pow 2 11
  let fraction := bits % Nat.pow 2 52
  if exponent = 2047 then if fraction = 0 then infinity negative else nan
  else if exponent = 0 then ofQuotient negative fraction 1
  else ofQuotient negative ((Nat.pow 2 52 + fraction) * Nat.pow 2 (exponent - 1)) 1

/-- A count cut down to its first 21 binary digits. -/
def upperQuanta (m : Nat) : Nat :=
  let step := Nat.pow 2 (lastPlace m + 32)
  m / step * step

/-- A number cut down to its first 21 binary digits. -/
def upper : Number → Number
  | scalar x => ofQuotient (decide (x.quanta < 0)) (upperQuanta x.quanta.natAbs) 1
  | x => x

/-- The number without its sign. -/
def abs (x : Number) : Number := if x.isNegative then x.neg else x

/-- The number, or its opposite. -/
def signed (negative : Bool) (x : Number) : Number := if negative then x.neg else x

/-- Whole and odd. -/
def isOdd (x : Number) : Bool :=
  match x.toScalar? with
  | some s => s.isWhole && s.quanta.natAbs / quantaPerUnit % 2 == 1
  | none => false

/-! ### Square roots -/

/-- Extends a root by lower binary digits as long as its square does not exceed a number. -/
def extendRoot (n : Nat) : Nat → Nat → Nat
  | 0, root => root
  | k + 1, root =>
    let next := root + Nat.pow 2 k
    extendRoot n k (if next * next ≤ n then next else root)

/-- The greatest number whose square does not exceed another. -/
def floorRoot (n : Nat) : Nat := extendRoot n (n.log2 / 2 + 1) 0

/-- The number nearest to the root of a positive count of quanta.  A root that is not whole lies
on the same side of every rounding bound as the half behind its whole part. -/
def rootQuanta (m : Nat) : Number :=
  let square := m * quantaPerUnit
  let root := floorRoot square
  ofQuotient false (2 * root + (if root * root = square then 0 else 1)) 2

/-- The square root. -/
def sqrt : Number → Number
  | infinity false => infinity false
  | negativeZero => negativeZero
  | scalar x => if x.quanta < 0 then nan else rootQuanta x.quanta.natAbs
  | _ => nan

/-! ### Logarithms to base two -/

/-- A value as the sum of two numbers, the first with few digits and the second small. -/
structure Parts where
  high : Number
  low : Number

/-- One and a half. -/
def oneAndHalf : Number := ofBits 0x3FF8000000000000

/-- The logarithm of 1.5, upper part. -/
def logOfBaseHigh : Number := ofBits 0x3FE2B80340000000

/-- The logarithm of 1.5, lower part. -/
def logOfBaseLow : Number := ofBits 0x3E4CFDEB43CFD006

/-- Two thirds of the logarithm of e. -/
def twoThirdsLog : Number := ofBits 0x3FEEC709DC3A03FD

/-- Two thirds of the logarithm of e, upper part. -/
def twoThirdsLogHigh : Number := ofBits 0x3FEEC709E0000000

/-- Two thirds of the logarithm of e, lower part. -/
def twoThirdsLogLow : Number := ofBits 0xBE3E2FE0145B01F5

/-- The logarithm of e. -/
def logOfE : Number := ofBits 0x3FF71547652B82FE

/-- The logarithm of e, upper part. -/
def logOfEHigh : Number := ofBits 0x3FF7154760000000

/-- The logarithm of e, lower part. -/
def logOfELow : Number := ofBits 0x3E54AE0BF85DDF44

/-- The coefficients of the series of the logarithm behind its leading terms. -/
def logCoefficients : List Number :=
  [ofBits 0x3FE3333333333303, ofBits 0x3FDB6DB6DB6FABFF, ofBits 0x3FD55555518F264D,
    ofBits 0x3FD17460A91D4101, ofBits 0x3FCD864A93C9DB65, ofBits 0x3FCA7E284A454EEF]

/-- The value of a polynomial, given from the constant coefficient on. -/
def polynomial (x : Number) : List Number → Number
  | [] => 0
  | [c] => c
  | c :: cs => c + x * polynomial x cs

/-- The logarithm of a number next to one. -/
def logNextToOne (x : Number) : Parts :=
  let t := x - 1
  let w := t * t * (1 / 2 - t * (1 / 3 - t * (1 / 4)))
  let u := logOfEHigh * t
  let v := t * logOfELow - w * logOfE
  let high := upper (u + v)
  ⟨high, v - (high - u)⟩

/-- The logarithm of a significand, which lies closer to one than to `1.5` or the other way
round, plus an exponent. -/
def logOfSignificand (a : Number) (nearOneAndHalf : Bool) (sum : Number) (exponent : Number) :
    Parts :=
  let base := if nearOneAndHalf then oneAndHalf else 1
  let baseHigh := if nearOneAndHalf then logOfBaseHigh else 0
  let baseLow := if nearOneAndHalf then logOfBaseLow else 0
  -- the quotient of difference and sum, in two parts
  let u := a - base
  let v := 1 / (a + base)
  let s := u * v
  let sHigh := upper s
  let rest := a - (sum - base)
  let sLow := v * ((u - sHigh * sum) - sHigh * rest)
  -- three plus its square plus the series, in two parts
  let s2 := s * s
  let r := s2 * s2 * polynomial s2 logCoefficients + sLow * (sHigh + s)
  let square := sHigh * sHigh
  let tHigh := upper (3 + square + r)
  let tLow := r - ((tHigh - 3) - square)
  -- their product
  let u := sHigh * tHigh
  let v := sLow * tHigh + tLow * s
  let pHigh := upper (u + v)
  let pLow := v - (pHigh - u)
  -- the logarithm
  let zHigh := twoThirdsLogHigh * pHigh
  let zLow := twoThirdsLogLow * pHigh + pLow * twoThirdsLog + baseLow
  let high := upper (zHigh + zLow + baseHigh + exponent)
  ⟨high, zLow - (((high - exponent) - baseHigh) - zHigh)⟩

/-- The logarithm of a positive count of quanta.  The significand lies between `√3/2` and `√3`;
up to `√(3/2)` it is compared with one, beyond that with `1.5`. -/
def logOfQuanta (m : Nat) : Parts :=
  let place := m.log2
  let behindPoint := m * Nat.pow 2 20 / Nat.pow 2 place - Nat.pow 2 20
  let nearOneAndHalf := 0x3988E < behindPoint && behindPoint < 0xBB67A
  let halved := if behindPoint < 0xBB67A then 0 else 1
  let a := m * quantaPerUnit / Nat.pow 2 (place + halved)
  let base := if nearOneAndHalf then quantaPerUnit + quantaPerUnit / 2 else quantaPerUnit
  logOfSignificand (ofQuotient false a 1) nearOneAndHalf
    (ofQuotient false (upperQuanta (a + base)) 1) (ofInt ((place : Int) - 1074 + halved))

/-! ### Powers of two -/

/-- The logarithm of two to base e. -/
def lnOfTwo : Number := ofBits 0x3FE62E42FEFA39EF

/-- The logarithm of two to base e, upper part. -/
def lnOfTwoHigh : Number := ofBits 0x3FE62E4300000000

/-- The logarithm of two to base e, lower part. -/
def lnOfTwoLow : Number := ofBits 0xBE205C610CA86C39

/-- The coefficients of the rational approximation. -/
def expCoefficients : List Number :=
  [ofBits 0x3FC555555555553E, ofBits 0xBF66C16C16BEBD93, ofBits 0x3F11566AAF25DE2C,
    ofBits 0xBEBBBD41C5D26BF1, ofBits 0x3E66376972BEA4D0]

/-- How far a lower part may exceed its bound before a power overflows. -/
def overflowSlack : Number := ofBits 0x3C971547652B82FE

/-- The whole number next to a finite number, a half going away from zero; zero for a number
that is not above a half in its upper part. -/
def nearest (z : Number) : Int :=
  match (upper z).quanta? with
  | some q =>
    if 2 * q.natAbs ≤ quantaPerUnit then 0
    else
      let n := (2 * q.natAbs + quantaPerUnit) / (2 * quantaPerUnit)
      if q < 0 then -n else n
  | none => 0

/-- Two raised to a number between `-1/2` and `1/2`. -/
def expOfParts (high low : Number) : Number :=
  let t := upper (low + high)
  let u := t * lnOfTwoHigh
  let v := (low - (t - high)) * lnOfTwo + t * lnOfTwoLow
  let z := u + v
  let w := v - (z - u)
  let square := z * z
  let t1 := z - square * polynomial square expCoefficients
  let r := z * t1 / ((t1 - 2) - (w + z * w))
  1 - (r - z)

/-- A number times a power of two, rounded. -/
def scale (x : Number) (n : Int) : Number :=
  match x.quanta? with
  | some q =>
    if 0 ≤ n then ofQuotient x.isNegative (q.natAbs * Nat.pow 2 n.toNat) 1
    else ofQuotient x.isNegative q.natAbs (Nat.pow 2 (-n).toNat)
  | none => x

/-- Two raised to the sum of two parts. -/
def expOf (p : Parts) : Number :=
  let z := p.low + p.high
  if lt 1024 z || (z.same 1024 && lt (z - p.high) (p.low + overflowSlack)) then infinity false
  else if lt z (-1075) || (z.same (-1075) && le p.low (z - p.high)) then 0
  else
    let n := nearest z
    scale (expOfParts (if n = 0 then p.high else p.high - ofInt n) p.low) n

/-! ### Powers -/

/-- The product of a number with a logarithm. -/
def timesLog (y : Number) (log : Parts) : Parts :=
  let yHigh := upper y
  ⟨yHigh * log.high, (y - yHigh) * log.high + y * log.low⟩

/-- A power of a positive number other than one.  If the exponent is huge, all but the powers of
numbers next to one overflow or vanish. -/
def powOfPositive (x y : Number) (m : Nat) : Number :=
  let size := upper y.abs
  let base := upper x
  if lt (ofNat (Nat.pow 2 31)) size then
    if lt (ofNat (Nat.pow 2 64)) size || lt base (ofBits 0x3FEFFFFF00000000) || lt 1 base then
      if lt x 1 = y.isNegative then infinity false else 0
    else expOf (timesLog y (logNextToOne x))
  else expOf (timesLog y (logOfQuanta m))

/-- A power with an exponent for which there is no shortcut. -/
def powByLog (x y : Number) : Number :=
  let negative := x.isNegative && y.isOdd
  match x with
  | nan => nan
  | infinity _ => signed negative (if y.isNegative then 0 else infinity false)
  | negativeZero => signed negative (if y.isNegative then infinity false else 0)
  | scalar s =>
    if s.quanta = 0 then if y.isNegative then infinity false else 0
    else if s.quanta < 0 ∧ ¬ y.isWhole then nan
    else if x.abs.same 1 then signed negative 1
    else signed negative (powOfPositive x.abs y s.quanta.natAbs)

/-- A power with a finite exponent that is not zero. -/
def powFinite (x y : Number) : Number :=
  if y.same 1 then x
  else if y.same (-1) then 1 / x
  else if y.same 2 then x * x
  else if y.same (1 / 2) ∧ ¬ x.isNegative then x.sqrt
  else powByLog x y

/-- A number raised to a power.  The power zero is one for every base, and the powers of one and
minus one with an infinite exponent are undefined. -/
def pow (x y : Number) : Number :=
  if y.same 0 then 1
  else if x = nan ∨ y = nan then nan
  else match y with
    | infinity negative =>
      if x.abs.same 1 then nan
      else if lt x.abs 1 = negative then infinity false
      else 0
    | _ => powFinite x y

end SceneLogic.Number
