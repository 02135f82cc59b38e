/-
The shortest numeral that reads back.

`shortest m` is a decimal numeral for a positive count of quanta that names this very count
(`Decimal.names`), has as few digits as any that does, and of those lies nearest.  For each
number of digits the two numerals next to the value are tried: if any of that length names the
count, one of these two does, since the values that round to a count form an interval.
-/
import SceneLogic.Number.Decimal
namespace SceneLogic

/-- The numeral names the count of quanta. -/
def Decimal.names (d : Decimal) (m : Nat) : Bool := (d.toNumber false).quanta? == some (m : Int)

namespace Shortest

/-- The numerator of a count, in units of `10^e`. -/
def scaled (m : Nat) (e : Int) : Nat := m * Nat.pow 10 (-e).toNat

/-- The denominator of a count, in units of `10^e`. -/
def unit (e : Int) : Nat := quantaPerUnit * Nat.pow 10 e.toNat

/-- The numeral with last place `e` just below the value, or equal to it. -/
def below (m : Nat) (e : Int) : Decimal := ⟨scaled m e / unit e, e⟩

/-- The numeral with last place `e` just above the value. -/
def above (m : Nat) (e : Int) : Decimal := ⟨scaled m e / unit e + 1, e⟩

/-- The lower neighbour is the nearer one; at a tie, when its last digit is even. -/
def belowIsNearer (m : Nat) (e : Int) : Bool :=
  let twice := 2 * (scaled m e % unit e)
  twice < unit e || (twice == unit e && scaled m e / unit e % 2 == 0)

/-- The numeral with last place `e` that names the count, if there is one. -/
def onGrid? (m : Nat) (e : Int) : Option Decimal :=
  match (below m e).names m, (above m e).names m with
  | true, true => some (if belowIsNearer m e then below m e else above m e)
  | true, false => some (below m e)
  | false, true => some (above m e)
  | false, false => none

/-- A power of ten that lifts the least quantum above one. -/
def lift : Nat := 340

/-- Where the point of the value stands, counted from before its first digit. -/
def point (m : Nat) : Int :=
  ((Nat.toDigits 10 (m * Nat.pow 10 lift / quantaPerUnit)).length : Int) - lift

/-- Every digit of the value: halving a quantum adds one place. -/
def exact (m : Nat) : Decimal := ⟨m * Nat.pow 5 1074, -1074⟩

end Shortest

/-- The shortest numeral for a positive count.  Seventeen digits always suffice; the exact
numeral stands behind them so that the result names the count in any case. -/
def shortest (m : Nat) : Decimal :=
  (((List.range 17).findSome? fun (i : Nat) => Shortest.onGrid? m (Shortest.point m - (i + 1))).getD
    (Shortest.exact m)).dropZeros

end SceneLogic
