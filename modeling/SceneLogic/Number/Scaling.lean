/-
Scaling by powers of two.

A number is scaled in as many equal steps as are needed to write each factor as a number, but in at
most three, and every step rounds.  So a zero that is scaled beyond all numbers three times over is
no number, and a scaled subnormal number may be rounded more than once.
-/
import SceneLogic.Number.Basic
namespace SceneLogic.Number

/-- A power of two. -/
def powerOfTwo (e : Int) : Number :=
  if 1023 < e then infinity false
  else if e < -1074 then 0
  else ofQuotient false (Nat.pow 2 (e + 1074).toNat) 1

/-- The number of steps that it takes to scale by a power of two. -/
def scalingSteps (e : Int) : Nat := Nat.min 3 ((e.natAbs + 1022) / 1023)

/-- The number scaled by a power of two. -/
def scaleByTwo (x : Number) (e : Int) : Number :=
  (List.range (scalingSteps e)).foldl
    (fun y (i : Nat) => y.mul (powerOfTwo ((e + i) / (scalingSteps e : Int)))) x

end SceneLogic.Number
