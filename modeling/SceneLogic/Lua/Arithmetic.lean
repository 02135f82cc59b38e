/-
The operators of Lua.

Integers wrap around at 32 bits.  `/` and `^` always give floats; `//` and `%` round towards the
lesser, and fail for a zero integer divisor.  A text that spells a number counts as that float.
-/
import SceneLogic.Lua.Value
import SceneLogic.Number.Power
namespace SceneLogic.Lua

open Value

/-! ### Floats -/

/-- The greatest whole number that is not above a finite one; both zeros stay as they are. -/
def floorNumber (x : Number) : Number :=
  match x with
  | .scalar s => .ofInt (s.quanta / (quantaPerUnit : Int))
  | _ => x

/-- What is left of one float after taking out another as often as it goes, with the sign of the
first. -/
def truncatedRemainder (a b : Number) : Number :=
  match a.quanta?, b.quanta? with
  | some x, some y =>
    if y = 0 then .nan
    else if x.tmod y = 0 ∧ a.isNegative then .negativeZero
    else .ofQuanta (x.tmod y)
  | some _, none => if b = .nan then .nan else a
  | none, _ => .nan

/-- What is left with the sign of the divisor: if its product with the divisor is negative, and
does not vanish in rounding, the divisor is added. -/
def remainder (a b : Number) : Number :=
  let r := truncatedRemainder a b
  if (r.mul b).lt 0 then r.add b else r

/-! ### Operators -/

/-- An arithmetic operator on integers, where it has an integer result. -/
def onInts? (operator : String) (a b : Int) : Option (Option Int) :=
  if operator = "+" then some (some (wrap (a + b)))
  else if operator = "-" then some (some (wrap (a - b)))
  else if operator = "*" then some (some (wrap (a * b)))
  else if operator = "//" then some (if b = 0 then none else some (wrap (a.fdiv b)))
  else if operator = "%" then some (if b = 0 then none else some (wrap (a.fmod b)))
  else none

/-- An arithmetic operator on floats. -/
def onFloats? (operator : String) (a b : Number) : Option Number :=
  if operator = "+" then some (a.add b)
  else if operator = "-" then some (a.sub b)
  else if operator = "*" then some (a.mul b)
  else if operator = "/" then some (a.div b)
  else if operator = "//" then some (floorNumber (a.div b))
  else if operator = "%" then some (remainder a b)
  else if operator = "^" then some (a.pow b)
  else none

/-- An arithmetic operator on any values. -/
def arithmetic (operator : String) (a b : Value) : Option Value :=
  let floats := do
    let x ← a.toNumber?
    let y ← b.toNumber?
    (onFloats? operator x y).map Value.float
  match a, b with
  | .int x, .int y =>
    match onInts? operator x y with
    | some result => result.map .int
    | none => floats
  | _, _ => floats

/-- The integer that a value is, for operators on bits. -/
def bits? (v : Value) : Option Int :=
  match v with
  | .int n => some n
  | .float x => toInt? x
  | .text _ => v.toNumber?.bind toInt?
  | _ => none

/-- Shifts 32 bits to the left, or to the right by a negative amount, filling with zeros. -/
def shift (a by_ : Int) : Int :=
  let n := (a % Int.pow 2 32).toNat
  if by_ ≤ -32 ∨ 32 ≤ by_ then 0
  else if 0 ≤ by_ then wrap (n * Nat.pow 2 by_.toNat)
  else wrap (n / Nat.pow 2 (-by_).toNat)

/-- An operator on bits. -/
def bitwise (operator : String) (a b : Value) : Option Value := do
  let x ← bits? a
  let y ← bits? b
  let m := (x % Int.pow 2 32).toNat
  let n := (y % Int.pow 2 32).toNat
  if operator = "&" then some (.int (wrap (m &&& n : Nat)))
  else if operator = "|" then some (.int (wrap (m ||| n : Nat)))
  else if operator = "~" then some (.int (wrap (m ^^^ n : Nat)))
  else if operator = "<<" then some (.int (shift x y))
  else if operator = ">>" then some (.int (shift x (-y)))
  else none

/-- The first value is less than the second; numbers and texts compare among themselves. -/
def less? (a b : Value) : Option Bool :=
  match a, b with
  | .text x, .text y => some (textLess x y)
  | .text _, _ | _, .text _ => none
  | _, _ => do return (← a.toNumber?).lt (← b.toNumber?)

/-- The first value is less than the second or equal to it. -/
def lessOrEqual? (a b : Value) : Option Bool :=
  match a, b with
  | .text x, .text y => some (!textLess y x)
  | .text _, _ | _, .text _ => none
  | _, _ => do return (← a.toNumber?).le (← b.toNumber?)

/-- A binary operator on two values, apart from those that may leave out the second. -/
def binary? (operator : String) (a b : Value) : Option Value :=
  if operator = "==" then some (.flag (a.same b))
  else if operator = "~=" then some (.flag (!a.same b))
  else if operator = "<" then (less? a b).map .flag
  else if operator = ">" then (less? b a).map .flag
  else if operator = "<=" then (lessOrEqual? a b).map .flag
  else if operator = ">=" then (lessOrEqual? b a).map .flag
  else if operator = ".." then do return .text ((← a.toText?) ++ (← b.toText?))
  else if operator ∈ ["&", "|", "~", "<<", ">>"] then bitwise operator a b
  else arithmetic operator a b

/-- A unary operator; the length is that of a text. -/
def unary? (operator : String) (v : Value) : Option Value :=
  if operator = "not" then some (.flag (!v.holds))
  else if operator = "#" then
    match v with
    | .text bytes => some (.int bytes.length)
    | _ => none
  else if operator = "-" then
    match v with
    | .int n => some (.int (wrap (-n)))
    | _ => v.toNumber?.map fun x => .float x.neg
  else if operator = "~" then (bits? v).map fun n => .int (wrap (-n - 1))
  else none

end SceneLogic.Lua
