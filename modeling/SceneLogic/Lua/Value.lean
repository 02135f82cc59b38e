/-
Values of Lua.

Texts are lists of bytes.  Tables and functions are numbers that tell them from each other: what
they hold is kept in a memory.  Floats that are whole and in the range of integers count as
integers when they are keys.
-/
import SceneLogic.Lua.Key
import SceneLogic.Lua.Token
import SceneLogic.Number.Text
namespace SceneLogic.Lua

/-- A value. -/
inductive Value where
  | nil
  | flag (b : Bool)
  | int (n : Int)
  | float (x : Number)
  | text (bytes : List UInt8)
  | table (identity : Nat)
  | function (identity : Nat)
deriving DecidableEq

namespace Value

instance : Inhabited Value := ⟨nil⟩

/-- Nil and false do not hold. -/
def holds : Value → Bool
  | nil | flag false => false
  | _ => true

/-- The value is nil. -/
def isNil : Value → Bool
  | nil => true
  | _ => false

/-- Equal values; integers and floats are compared as numbers, tables and functions by identity. -/
def same : Value → Value → Bool
  | nil, nil => true
  | flag a, flag b => a == b
  | int a, int b => a == b
  | int a, float b => (Number.ofInt a).same b
  | float a, int b => a.same (Number.ofInt b)
  | float a, float b => a.same b
  | text a, text b => a == b
  | table a, table b => a == b
  | function a, function b => a == b
  | _, _ => false

/-! ### Numbers -/

/-- The integer that a finite whole float in range is. -/
def toInt? (x : Number) : Option Int :=
  match x.toScalar? with
  | some s =>
    let n := s.quanta / (quantaPerUnit : Int)
    if s.isWhole ∧ -(Int.pow 2 31) ≤ n ∧ n < Int.pow 2 31 then some n else none
  | none => none

/-- The number that a text spells, with white space around it and perhaps a sign. -/
def ofNumeral? (bytes : List UInt8) : Option Value :=
  let s := (Text.byteChars bytes).dropWhile isSpace
  let s := (s.reverse.dropWhile isSpace).reverse
  let (negative, s) := Number.takeSign s
  match numeral? s with
  | some (.int n) => some (int (if negative then wrap (-n) else n))
  | some (.float x) => some (float (if negative then x.neg else x))
  | _ => none

/-- The number that a value is or spells. -/
def toNumber? : Value → Option Number
  | int n => some (Number.ofInt n)
  | float x => some x
  | text bytes =>
    match ofNumeral? bytes with
    | some (int n) => some (Number.ofInt n)
    | some (float x) => some x
    | _ => none
  | _ => none

/-! ### Written forms -/

/-- A decimal with the digits of a positive value rounded to fourteen places, a half upwards. -/
def roundToFourteen (m : Nat) : Decimal :=
  let e := Shortest.point m - 14
  let n := Shortest.scaled m e
  let d := Shortest.unit e
  ⟨(2 * n + d) / (2 * d), e⟩

/-- A float rounded to fourteen significant digits. -/
def coarse (x : Number) : Number :=
  match x with
  | .scalar s =>
    if s.quanta = 0 then x
    else (roundToFourteen s.quanta.natAbs).toNumber (decide (s.quanta < 0))
  | _ => x

/-- The written form of a float; one that looks like an integer gets a point and a zero. -/
def floatText (x : Number) : String :=
  let written := (coarse x).text
  if written.toList.all fun c => c.isDigit || c == '-' then written ++ ".0" else written

/-- The written form of an integer. -/
def intText (n : Int) : String := toString n

/-- The bytes of a text. -/
def ofString (s : String) : Value := text (Text.encode s.toList)

/-- The written form of a text or a number. -/
def toText? : Value → Option (List UInt8)
  | text bytes => some bytes
  | int n => some (Text.encode (intText n).toList)
  | float x => some (Text.encode (floatText x).toList)
  | _ => none

/-- The written form of any value; tables and functions are told apart by their identity. -/
def display : Value → List UInt8
  | nil => Text.encode "nil".toList
  | flag b => Text.encode (if b then "true" else "false").toList
  | table identity => Text.encode s!"table: {identity}".toList
  | function identity => Text.encode s!"function: {identity}".toList
  | v => v.toText?.getD []

/-- The name of the type of a value. -/
def typeName : Value → String
  | nil => "nil"
  | flag _ => "boolean"
  | int _ | float _ => "number"
  | text _ => "string"
  | table _ => "table"
  | function _ => "function"

/-! ### Keys -/

/-- Two keys are of the same entry of a table. -/
def sameKey : Value → Value → Bool
  | text a, text b => textKey a == textKey b
  | a, b => a.same b

/-- A value as a key. -/
def normalKey (k : Value) : Value :=
  match k with
  | float x => match toInt? x with
    | some n => int n
    | none => k
  | _ => k

/-- The value may be a key. -/
def isKey : Value → Bool
  | nil | float .nan => false
  | _ => true

end Value

end SceneLogic.Lua
