/-
Positions, colours and the texts of tuples.

A `Position` has three finite coordinates and a `Color` three channels from 0 to 255.  Both are
written as their numbers joined by commas (`tupleText`) and read back by `readTuple`, which first
drops parentheses and white space wherever they stand.
-/
import SceneLogic.Fault
import SceneLogic.Number.Reader
namespace SceneLogic

/-! ### Triples -/

/-- Three values of one kind. -/
structure Triple (α : Type) where
  x : α
  y : α
  z : α
deriving DecidableEq

namespace Triple

/-- The values in order. -/
def toList {α : Type} (t : Triple α) : List α := [t.x, t.y, t.z]

/-- Applies a function to each value. -/
def map {α β : Type} (f : α → β) (t : Triple α) : Triple β := ⟨f t.x, f t.y, f t.z⟩

end Triple

/-- Three finite coordinates. -/
abbrev Position := Triple Scalar

namespace Position

/-- The coordinates as numbers. -/
def numbers (p : Position) : List Number := p.toList.map Number.scalar

/-- The position that a list of numbers gives, if it holds three finite ones. -/
def ofNumbers? : List Number → Option Position
  | [x, y, z] => do return ⟨← x.toScalar?, ← y.toScalar?, ← z.toScalar?⟩
  | _ => none

/-- Refuses a list that is no position. -/
def ofNumbers (label : String) (values : List Number) : Except Fault Position :=
  match ofNumbers? values with
  | some p => .ok p
  | none => .error (.notPosition label values)

end Position

/-! ### Colours -/

/-- Three channels from 0 to 255. -/
structure Color where
  red : Fin 256
  green : Fin 256
  blue : Fin 256
deriving DecidableEq

namespace Color

/-- The channel that a number gives, if it is whole and in range. -/
def channel? (x : Number) : Option (Fin 256) :=
  match x.toScalar? with
  | some s =>
    let n := s.quanta / (quantaPerUnit : Int)
    if h : s.isWhole ∧ 0 ≤ n ∧ n.toNat < 256 then some ⟨n.toNat, h.2.2⟩ else none
  | none => none

/-- The channels as numbers. -/
def numbers (c : Color) : List Number := [c.red, c.green, c.blue].map fun channel => Number.ofNat channel.val

/-- The colour that a list of numbers gives, if it holds three channels. -/
def ofNumbers? : List Number → Option Color
  | [r, g, b] => do return ⟨← channel? r, ← channel? g, ← channel? b⟩
  | _ => none

/-- Refuses a list that is no colour. -/
def ofNumbers (label : String) (values : List Number) : Except Fault Color :=
  match ofNumbers? values with
  | some c => .ok c
  | none => .error (.notColor label values)

end Color

/-! ### Texts of tuples -/

/-- Numbers joined by commas. -/
def tupleText (values : List Number) : String := ",".intercalate (values.map Number.text)

/-- The parts between the separators, one more than there are separators. -/
def splitOn (separator : Char) : List Char → List (List Char)
  | [] => [[]]
  | c :: cs =>
    if c = separator then [] :: splitOn separator cs
    else match splitOn separator cs with
      | [] => [[c]]
      | part :: parts => (c :: part) :: parts

/-- Parentheses and white space do not count in a tuple. -/
def isTupleFiller (c : Char) : Bool := c == '(' || c == ')' || Text.isBlankChar c

/-- The parts of a tuple. -/
def tupleParts (text : String) : List (List Char) :=
  splitOn ',' (text.toList.filter fun c => !isTupleFiller c)

/-- Reads as many finite numbers as asked for, none of them an empty part. -/
def readTuple (label : String) (count : Number) (text : String) : Except Fault (List Number) :=
  let parts := tupleParts text
  let values := parts.map Number.readChars
  if Number.ofNat parts.length ≠ count ∨ [] ∈ parts ∨ ¬ values.all Number.isFinite then
    .error (.notTuple label count text)
  else .ok values

/-- Reads a position. -/
def Position.read (label text : String) : Except Fault Position := do
  Position.ofNumbers label (← readTuple label 3 text)

end SceneLogic
