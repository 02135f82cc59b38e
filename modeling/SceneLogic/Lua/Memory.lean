/-
What running scripts work on.

A `Memory` holds the tables, functions and variables that were ever made, each at a place of its own;
values refer to tables and functions by these places, and functions to the variables in their scope.
A `Run` works on a memory and may fail with a value; what it did to the memory before stays.
-/
import SceneLogic.Lua.Chunk
import SceneLogic.Lua.Entries
namespace SceneLogic.Lua

/-- The variables in scope with their places, the innermost first. -/
abbrev Scope := List (Name × Nat)

/-- A function of a script with the variables that it can see. -/
structure Closure where
  parameters : List Name
  variadic : Bool
  body : List Stmt
  scope : Scope

/-- The functions that every script finds under global names or in global tables. -/
inductive BuiltIn where
  | assert | error | ipairs | ipairsNext | next | pairs | pcall | print | rawequal | rawget | rawlen
  | rawset | select | tonumber | tostring | type
  | abs | ceil | floor | greatest | least | sqrt | tointeger
  | byte | char | len | lower | rep | reverse | sub | upper
  | concat | insert | remove | unpack
deriving DecidableEq

/-- A function. -/
inductive Function where
  | script (c : Closure)
  | builtIn (b : BuiltIn)

/-- Tables, functions and variables by their places. -/
structure Memory where
  tables : Array Entries := #[]
  functions : Array Function := #[]
  /-- The values of the variables. -/
  cells : Array Value := #[]

/-- A computation on a memory that may fail with a value. -/
abbrev Run := ExceptT Value (StateM Memory)

namespace Run

/-- Fails with a text. -/
def fail {α : Type} (message : String) : Run α := throw (.ofString message)

/-- Goes on with the result of an operation, if it has one. -/
def ofOption {α : Type} (message : String) (x : Option α) : Run α :=
  match x with
  | some a => return a
  | none => fail message

/-! ### Variables -/

/-- Makes a variable. -/
def newVariable (v : Value) : Run Nat :=
  modifyGet fun m => (m.cells.size, { m with cells := m.cells.push v })

/-- The value of a variable. -/
def readVariable (place : Nat) : Run Value := do return ((← get).cells[place]?).getD .nil

/-- Assigns to a variable. -/
def writeVariable (place : Nat) (v : Value) : Run Unit :=
  modify fun m => { m with cells := m.cells.setIfInBounds place v }

/-- Makes variables, as many as there are names; those without a value are nil. -/
def bind : List Name → List Value → Scope → Run Scope
  | [], _, scope => return scope
  | name :: names, vs, scope => do
    let place ← newVariable (vs.headD .nil)
    bind names vs.tail ((name, place) :: scope)

/-! ### Functions and tables -/

/-- Makes a function. -/
def newFunction (f : Function) : Run Value :=
  modifyGet fun m => (.function m.functions.size, { m with functions := m.functions.push f })

/-- Makes a table. -/
def newTable (es : Entries) : Run Value :=
  modifyGet fun m => (.table m.tables.size, { m with tables := m.tables.push es })

/-- The entries of a table. -/
def entries (identity : Nat) : Run Entries := do return ((← get).tables[identity]?).getD []

/-- Puts a value under a key of a table. -/
def enter (identity : Nat) (k v : Value) : Run Unit :=
  if k.isKey then
    modify fun m =>
      { m with tables := m.tables.modify identity fun es => Entries.enter es k v }
  else fail "table index is nil or NaN"

end Run

end SceneLogic.Lua
