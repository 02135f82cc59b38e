/-
Results of scripts.

A script hands out its result as `Data`, a value that holds what its tables hold.  `toJson` is its
JSON form: nil and functions become `null`.  A table becomes a list when all its keys are whole
numbers from one on and the greatest of those that can be an index of a list equals the number of
entries; any other table becomes an object whose keys are the written forms of the keys.
-/
import SceneLogic.Json.Basic
import SceneLogic.Lua.Memory
import SceneLogic.Number.Text
import SceneLogic.Scene.Reserved
namespace SceneLogic.Lua

/-- A value by itself. -/
inductive Data where
  | nil
  | flag (b : Bool)
  | int (n : Int)
  | float (x : Number)
  | text (bytes : List UInt8)
  | table (entries : List (Value × Data))
  | function

/-! ### Taking results out of a memory -/

/-- A value with what its tables hold, down to some depth. -/
def Memory.data (m : Memory) : Nat → Value → Data
  | _, .nil => .nil
  | _, .flag b => .flag b
  | _, .int n => .int n
  | _, .float x => .float x
  | _, .text bytes => .text bytes
  | _, .function _ => .function
  | 0, .table _ => .nil
  | depth + 1, .table identity =>
    .table ((m.tables[identity]?.getD []).live.map fun (k, v) => (k, m.data depth v))

/-- A value with what its tables hold; no table that does not hold itself lies deeper than there are
tables. -/
def Memory.result (m : Memory) (v : Value) : Data := m.data m.tables.size v

namespace Data

/-! ### Lists -/

/-- The greatest position that an item of a list can have, counted from one. -/
def greatestPosition : Nat := Nat.pow 2 32 - 1

/-- The whole number from one on that a key is. -/
def position? : Value → Option Nat
  | .int n => if 1 ≤ n then some n.toNat else none
  | .float x =>
    match x.toScalar? with
    | some s =>
      if s.isWhole ∧ (quantaPerUnit : Int) ≤ s.quanta then some (s.quanta.toNat / quantaPerUnit)
      else none
    | none => none
  | _ => none

/-- The items at positions from one to a length, `null` where there is none. -/
def itemsUpTo (length : Nat) (items : List (Nat × Json)) : List Json :=
  (List.range length).map fun i => (items.lookup (i + 1)).getD .null

/-- The list that positions and items make up, if they are as many as the list is long. -/
def asList? (entries : List (Option Nat × Json)) : Option Json :=
  match entries.mapM fun (p, v) => p.map fun p => (p, v) with
  | none | some [] => none
  | some items =>
    let items := items.filter fun e => e.1 ≤ greatestPosition
    let length := (items.map Prod.fst).foldl max 0
    if length = entries.length then some (.list (itemsUpTo length items)) else none

/-! ### Objects -/

/-- The written form of a key; truth values, tables and functions have none of their own. -/
def keyText : Value → String
  | .int n => (Number.ofInt n).text
  | .float x => x.text
  | .text bytes => String.ofList (Text.decode bytes)
  | _ => "null"

/-- The object that keys and values make up; nothing can be entered under one name. -/
def asObject (entries : List (String × Json)) : Json :=
  .object (entries.foldl (fun fields (k, v) =>
    if k = Reserved.unassignable then fields else insertEntry k v fields) [])

/-! ### JSON -/

mutual

/-- The JSON form of a value. -/
def toJson : Data → Json
  | nil | function => .null
  | flag b => .bool b
  | int n => .number (Number.ofInt n)
  | float x => .number x
  | text bytes => .text (String.ofList (Text.decode bytes))
  | table entries =>
    let values := valuesToJson entries
    let keys := entries.map Prod.fst
    (asList? ((keys.map position?).zip values)).getD (asObject ((keys.map keyText).zip values))

/-- The JSON forms of the values of a table, in order. -/
def valuesToJson : List (Value × Data) → List Json
  | [] => []
  | (_, v) :: rest => toJson v :: valuesToJson rest

end

end Data

end SceneLogic.Lua
