/-
Entries of tables.

A table is the list of its entries in the order in which they were entered.  An entry that is taken
out keeps its place with the value nil, so that whoever goes through the table while taking out
entries finds the next one; a key that is entered again comes last.

The length of a table (`border`) is found by looking at some indices only, so a table with gaps may
have one of several lengths.
-/
import SceneLogic.Lua.Value
namespace SceneLogic.Lua

/-- The entries of a table. -/
abbrev Entries := List (Value × Value)

namespace Entries

/-- The entries that are still in the table. -/
def live (es : Entries) : Entries := es.filter fun e => !e.2.isNil

/-- The value under a key, nil if there is none. -/
def get (es : Entries) (k : Value) : Value :=
  let k := k.normalKey
  ((es.find? fun e => e.1.sameKey k).map Prod.snd).getD .nil

/-- Puts a value under a key: in place of an earlier one, else last; nil takes the entry out. -/
def enter (es : Entries) (k v : Value) : Entries :=
  let k := k.normalKey
  if v.isNil ∨ !(es.get k).isNil then es.map fun e => if e.1.sameKey k then (e.1, v) else e
  else (es.filter fun e => !e.1.sameKey k) ++ [(k, v)]

/-- The entry behind that of a key, or the first one for nil; fails if the key was never entered. -/
def next? (es : Entries) (k : Value) : Option (Option (Value × Value)) :=
  let k := k.normalKey
  if k.isNil then some es.live.head?
  else
    match es.dropWhile fun e => !e.1.sameKey k with
    | [] => none
    | _ :: rest => some (live rest).head?

/-! ### Length -/

/-- There is a value under an integer. -/
def hasIndex (es : Entries) (n : Nat) : Bool := !(es.get (.int n)).isNil

/-- Halves the interval between an index with a value and one without until they are neighbours. -/
def bisectBorder (es : Entries) (lo hi : Nat) : Nat :=
  if lo + 1 < hi then
    if es.hasIndex ((lo + hi) / 2) then bisectBorder es ((lo + hi) / 2) hi
    else bisectBorder es lo ((lo + hi) / 2)
  else lo
termination_by hi - lo

/-- Doubles an index until there is no value under it, then looks for the border below. -/
def searchBorder (es : Entries) : Nat → Nat → Nat → Nat
  | 0, lo, _ => lo
  | n + 1, lo, hi =>
    if es.hasIndex hi then searchBorder es n hi (2 * hi) else bisectBorder es lo hi

/-- The length of a table: an index with a value, or zero, whose successor has none.  The search
begins behind as many places as there are entries. -/
def border (es : Entries) : Nat := searchBorder es 32 0 (es.live.length + 1)

end Entries

end SceneLogic.Lua
