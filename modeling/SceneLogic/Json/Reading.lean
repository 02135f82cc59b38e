/-
Reading values out of JSON.

A reading may fail in two ways: the value does not have the shape that is read, and then there is
nothing to say about it, or it has this shape and describes something malformed, which is a fault.
-/
import SceneLogic.Document.Basic
import SceneLogic.Fault
import SceneLogic.Geometry
import SceneLogic.Json.Basic
namespace SceneLogic

/-- What is read: nothing out of a value of another shape, or a fault. -/
abbrev Reading := ExceptT Fault Option

namespace Reading

/-- Goes on with a value of the right shape. -/
def ofShape {α : Type} (x : Option α) : Reading α := ExceptT.lift x

/-- Goes on with a result. -/
def ofResult {α : Type} (x : Except Fault α) : Reading α := ExceptT.mk (some x)

/-- A value of a shape that is not read. -/
def unknown {α : Type} : Reading α := ofShape none

end Reading

namespace Json

/-! ### Simple values -/

/-- The number that a value is. -/
def number? : Json → Option Number
  | number x => some x
  | _ => none

/-- The text that a value is. -/
def text? : Json → Option String
  | text s => some s
  | _ => none

/-- The truth value that a value is. -/
def bool? : Json → Option Bool
  | bool b => some b
  | _ => none

/-- The items that a value has. -/
def list? : Json → Option (List Json)
  | list items => some items
  | _ => none

/-- The two items that a value has. -/
def pair? : Json → Option (Json × Json)
  | list [a, b] => some (a, b)
  | _ => none

/-- How many counts from zero on lie below the number that a value is. -/
def rounds? (j : Json) : Option Nat := do
  match (← j.number?).ceil.toScalar? with
  | some x => return (x.quanta / (quantaPerUnit : Int)).toNat
  | none => return 0

/-- The values of a list. -/
def listOf? {α : Type} (read : Json → Option α) (j : Json) : Option (List α) := do
  (← j.list?).mapM read

/-- The numbers of a list. -/
def numbers? (j : Json) : Option (List Number) := j.listOf? number?

/-- The texts of a list. -/
def texts? (j : Json) : Option (List String) := j.listOf? text?

/-- A name with a value. -/
def named? {α : Type} (read : Json → Option α) (j : Json) : Option (String × α) := do
  let (name, v) ← j.pair?
  return (← name.text?, ← read v)

/-- Three numbers. -/
def triple? (j : Json) : Option (Triple Number) := do
  match ← j.numbers? with
  | [x, y, z] => return ⟨x, y, z⟩
  | _ => none

/-! ### Fields -/

/-- Reads a field. -/
def get? {α : Type} (j : Json) (name : String) (read : Json → Option α) : Option α :=
  (j.field? name).bind read

/-- Reads a field that may be missing. -/
def maybe? {α : Type} (j : Json) (name : String) (read : Json → Option α) : Option (Option α) :=
  match j.field? name with
  | some v => (read v).map some
  | none => some none

/-- Reads a field, with a value for one that is missing. -/
def getOr? {α : Type} (j : Json) (name : String) (read : Json → Option α) (standard : α) :
    Option α :=
  (j.maybe? name read).map (·.getD standard)

/-- Reads a field that may describe something malformed. -/
def read {α : Type} (j : Json) (name : String) (read : Json → Reading α) : Reading α :=
  (Reading.ofShape (j.field? name)).bind read

/-- Reads a field that may be missing, with a value for one that is. -/
def readOr {α : Type} (j : Json) (name : String) (read : Json → Reading α) (standard : α) :
    Reading α :=
  match j.field? name with
  | some v => read v
  | none => pure standard

/-- Reads the items of a list. -/
def readList {α : Type} (read : Json → Reading α) (j : Json) : Reading (List α) := do
  (← Reading.ofShape j.list?).mapM read

/-! ### Writing -/

/-- A natural number. -/
def ofNat (n : Nat) : Json := number (Number.ofNat n)

/-- A list of numbers. -/
def ofNumbers (items : List Number) : Json := list (items.map number)

/-- A list of texts. -/
def ofTexts (items : List String) : Json := list (items.map text)

/-- A field for a value that may be missing. -/
def optional {α : Type} (name : String) (write : α → Json) (x : Option α) : List (String × Json) :=
  (x.map fun v => (name, write v)).toList

/-- A value, `null` if it is missing. -/
def orNull {α : Type} (write : α → Json) (x : Option α) : Json := (x.map write).getD null

end Json

/-! ### Plain elements -/

mutual

/-- Reads an element whose attributes, children and text may be missing. -/
def Element.ofPlain? : Json → Option Element
  | .object fields => do
    let j := Json.object fields
    return { tag := ← j.get? "tag" Json.text?,
             attributes := ← j.getOr? "attributes" attributesOf? ∅,
             children := ← Element.ofPlainFields? fields,
             text := ← j.maybe? "text" Json.text? }
  | _ => none

/-- Reads the children among the fields of an element. -/
def Element.ofPlainFields? : List (String × Json) → Option (List Element)
  | [] => some []
  | (k, v) :: rest =>
    if k = "children" then
      match v with
      | .list items => Element.ofPlainItems? items
      | _ => none
    else Element.ofPlainFields? rest

/-- Reads elements one after the other. -/
def Element.ofPlainItems? : List Json → Option (List Element)
  | [] => some []
  | j :: js => do return (← Element.ofPlain? j) :: (← Element.ofPlainItems? js)

/-- Reads texts under names. -/
def attributesOf? : Json → Option (Table String)
  | .object fields => do
    return Table.ofList (← fields.mapM fun (k, v) => do return (k, ← v.text?))
  | _ => none

end

end SceneLogic
