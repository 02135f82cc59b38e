/-
Documents: the trees in which scenes are stored.

An element has a tag, attributes, children and perhaps a text.  The `require` family looks up a
part and says in a fault what is missing; flags are stored as `true` and `false`.
-/
import SceneLogic.Fault
import SceneLogic.Number.Reader
import SceneLogic.Table
namespace SceneLogic

/-- An element of a document. -/
structure Element where
  tag : String
  attributes : Table String := ∅
  children : List Element := []
  text : Option String := none

namespace Element

/-! ### Making elements -/

/-- An element with attributes and children. -/
def node (tag : String) (attributes : List (String × String)) (children : List Element := []) :
    Element :=
  { tag, attributes := Table.ofList attributes, children }

/-- An element that holds a text only. -/
def ofText (tag text : String) : Element := { tag, text := some text }

/-! ### Looking up parts -/

/-- The value of an attribute. -/
def attribute? (e : Element) (name : String) : Option String := e.attributes.get? name

/-- The first child with a tag. -/
def child? (e : Element) (tag : String) : Option Element := e.children.find? (·.tag == tag)

/-- All children with a tag. -/
def childrenOf (e : Element) (tag : String) : List Element := e.children.filter (·.tag == tag)

/-- The first child with a tag, which must be there. -/
def requireChild (e : Element) (tag : String) : Except Fault Element :=
  match e.child? tag with
  | some c => .ok c
  | none => .error (.noChild e.tag tag)

/-- The value of an attribute, which must be there. -/
def requireAttribute (e : Element) (name : String) : Except Fault String :=
  match e.attribute? name with
  | some v => .ok v
  | none => .error (.noAttribute e.tag name)

/-- The text of the first child with a tag, which must be there and have one. -/
def requireChildText (e : Element) (tag : String) : Except Fault String := do
  match (← e.requireChild tag).text with
  | some t => .ok t
  | none => .error (.noText e.tag tag)

/-- The finite number that an attribute spells; a blank one spells none. -/
def requireNumber (e : Element) (name : String) : Except Fault Scalar := do
  let text ← e.requireAttribute name
  match (Number.read text).toScalar? with
  | some x => if Text.Blank text then .error (.notNumeric e.tag name text) else .ok x
  | none => .error (.notNumeric e.tag name text)

end Element

/-! ### Flags -/

/-- The stored form of a flag. -/
def flagText (b : Bool) : String := if b then "true" else "false"

/-- Reads a flag; upper case and white space around it do not matter. -/
def readFlag (text : String) : Except Fault Bool :=
  let word := (Text.trimChars text.toList).map Char.toLower
  if word = "true".toList then .ok true
  else if word = "false".toList then .ok false
  else .error (.notBoolean text)

/-- Reads the flag in an attribute, with a value for an attribute that is not there. -/
def Element.flagOr (e : Element) (name : String) (standard : Bool) : Except Fault Bool :=
  match e.attribute? name with
  | some text => readFlag text
  | none => .ok standard

end SceneLogic
