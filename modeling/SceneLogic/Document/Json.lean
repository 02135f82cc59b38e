/-
Documents as JSON.

`Element.toJson` writes a tag, attributes, children and, if there is one, a text, in this order.
`Element.ofJson` reads any object with a string tag, attributes that are strings, children that
are elements and a text that is a string; attributes, children and text may be missing, and
children may also be `null`.  A fault names the path of tags to the first offender in document
order; within an element attributes are looked at before children and children before the text.
-/
import SceneLogic.Document.Basic
import SceneLogic.Json.Parser
import SceneLogic.Json.Printer
import SceneLogic.Scene.Reserved
namespace SceneLogic.Element

/-! ### Writing -/

mutual

/-- The JSON form of an element. -/
def toJson : Element → Json
  | ⟨tag, attributes, children, text⟩ =>
    .object ([("tag", .text tag),
      ("attributes", .object (attributes.entries.map fun (k, v) => (k, .text v))),
      ("children", .list (listToJson children))] ++
      (text.map fun t => ("text", Json.text t)).toList)

/-- The JSON forms of some elements. -/
def listToJson : List Element → List Json
  | [] => []
  | e :: es => toJson e :: listToJson es

end

/-- The JSON text of an element. -/
def render (style : Json.Style) (e : Element) : String := e.toJson.render style

/-! ### Reading -/

/-- Reads the tag of an element at a path. -/
def readTag (path : String) (fields : List (String × Json)) : Except Fault String :=
  match fields.lookup "tag" with
  | some (.text tag) => .ok tag
  | _ => .error (.notElement path)

/-- Reads attributes into a table; the one name that cannot be assigned is passed over. -/
def readAttributeList (path : String) : List (String × Json) → Table String → Except Fault (Table String)
  | [], read => .ok read
  | (k, .text v) :: rest, read =>
    readAttributeList path rest (if k = Reserved.unassignable then read else read.insert k v)
  | (k, _) :: _, _ => .error (.attributeNotText path k)

/-- Reads the attributes of an element. -/
def readAttributes (path : String) (fields : List (String × Json)) : Except Fault (Table String) :=
  match fields.lookup "attributes" with
  | none => .ok ∅
  | some (.object attributes) => readAttributeList path attributes ∅
  | some _ => .error (.attributesNotObject path)

/-- Refuses children that are no list. -/
def checkChildren (path : String) (fields : List (String × Json)) : Except Fault Unit :=
  match fields.lookup "children" with
  | none | some .null | some (.list _) => .ok ()
  | some _ => .error (.childrenNotList path)

/-- Reads the text of an element. -/
def readText (path : String) (fields : List (String × Json)) : Except Fault (Option String) :=
  match fields.lookup "text" with
  | none => .ok none
  | some (.text t) => .ok (some t)
  | some _ => .error (.textNotText path)

mutual

/-- Reads the element at a path. -/
def ofJson (path : String) : Json → Except Fault Element
  | .object fields => do
    let tag ← readTag path fields
    let here := s!"{path}/{tag}"
    let attributes ← readAttributes here fields
    checkChildren here fields
    let text ← readText here fields
    let children ← ofChildren here fields
    return { tag, attributes, children, text }
  | _ => .error (.notElement path)

/-- Reads the children among the fields of the element at a path. -/
def ofChildren (path : String) : List (String × Json) → Except Fault (List Element)
  | [] => .ok []
  | (k, v) :: rest =>
    if k = "children" then
      match v with
      | .list items => ofItems path items
      | _ => .ok []
    else ofChildren path rest

/-- Reads elements one after the other. -/
def ofItems (path : String) : List Json → Except Fault (List Element)
  | [] => .ok []
  | j :: js => do
    let e ← ofJson path j
    let es ← ofItems path js
    return e :: es

end

/-- Reads the document that a text holds. -/
def parse (text : String) : Except Fault Element :=
  match Json.parse text with
  | some j => ofJson "document" j
  | none => .error (.notJson "no value can be read")

end SceneLogic.Element
