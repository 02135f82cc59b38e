/-
JSON values.

The fields of an object are kept in the order in which they are written out; a reader enters
them as a `Table` does, so that a repeated name keeps its first place and its last value.
-/
import SceneLogic.Table
import SceneLogic.Number.Basic
namespace SceneLogic

/-- A JSON value. -/
inductive Json where
  | null
  | bool (b : Bool)
  | number (x : Number)
  | text (s : String)
  | list (items : List Json)
  | object (fields : List (String × Json))
deriving Inhabited

namespace Json

/-- The value of a field of an object; other values have no fields. -/
def field? (name : String) : Json → Option Json
  | object fields => fields.lookup name
  | _ => none

end Json

end SceneLogic
