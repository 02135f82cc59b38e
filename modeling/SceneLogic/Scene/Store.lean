/-
The scene: where its objects are and which groups they form.

Adding, moving and removing objects and defining groups either changes the entry of the one name
given or fails and changes nothing.  A reserved name is found in every scene: nothing can be
added under it, but it can be moved, it may be a member of a group, and looked up it stands at a
place whose coordinates are not numbers.
-/
import SceneLogic.Geometry
import SceneLogic.Scene.Reserved
import SceneLogic.Table
namespace SceneLogic

/-- The objects with their positions and the groups with their members. -/
structure Scene where
  objects : Table Position
  groups : Table (List String)
deriving DecidableEq

namespace Scene

/-- The scene without objects and groups. -/
def empty : Scene := ⟨∅, ∅⟩

instance : Inhabited Scene := ⟨empty⟩

/-- An object of the name is found. -/
def hasObject (s : Scene) (name : String) : Bool :=
  s.objects.contains name || Reserved.isReserved name

/-- A group of the name is found. -/
def hasGroup (s : Scene) (name : String) : Bool :=
  s.groups.contains name || Reserved.isReserved name

/-! ### Changing the scene -/

/-- Refuses a name that an object or a group has. -/
def requireUnused (s : Scene) (name : String) : Except Fault Unit :=
  if s.hasObject name then .error (.nameTaken name "object")
  else if s.hasGroup name then .error (.nameTaken name "group")
  else .ok ()

/-- What messages call the position of an object. -/
def positionLabel (name : String) : String := s!"position of {name}"

/-- Adds an object under an unused name. -/
def addObject (s : Scene) (name : String) (position : List Number) : Except Fault Scene := do
  s.requireUnused name
  let p ← Position.ofNumbers (positionLabel name) position
  return { s with objects := s.objects.insert name p }

/-- Moves an object that is found. -/
def moveObject (s : Scene) (name : String) (position : List Number) : Except Fault Scene := do
  if ¬ s.hasObject name then .error (.unresolved name "moveObject")
  let p ← Position.ofNumbers (positionLabel name) position
  return { s with objects := s.objects.insert name p }

/-- Removes an object, if there is one of the name; groups keep their members. -/
def removeObject (s : Scene) (name : String) : Scene :=
  { s with objects := s.objects.erase name }

/-- Defines a group of objects that are found, under an unused name.  A repeated member counts
once, where it is first mentioned. -/
def defineGroup (s : Scene) (name : String) (members : List String) : Except Fault Scene := do
  s.requireUnused name
  match members.find? (fun m => ¬ s.hasObject m) with
  | some missing => .error (.unresolved missing s!"group '{name}'")
  | none => return { s with groups := s.groups.insert name members.eraseDups }

/-! ### Looking up -/

/-- The coordinates of a place that has none. -/
def nowhere : Triple Number := ⟨.nan, .nan, .nan⟩

/-- Where an object is, if one of the name is found. -/
def position? (s : Scene) (name : String) : Option (Triple Number) :=
  match s.objects.get? name with
  | some p => some (p.map .scalar)
  | none => if Reserved.isReserved name then some nowhere else none

/-- The objects that a name stands for: an object for itself, a group for its members. -/
def resolve? (s : Scene) (name : String) : Option (List String) :=
  if s.hasObject name then some [name] else s.groups.get? name

end Scene

end SceneLogic
