/-
The registry of names.

The host has one namespace for objects, groups, materials, sounds and the carriers of logic.
A name is claimed for a kind when it is allocated and stays claimed until it is released; a
name that something already holds cannot be claimed again.  Reserved names are always held.
A kind is only named where a claim fails, so any word will do.
-/
import SceneLogic.Fault
import SceneLogic.Scene.Reserved
import SceneLogic.Table
import SceneLogic.Text.Blank
namespace SceneLogic

/-- What a name is claimed for, as a word. -/
structure NameKind where
  text : String
deriving DecidableEq

namespace NameKind

/-- The carrier of the logic of a record. -/
def logic : NameKind := ⟨"logic"⟩

end NameKind

/-- The claimed names with what each is claimed for. -/
structure Names where
  claims : Table NameKind
deriving DecidableEq

namespace Names

/-- The registry without claims. -/
def empty : Names := ⟨∅⟩

instance : Inhabited Names := ⟨empty⟩

/-- What holds a name, in words. -/
def holder? (names : Names) (name : String) : Option String :=
  match names.claims.get? name with
  | some kind => some kind.text
  | none => Reserved.description? name

/-- The name is held. -/
def isTaken (names : Names) (name : String) : Bool := (names.holder? name).isSome

/-- Claims a name that is neither blank nor held. -/
def claim (names : Names) (name : String) (kind : NameKind) : Except Fault Names :=
  if Text.Blank name then .error .blankClaim
  else match names.holder? name with
    | some holder => .error (.nameTaken name holder)
    | none => .ok ⟨names.claims.insert name kind⟩

/-- The registry without the claim to a name. -/
def release (names : Names) (name : String) : Names := ⟨names.claims.erase name⟩

end Names

/-! ### Carriers of logic -/

/-- The name of the object that carries the logic of a timeline. -/
def timelineCarrier (timeline : String) : String := s!"timeline_{timeline}"

/-- The name of the object that carries the logic of a trigger. -/
def triggerCarrier (trigger : String) : String := s!"trigger_{trigger}"

/-- The name of the object that carries the logic of the link on an object. -/
def linkCarrier (object : String) : String := s!"link_{object}"

end SceneLogic
