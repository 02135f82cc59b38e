/-
Names that are always in use.

The host scene keeps its objects, groups and claimed names in tables that inherit a dozen
members, so looking up one of these names always finds something (`isReserved`), whatever was
entered.  What is found has a description (`description?`) but no coordinates.
-/
namespace SceneLogic.Reserved

/-- The reserved names that stand for an operation of the host. -/
def operations : List String :=
  ["__defineGetter__", "__defineSetter__", "hasOwnProperty", "__lookupGetter__",
    "__lookupSetter__", "isPrototypeOf", "propertyIsEnumerable", "toString", "valueOf",
    "toLocaleString"]

/-- The description of an operation of the host. -/
def operationText (name : String) : String := s!"function {name}() \x7b [native code] \x7d"

/-- What stands under a reserved name, as the host describes it. -/
def description? (name : String) : Option String :=
  if name ∈ operations then some (operationText name)
  else if name = "constructor" then some (operationText "Object")
  else if name = "__proto__" then some "[object Object]"
  else none

/-- A name that is always in use. -/
def isReserved (name : String) : Bool := (description? name).isSome

/-- The one reserved name under which nothing can be entered. -/
def unassignable : String := "__proto__"

end SceneLogic.Reserved
