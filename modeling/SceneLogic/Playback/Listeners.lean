/-
Listeners: counting the events of a playback.

A listener counts every event from the moment it is added until it is stopped.  Only the listener
that was added last under a name can be stopped and asked for its count.
-/
namespace SceneLogic

/-- A count of events. -/
structure Listener where
  heard : Nat := 0
  active : Bool := true
deriving DecidableEq

/-- Listeners by name, in the order in which the names were first added. -/
abbrev Listeners := List (String × Listener)

namespace Listeners

/-- Adds a listener; it takes the place of an earlier one of its name. -/
def add (name : String) : Listeners → Listeners
  | [] => [(name, {})]
  | (k, l) :: ls => if k = name then (k, {}) :: ls else (k, l) :: add name ls

/-- Stops the listener of a name. -/
def stop (ls : Listeners) (name : String) : Listeners :=
  ls.map fun (k, l) => (k, if k = name then { l with active := false } else l)

/-- Some events happen. -/
def hear (ls : Listeners) (events : Nat) : Listeners :=
  ls.map fun (k, l) => (k, if l.active then { l with heard := l.heard + events } else l)

/-- The counts by name. -/
def counts (ls : Listeners) : List (String × Nat) := ls.map fun (k, l) => (k, l.heard)

end Listeners

end SceneLogic
