/-
Containment: whether tracked objects are in a box.

A box is given by two opposite corners in any order.  A predicate holds its least and greatest
coordinates, whether to look for objects inside or outside of it, whether one object or all of
them must be found there, and the names of the objects without repetition.  An object without a
position is never found, and without objects nothing is detected.
-/
import SceneLogic.Geometry
namespace SceneLogic

/-- Which side of a box counts. -/
inductive Side where
  | inside
  | outside
deriving DecidableEq

namespace Side

/-- The word for a side. -/
def text : Side → String
  | inside => "Inside"
  | outside => "Outside"

/-- The side a word stands for. -/
def ofText? (word : String) : Option Side := [inside, outside].find? (·.text == word)

end Side

/-- How many of the objects must be found. -/
inductive Aggregate where
  | any
  | all
deriving DecidableEq

namespace Aggregate

/-- The word for an aggregate. -/
def text : Aggregate → String
  | any => "any"
  | all => "all"

/-- The aggregate a word stands for. -/
def ofText? (word : String) : Option Aggregate := [any, all].find? (·.text == word)

end Aggregate

/-- A test of where some objects are. -/
structure Containment where
  /-- The least coordinates of the box. -/
  lo : Triple Number
  /-- The greatest coordinates of the box. -/
  hi : Triple Number
  side : Side
  aggregate : Aggregate
  objects : List String
deriving DecidableEq

namespace Containment

/-- The test for a box between two corners. -/
def between (corner1 corner2 : Triple Number) (side : Side) (objects : List String)
    (detectAny : Bool) : Containment where
  lo := ⟨.min corner1.x corner2.x, .min corner1.y corner2.y, .min corner1.z corner2.z⟩
  hi := ⟨.max corner1.x corner2.x, .max corner1.y corner2.y, .max corner1.z corner2.z⟩
  side
  aggregate := if detectAny then .any else .all
  objects := objects.eraseDups

/-- A position lies beyond the box on at least one axis. -/
def isOutside (c : Containment) (p : Triple Number) : Bool :=
  (p.x.lt c.lo.x || c.hi.x.lt p.x) || (p.y.lt c.lo.y || c.hi.y.lt p.y) ||
    (p.z.lt c.lo.z || c.hi.z.lt p.z)

/-- A position lies on the side that counts. -/
def isContained (c : Containment) (p : Triple Number) : Bool :=
  match c.side with
  | .inside => !c.isOutside p
  | .outside => c.isOutside p

/-- An object has a position, and it lies on the side that counts. -/
def finds (c : Containment) (position? : String → Option (Triple Number)) (name : String) : Bool :=
  (position? name).any c.isContained

/-- An object settles a test for any object by being found, and one for all by not being found. -/
def settles (c : Containment) (position? : String → Option (Triple Number))
    (name : String) : Bool :=
  match c.aggregate with
  | .any => c.finds position? name
  | .all => !c.finds position? name

/-- Whether some item satisfies a test, and the items that are tried: up to the first that does,
this one included. -/
def trySome {α : Type} (test : α → Bool) : List α → Bool × List α
  | [] => (false, [])
  | x :: xs => if test x then (true, [x]) else ((trySome test xs).1, x :: (trySome test xs).2)

/-- Whether enough of the objects are found, and those whose positions are asked for to tell: up to
the first that settles it. -/
def evaluate (c : Containment) (position? : String → Option (Triple Number)) : Bool × List String :=
  let (settled, tried) := trySome (c.settles position?) c.objects
  match c.aggregate with
  | .any => (settled, tried)
  | .all => (!c.objects.isEmpty && !settled, tried)

/-- Enough of the objects are found. -/
def detects (c : Containment) (position? : String → Option (Triple Number)) : Bool :=
  (c.evaluate position?).1

/-- The objects whose positions are asked for. -/
def asked (c : Containment) (position? : String → Option (Triple Number)) : List String :=
  (c.evaluate position?).2

end Containment

end SceneLogic
