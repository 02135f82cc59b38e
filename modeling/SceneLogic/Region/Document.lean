/-
Region triggers in documents.

An `EventTrigger` element holds an `ObjectTrigger` with the box and what is tracked, and the
`Actions`.  A `Group` comes before `Objects` if both are there.  The direction is `Inside`, the
duration zero and every flag true unless something else is stored.
-/
import SceneLogic.Action.Document
import SceneLogic.Region.Basic
namespace SceneLogic.RegionTrigger

/-- The stored form of what is tracked. -/
def trackedElement : Tracked → Element
  | .group name => .node "Group" [("name", name.name)]
  | .objects names => .node "Objects" [] (names.map fun n => .node "Object" [("name", n.name)])

/-- The stored form of a trigger. -/
def toElement (t : RegionTrigger) : Element :=
  .node "EventTrigger"
    [("name", t.name.text), ("enabled", flagText t.enabled),
      ("remain-enabled", flagText t.remainEnabled), ("duration", t.duration.text)]
    [.node "ObjectTrigger" [("detect-any", flagText t.detectAny)]
      [trackedElement t.tracked,
        .node "Box" [("corner1", tupleText t.corner1.numbers),
          ("corner2", tupleText t.corner2.numbers), ("direction", t.direction.text)]],
      .node "Actions" [] (t.actions.map Action.toElement)]

/-- The direction that a box stores, as text. -/
def readDirection (box : Element) : Except Fault String :=
  let text := (box.attribute? "direction").getD "Inside"
  if (Side.ofText? text).isSome then .ok text else .error (.badDirectionAttribute text)

/-- Reads what is tracked by the trigger of a name. -/
def readTracked (name : String) (e : Element) : Except Fault Tracked.Draft :=
  match e.child? "Group" with
  | some group => return .group (← group.requireAttribute "name")
  | none =>
    match e.child? "Objects" with
    | some listed =>
      return .objects (← (listed.childrenOf "Object").mapM (·.requireAttribute "name"))
    | none => .error (.noTracked name)

/-- Reads a stored trigger. -/
def ofElement (e : Element) : Except Fault RegionTrigger := do
  let name ← e.requireAttribute "name"
  let test ← e.requireChild "ObjectTrigger"
  let box ← test.requireChild "Box"
  let direction ← readDirection box
  let tracked ← readTracked name test
  let enabled ← e.flagOr "enabled" true
  let remainEnabled ← e.flagOr "remain-enabled" true
  let duration ← Action.readDuration e
  let detectAny ← test.flagOr "detect-any" true
  let corner1 ← readTuple "Box corner1" 3 (← box.requireAttribute "corner1")
  let corner2 ← readTuple "Box corner2" 3 (← box.requireAttribute "corner2")
  let actions ← Action.ofElements ((e.child? "Actions").map (·.children) |>.getD [])
  ofDraft { name, corner1, corner2, direction, tracked, actions, enabled, remainEnabled,
            duration := .scalar duration, detectAny }

end SceneLogic.RegionTrigger
