/-
Timelines in documents.

A `Timeline` element has a `TimedActions` child for each entry.  A reader takes any number of
actions out of each such child and inserts them all in document order; a timeline starts at once
unless it says otherwise.
-/
import SceneLogic.Action.Document
import SceneLogic.Timeline.Basic
namespace SceneLogic.Timeline

/-- The stored form of a timeline. -/
def toElement (t : Timeline) : Element :=
  .node "Timeline" [("name", t.name.text), ("start-immediately", flagText t.startImmediately)]
    (t.entries.map fun e =>
      .node "TimedActions" [("seconds-time", e.time.text)] [e.action.toElement])

/-- Reads the actions of one `TimedActions` element with their common start time. -/
def readTimed (e : Element) : Except Fault (List (Number × Action)) := do
  let time ← e.requireNumber "seconds-time"
  let actions ← Action.ofElements e.children
  return actions.map fun action => (.scalar time, action)

/-- Reads a stored timeline. -/
def ofElement (e : Element) : Except Fault Timeline := do
  let name ← e.requireAttribute "name"
  let entries ← (e.childrenOf "TimedActions").mapM readTimed
  let startImmediately ← e.flagOr "start-immediately" true
  create name startImmediately entries.flatten

end SceneLogic.Timeline
