/-
Actions in documents.

Moves, changes of visibility and changes of links share the element `ObjectChange` and are told
apart by its children, a `Move` coming before a `Visible` and that before a `Link`.  Every other
kind has an element of its own.  A duration that is not stored is zero, and a move for which
nothing is said is not relative.  What is read passes the checks for drafts.
-/
import SceneLogic.Action.Draft
import SceneLogic.Document.Basic
namespace SceneLogic.Action

/-- The stored form of an action. -/
def toElement : Action → Element
  | move target position relative duration =>
    .node "ObjectChange" [("name", target.name), ("duration", duration.text)]
      [.node "Move" [("position", tupleText position.numbers), ("relative", flagText relative)]]
  | visibility target visible duration =>
    .node "ObjectChange" [("name", target.name), ("duration", duration.text)]
      [.node "Visible" [("value", flagText visible)]]
  | link target change =>
    .node "ObjectChange" [("name", target.name)] [.node "Link" [("change", change.text)]]
  | sound target change =>
    .node "SoundChange" [("name", target.name), ("change", change.text)]
  | group target visible duration =>
    .node "GroupChange"
      [("name", target.name), ("visible", flagText visible), ("duration", duration.text)]
  | timeline target change =>
    .node "TimelineChange" [("name", target.name), ("change", change.text)]
  | event target enable =>
    .node "EventChange" [("name", target.name), ("enable", flagText enable)]
  | reset => .node "Reset" []

/-- The duration that an element stores. -/
def readDuration (e : Element) : Except Fault Scalar :=
  match e.attribute? "duration" with
  | none => .ok 0
  | some _ => e.requireNumber "duration"

/-- The change that an element stores, out of some options. -/
def readChange {α : Type} (e : Element) (options : List α) (word : α → String) :
    Except Fault α := do
  let text ← e.requireAttribute "change"
  match options.find? (fun o => word o == text) with
  | some option => .ok option
  | none => .error (.badChangeAttribute e.tag (options.map word) text)

/-- Reads an `ObjectChange`: a move if it has one, else a change of visibility, else a change of
the link on the object. -/
def readObjectChange (e : Element) : Except Fault Action := do
  let target ← e.requireAttribute "name"
  match e.child? "Move" with
  | some moved =>
    let position ← readTuple "Move position" 3 (← moved.requireAttribute "position")
    let relative ← moved.flagOr "relative" false
    let duration ← readDuration e
    ofDraft { kind := .text "move", target := .text target, position, relative,
              duration := .number (.scalar duration) }
  | none =>
    match e.child? "Visible" with
    | some shown =>
      let visible ← readFlag (← shown.requireAttribute "value")
      let duration ← readDuration e
      ofDraft { kind := .text "visibility", target := .text target, visible,
                duration := .number (.scalar duration) }
    | none =>
      match e.child? "Link" with
      | some changed =>
        let change ← readChange changed LinkChange.all LinkChange.text
        ofDraft { kind := .text "link", target := .text target, change := .text change.text }
      | none => .error (.noEffect target)

/-- Reads a stored action. -/
def ofElement (e : Element) : Except Fault Action :=
  if e.tag = "ObjectChange" then readObjectChange e
  else if e.tag = "SoundChange" then do
    let target ← e.requireAttribute "name"
    let change ← readChange e SoundChange.all SoundChange.text
    ofDraft { kind := .text "sound", target := .text target, change := .text change.text }
  else if e.tag = "GroupChange" then do
    let target ← e.requireAttribute "name"
    let visible ← readFlag (← e.requireAttribute "visible")
    let duration ← readDuration e
    ofDraft { kind := .text "group", target := .text target, visible,
              duration := .number (.scalar duration) }
  else if e.tag = "TimelineChange" then do
    let target ← e.requireAttribute "name"
    let change ← readChange e TimelineChange.all TimelineChange.text
    ofDraft { kind := .text "timeline", target := .text target, change := .text change.text }
  else if e.tag = "EventChange" then do
    let target ← e.requireAttribute "name"
    let enable ← readFlag (← e.requireAttribute "enable")
    ofDraft { kind := .text "event", target := .text target, enable }
  else if e.tag = "Reset" then ofDraft { kind := .text "reset" }
  else .error (.unknownActionElement e.tag)

/-- Reads the stored actions of some elements. -/
def ofElements (es : List Element) : Except Fault (List Action) := es.mapM ofElement

end SceneLogic.Action
