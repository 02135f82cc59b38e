/-
Actions, timelines, triggers and links as JSON.

Reading makes drafts of the fields and lets them pass their checks; the actions of a record are
checked before the record itself.
-/
import SceneLogic.Compile.Subject
import SceneLogic.Json.Reading
import SceneLogic.Link.Document
import SceneLogic.Region.Document
import SceneLogic.Timeline.Document
namespace SceneLogic

/-! ### Actions -/

/-- The field of a draft that a value gives. -/
def Draft.Field.ofJson : Option Json → Draft.Field
  | some .null => .null
  | some (.bool b) => .flag b
  | some (.number x) => .number x
  | some (.text s) => .text s
  | _ => .missing

/-- Reads a draft of an action. -/
def Draft.ofJson? (j : Json) : Option Draft := do
  return { kind := .ofJson (j.field? "type"),
           target := .ofJson (j.field? "target"),
           position := ← j.getOr? "position" Json.numbers? [],
           relative := ← j.getOr? "relative" Json.bool? false,
           visible := ← j.getOr? "visible" Json.bool? false,
           enable := ← j.getOr? "enable" Json.bool? false,
           duration := .ofJson (j.field? "duration"),
           change := .ofJson (j.field? "change") }

namespace Action

/-- Reads an action. -/
def ofJson (j : Json) : Reading Action := do
  Reading.ofResult (ofDraft (← Reading.ofShape (Draft.ofJson? j)))

/-- The fields of an action. -/
def fields : Action → List (String × Json)
  | move target position relative duration =>
    [("type", .text "move"), ("target", .text target.name),
      ("position", .ofNumbers position.numbers), ("relative", .bool relative),
      ("duration", .number duration.number)]
  | visibility target visible duration =>
    [("type", .text "visibility"), ("target", .text target.name), ("visible", .bool visible),
      ("duration", .number duration.number)]
  | group target visible duration =>
    [("type", .text "group"), ("target", .text target.name), ("visible", .bool visible),
      ("duration", .number duration.number)]
  | link target change =>
    [("type", .text "link"), ("target", .text target.name), ("change", .text change.text)]
  | sound target change =>
    [("type", .text "sound"), ("target", .text target.name), ("change", .text change.text)]
  | timeline target change =>
    [("type", .text "timeline"), ("target", .text target.name), ("change", .text change.text)]
  | event target enable =>
    [("type", .text "event"), ("target", .text target.name), ("enable", .bool enable)]
  | reset => [("type", .text "reset")]

/-- The JSON form of an action. -/
def toJson (a : Action) : Json := .object a.fields

end Action

/-! ### Timelines -/

/-- Reads an action with its start time: a pair, or an object. -/
def Timed.ofJson : Json → Reading (Number × Action)
  | .list [time, action] => do
    return (← Reading.ofShape time.number?, ← Action.ofJson action)
  | j => do return (← Reading.ofShape (j.get? "time" Json.number?), ← j.read "action" Action.ofJson)

namespace Timeline

/-- Reads a timeline. -/
def ofJson (j : Json) : Reading Timeline := do
  let name ← Reading.ofShape (j.get? "name" Json.text?)
  let startImmediately ← Reading.ofShape (j.getOr? "startImmediately" Json.bool? true)
  let entries ← j.readOr "actions" (Json.readList Timed.ofJson) []
  Reading.ofResult (create name startImmediately entries)

/-- The JSON form of a timeline. -/
def toJson (t : Timeline) : Json :=
  .object [("name", .text t.name.text), ("startImmediately", .bool t.startImmediately),
    ("size", .ofNat t.size), ("compiled", .bool t.compiled), ("lastTime", .number t.lastTime.number),
    ("entries", .list (t.entries.map fun e => .list [.number e.time.number, e.action.toJson]))]

end Timeline

/-! ### Region triggers -/

/-- Reads what is tracked. -/
def Tracked.Draft.ofJson? (j : Json) : Option Tracked.Draft := do
  match ← j.get? "kind" Json.text? with
  | "objects" => return .objects (← j.get? "names" Json.texts?)
  | "group" => return .group (← j.get? "name" Json.text?)
  | _ => none

/-- The JSON form of what is tracked. -/
def Tracked.toJson : Tracked → Json
  | .objects names =>
    .object [("kind", .text "objects"), ("names", .ofTexts (names.map Target.name))]
  | .group name => .object [("kind", .text "group"), ("name", .text name.name)]

namespace RegionTrigger

/-- Reads a draft of a trigger with some actions. -/
def draftOfJson? (actions : List Action) (j : Json) : Option RegionDraft := do
  let box ← j.field? "box"
  return { name := ← j.get? "name" Json.text?,
           corner1 := ← box.get? "corner1" Json.numbers?,
           corner2 := ← box.get? "corner2" Json.numbers?,
           direction := ← box.getOr? "direction" Json.text? "Inside",
           tracked := ← j.get? "objects" Tracked.Draft.ofJson?,
           actions,
           enabled := ← j.getOr? "enabled" Json.bool? true,
           remainEnabled := ← j.getOr? "remainEnabled" Json.bool? true,
           duration := ← j.getOr? "duration" Json.number? 0,
           detectAny := ← j.getOr? "detectAny" Json.bool? true }

/-- Reads a trigger. -/
def ofJson (j : Json) : Reading RegionTrigger := do
  let actions ← j.readOr "actions" (Json.readList Action.ofJson) []
  Reading.ofResult (ofDraft (← Reading.ofShape (draftOfJson? actions j)))

/-- The JSON form of a trigger. -/
def toJson (t : RegionTrigger) : Json :=
  .object [("type", .text "region"), ("name", .text t.name.text),
    ("box", .object [("corner1", .ofNumbers t.corner1.numbers),
      ("corner2", .ofNumbers t.corner2.numbers), ("direction", .text t.direction.text)]),
    ("objects", t.tracked.toJson), ("actions", .list (t.actions.map Action.toJson)),
    ("enabled", .bool t.enabled), ("remainEnabled", .bool t.remainEnabled),
    ("duration", .number t.duration.number), ("detectAny", .bool t.detectAny)]

end RegionTrigger

/-! ### Click links -/

/-- Reads a count of clicks. -/
def ClickCount.ofJson? : Json → Option ClickCount
  | .text word => if word = anyWord then some any else none
  | j => j.number?.map exactly

/-- The JSON form of a count of clicks. -/
def ClickCount.toJson : ClickCount → Json
  | any => .text anyWord
  | exactly n => .number n

namespace ClickLink

/-- Reads a list of actions with what it is bound to. -/
def listOfJson (j : Json) : Reading (Draft.Field × List Action) := do
  let (count, actions) ← Reading.ofShape j.pair?
  return (.ofJson (some count), ← actions.readList Action.ofJson)

/-- Reads a draft of a link with some bound lists. -/
def draftOfJson? (lists : List (Draft.Field × List Action)) (j : Json) : Option LinkDraft := do
  return { enabled := ← j.getOr? "enabled" Json.bool? true,
           remainEnabled := ← j.getOr? "remainEnabled" Json.bool? true,
           enabledColor := ← j.maybe? "enabledColor" Json.numbers?,
           selectedColor := ← j.maybe? "selectedColor" Json.numbers?,
           lists,
           reset := ← j.getOr? "reset" Json.number? (-1) }

/-- Reads a link. -/
def ofJson (j : Json) : Reading ClickLink := do
  let lists ← j.readOr "actions" (Json.readList listOfJson) []
  Reading.ofResult (ofDraft (← Reading.ofShape (draftOfJson? lists j)))

/-- The JSON form of a link. -/
def toJson (l : ClickLink) : Json :=
  .object [("type", .text "link"), ("enabled", .bool l.enabled),
    ("remainEnabled", .bool l.remainEnabled),
    ("enabledColor", .ofNumbers l.enabledColor.numbers),
    ("selectedColor", .ofNumbers l.selectedColor.numbers), ("reset", .number l.resetNumber),
    ("actions", .list (l.lists.entries.map fun (count, actions) =>
      .list [count.toJson, .list (actions.map Action.toJson)]))]

end ClickLink

/-! ### Records -/

namespace Record

/-- Reads a record that is stored as a document of some kind. -/
def ofDocument (e : Element) : String → Reading Record
  | "timeline" => Reading.ofResult ((Timeline.ofElement e).map timeline)
  | "region" => Reading.ofResult ((RegionTrigger.ofElement e).map region)
  | "link" => Reading.ofResult ((ClickLink.ofElement e).map link)
  | _ => Reading.unknown

/-- Reads a record, which is stored as a document or spelled out. -/
def ofJson (j : Json) : Reading Record := do
  match j.field? "document" with
  | some document => do
    let e ← Reading.ofShape (Element.ofPlain? document)
    ofDocument e (← Reading.ofShape (j.get? "as" Json.text?))
  | none => do
    match ← Reading.ofShape (j.get? "type" Json.text?) with
    | "timeline" => return timeline (← Timeline.ofJson j)
    | "region" => return region (← RegionTrigger.ofJson j)
    | "link" => return link (← ClickLink.ofJson j)
    | _ => Reading.unknown

end Record

end SceneLogic
