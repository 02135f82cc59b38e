/-
Region triggers: activations by objects that enter or leave a box.

A trigger tracks a list of objects or a group.  It fires when the containment test has held for
its duration, and then dispatches its actions.  `RegionTrigger.ofDraft` looks at the name first,
then at the direction, the duration, the corners and the tracked objects.
-/
import SceneLogic.Action.Basic
import SceneLogic.Containment
import SceneLogic.Text.Identifier
namespace SceneLogic

/-- What a trigger tracks. -/
inductive Tracked where
  | objects (names : List Target)
  | group (name : Target)
deriving DecidableEq

/-- An activation by objects in or outside of a box. -/
structure RegionTrigger where
  name : Text.Identifier
  corner1 : Position
  corner2 : Position
  direction : Side
  tracked : Tracked
  actions : List Action
  enabled : Bool
  /-- Otherwise the trigger disables itself when it fires. -/
  remainEnabled : Bool
  /-- How long the test must hold before the trigger fires. -/
  duration : Span
  /-- One tracked object is enough; otherwise all are needed. -/
  detectAny : Bool
deriving DecidableEq

/-! ### Drafts -/

/-- What a trigger is to track, as it came from outside. -/
inductive Tracked.Draft where
  | objects (names : List String)
  | group (name : String)

/-- A trigger as it came from outside. -/
structure RegionDraft where
  name : String
  corner1 : List Number
  corner2 : List Number
  direction : String := "Inside"
  tracked : Tracked.Draft
  actions : List Action := []
  enabled : Bool := true
  remainEnabled : Bool := true
  duration : Number := 0
  detectAny : Bool := true

/-- Refuses names that are blank. -/
def Tracked.ofDraft (label : String) : Tracked.Draft → Except Fault Tracked
  | .group name =>
    match Target.ofText? name with
    | some target => .ok (.group target)
    | none => .error (.blankGroup label)
  | .objects names =>
    match names.mapM Target.ofText? with
    | some targets => .ok (.objects targets)
    | none => .error (.blankTracked label)

namespace RegionTrigger

/-- What messages call a trigger. -/
def label (name : String) : String := s!"Trigger '{name}'"

/-- Refuses a duration that is not a span. -/
def requireDuration (label : String) (duration : Number) : Except Fault Span :=
  match Span.ofNumber? duration with
  | some span => .ok span
  | none => .error (.badTriggerDuration label duration)

/-- The trigger that a draft describes. -/
def ofDraft (d : RegionDraft) : Except Fault RegionTrigger :=
  match Text.Identifier.ofText? d.name with
  | none => .error (.badTriggerName d.name)
  | some name =>
    match Side.ofText? d.direction with
    | none => .error (.badDirection (label d.name))
    | some direction => do
      let duration ← requireDuration (label d.name) d.duration
      let corner1 ← Position.ofNumbers s!"{label d.name} corner1" d.corner1
      let corner2 ← Position.ofNumbers s!"{label d.name} corner2" d.corner2
      let tracked ← Tracked.ofDraft (label d.name) d.tracked
      return { name, corner1, corner2, direction, tracked, actions := d.actions,
               enabled := d.enabled, remainEnabled := d.remainEnabled, duration,
               detectAny := d.detectAny }

end RegionTrigger

end SceneLogic
