/-
Drafts of actions, and the checks that make actions of them.

A draft comes from outside, so each of its fields may be missing or hold a value of any simple
form (`Draft.Field`).  `Action.ofDraft` looks at the kind first, then at the target, then at the
duration or the change, and last at the position.
-/
import SceneLogic.Action.Basic
namespace SceneLogic

/-- A field as it came from outside. -/
inductive Draft.Field where
  | missing
  | null
  | flag (b : Bool)
  | number (x : Number)
  | text (s : String)
deriving DecidableEq

namespace Draft.Field

/-- The value as messages show it. -/
def shown : Field → String
  | missing => "undefined"
  | null => "null"
  | flag b => if b then "true" else "false"
  | number x => x.text
  | text s => s

end Draft.Field

/-- An action as it came from outside; the fields that a kind does not have are not looked at. -/
structure Draft where
  kind : Draft.Field
  target : Draft.Field := .missing
  position : List Number := []
  relative : Bool := false
  visible : Bool := false
  enable : Bool := false
  duration : Draft.Field := .missing
  change : Draft.Field := .missing

namespace Action

/-! ### Checks of single fields -/

/-- A target for an action of a kind. -/
def requireTarget (kind : Kind) : Draft.Field → Except Fault Target
  | .text name =>
    match Target.ofText? name with
    | some target => .ok target
    | none => .error (.noTarget kind.text)
  | _ => .error (.noTarget kind.text)

/-- A duration for an action of a kind. -/
def requireDuration (kind : Kind) (field : Draft.Field) : Except Fault Span :=
  match field with
  | .number x =>
    match Span.ofNumber? x with
    | some span => .ok span
    | none => .error (.badDuration kind.text field.shown)
  | _ => .error (.badDuration kind.text field.shown)

/-- A change for an action of a kind, out of those that the kind has. -/
def requireChange {α : Type} (kind : Kind) (options : List α) (word : α → String)
    (field : Draft.Field) : Except Fault α :=
  match options.find? (fun o => field == .text (word o)) with
  | some option => .ok option
  | none => .error (.badChange kind.text (options.map word) field.shown)

/-! ### Drafts -/

/-- The action that a draft describes. -/
def ofDraft (d : Draft) : Except Fault Action :=
  match d.kind with
  | .text word =>
    match Kind.ofText? word with
    | some .move => do
      let target ← requireTarget .move d.target
      let duration ← requireDuration .move d.duration
      let position ← Position.ofNumbers "move position" d.position
      return move target position d.relative duration
    | some .visibility => do
      let target ← requireTarget .visibility d.target
      let duration ← requireDuration .visibility d.duration
      return visibility target d.visible duration
    | some .group => do
      let target ← requireTarget .group d.target
      let duration ← requireDuration .group d.duration
      return group target d.visible duration
    | some .link => do
      let target ← requireTarget .link d.target
      let change ← requireChange .link LinkChange.all LinkChange.text d.change
      return link target change
    | some .sound => do
      let target ← requireTarget .sound d.target
      let change ← requireChange .sound SoundChange.all SoundChange.text d.change
      return sound target change
    | some .timeline => do
      let target ← requireTarget .timeline d.target
      let change ← requireChange .timeline TimelineChange.all TimelineChange.text d.change
      return timeline target change
    | some .event => do
      let target ← requireTarget .event d.target
      return event target d.enable
    | some .reset => return reset
    | none => .error (.unknownAction word)
  | .missing => .error (.unknownAction "[object Object]")
  | other => .error (.unknownAction other.shown)

/-- The draft that describes an action. -/
def toDraft : Action → Draft
  | move target position relative duration =>
    { kind := .text "move", target := .text target.name, position := position.numbers, relative,
      duration := .number duration.number }
  | visibility target visible duration =>
    { kind := .text "visibility", target := .text target.name, visible,
      duration := .number duration.number }
  | group target visible duration =>
    { kind := .text "group", target := .text target.name, visible,
      duration := .number duration.number }
  | link target change =>
    { kind := .text "link", target := .text target.name, change := .text change.text }
  | sound target change =>
    { kind := .text "sound", target := .text target.name, change := .text change.text }
  | timeline target change =>
    { kind := .text "timeline", target := .text target.name, change := .text change.text }
  | event target enable => { kind := .text "event", target := .text target.name, enable }
  | reset => { kind := .text "reset" }

end Action

end SceneLogic
