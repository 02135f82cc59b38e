/-
Actions: the effects that timelines, triggers and links dispatch.

An action is a value of one of eight kinds.  Whatever it is addressed to has a name that is not
blank (`Target`), its position is finite and its duration a span, so that every value of the
type is an action that may be dispatched.
-/
import SceneLogic.Geometry
import SceneLogic.Number.Span
namespace SceneLogic

/-- A name that is not blank. -/
structure Target where
  name : String
  named : ¬ Text.Blank name
deriving DecidableEq

/-- The target a text names, if it is not blank. -/
def Target.ofText? (name : String) : Option Target :=
  if h : Text.Blank name then none else some ⟨name, h⟩

/-! ### Changes -/

/-- What can be done to a link. -/
inductive LinkChange where
  | enable
  | disable
  | activate
deriving DecidableEq

/-- What can be done to a sound. -/
inductive SoundChange where
  | start
  | stop
deriving DecidableEq

/-- What can be done to a timeline. -/
inductive TimelineChange where
  | start
  | stop
  | resume
  | startIfNotStarted
deriving DecidableEq

namespace LinkChange

/-- Every change, in the order in which they are listed. -/
def all : List LinkChange := [enable, disable, activate]

/-- The word for a change. -/
def text : LinkChange → String
  | enable => "enable"
  | disable => "disable"
  | activate => "activate"

end LinkChange

namespace SoundChange

/-- Every change, in the order in which they are listed. -/
def all : List SoundChange := [start, stop]

/-- The word for a change. -/
def text : SoundChange → String
  | start => "start"
  | stop => "stop"

end SoundChange

namespace TimelineChange

/-- Every change, in the order in which they are listed. -/
def all : List TimelineChange := [start, stop, resume, startIfNotStarted]

/-- The word for a change. -/
def text : TimelineChange → String
  | start => "start"
  | stop => "stop"
  | resume => "continue"
  | startIfNotStarted => "start-if-not-started"

end TimelineChange

/-! ### Actions -/

/-- An effect on the scene. -/
inductive Action where
  /-- Places an object, or shifts it by an offset if the move is relative. -/
  | move (target : Target) (position : Position) (relative : Bool) (duration : Span)
  /-- Shows or hides an object. -/
  | visibility (target : Target) (visible : Bool) (duration : Span)
  /-- Changes the link on an object. -/
  | link (target : Target) (change : LinkChange)
  /-- Changes a sound. -/
  | sound (target : Target) (change : SoundChange)
  /-- Shows or hides a group. -/
  | group (target : Target) (visible : Bool) (duration : Span)
  /-- Changes a timeline. -/
  | timeline (target : Target) (change : TimelineChange)
  /-- Enables or disables a trigger. -/
  | event (target : Target) (enable : Bool)
  /-- Returns everything to its initial state. -/
  | reset
deriving DecidableEq

namespace Action

/-- The kinds of action. -/
inductive Kind where
  | move
  | visibility
  | link
  | sound
  | group
  | timeline
  | event
  | reset
deriving DecidableEq

namespace Kind

/-- Every kind. -/
def all : List Kind := [move, visibility, link, sound, group, timeline, event, reset]

/-- The word for a kind. -/
def text : Kind → String
  | move => "move"
  | visibility => "visibility"
  | link => "link"
  | sound => "sound"
  | group => "group"
  | timeline => "timeline"
  | event => "event"
  | reset => "reset"

/-- The kind a word stands for. -/
def ofText? (word : String) : Option Kind := all.find? (·.text == word)

end Kind

/-- How long an action keeps running after its dispatch. -/
def span : Action → Span
  | move _ _ _ duration | visibility _ _ duration | group _ _ duration => duration
  | _ => 0

/-- A description in one line. -/
def describe : Action → String
  | move target position relative _ =>
    s!"move {target.name} " ++ (if relative then "by" else "to") ++
      s!" ({tupleText position.numbers})"
  | visibility target visible _ => (if visible then "show" else "hide") ++ s!" {target.name}"
  | group target visible _ => (if visible then "show" else "hide") ++ s!" group {target.name}"
  | link target change => s!"{change.text} link {target.name}"
  | sound target change => s!"{change.text} sound {target.name}"
  | timeline target change => s!"{change.text} timeline {target.name}"
  | event target enable => (if enable then "enable" else "disable") ++ s!" trigger {target.name}"
  | reset => "reset scene"

end Action

end SceneLogic
