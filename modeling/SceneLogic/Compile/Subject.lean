/-
What is compiled: a record together with the object that it is compiled against.

Every subject has a carrier, the object of the host that carries its logic.  A link is always
compiled against the object that receives its clicks (`Subject.make`), and its carrier is named
after that object; the carrier of a timeline or a trigger is named after the record unless
another carrier is asked for.
-/
import SceneLogic.Config
import SceneLogic.Graph.Basic
import SceneLogic.Region.Basic
import SceneLogic.Scene.Names
import SceneLogic.Timeline.Basic
namespace SceneLogic

/-- What an author makes: a timeline, a region trigger or a click link. -/
inductive Record where
  | timeline (t : Timeline)
  | region (t : RegionTrigger)
  | link (l : ClickLink)
deriving DecidableEq

/-- A record with the object that it is compiled against. -/
inductive Subject where
  | timeline (t : Timeline) (carrier : Option String)
  | region (t : RegionTrigger) (carrier : Option String)
  | link (l : ClickLink) (object : Target)
deriving DecidableEq

namespace Subject

/-- Joins a record with the object it is compiled against; a link needs one that has a name. -/
def make (record : Record) (object : Option String) : Except Fault Subject :=
  match record with
  | .timeline t => .ok (timeline t object)
  | .region t => .ok (region t object)
  | .link l =>
    match object.bind Target.ofText? with
    | some target => .ok (link l target)
    | none => .error .linkWithoutObject

/-- The record of a subject. -/
def record : Subject → Record
  | timeline t _ => .timeline t
  | region t _ => .region t
  | link l _ => .link l

/-- The name of the object that carries the logic. -/
def carrier : Subject → String
  | timeline t carrier => carrier.getD (timelineCarrier t.name.text)
  | region t carrier => carrier.getD (triggerCarrier t.name.text)
  | link _ object => linkCarrier object.name

/-- The name by which actions address the subject. -/
def source : Subject → String
  | timeline t _ => t.name.text
  | region t _ => t.name.text
  | link _ object => object.name

/-- The kind of graph that the subject compiles to. -/
def kind : Subject → Graph.Kind
  | timeline .. => .timeline
  | region .. => .region
  | link .. => .link

/-- The subject, closed to changes once it has been taken up for compiling. -/
def close : Subject → Subject
  | timeline t carrier => timeline t.markCompiled carrier
  | other => other

end Subject

/-- The name of a script: the module prefix, a dot and the carrier. -/
def scriptName (config : Config) (carrier : String) : String :=
  s!"{config.logicModulePrefix}.{carrier}"

end SceneLogic
