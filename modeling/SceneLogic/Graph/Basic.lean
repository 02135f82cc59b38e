/-
Activator graphs: what timelines, triggers and links compile to.

A graph has the fields of its state holder, nodes of eight kinds and edges between them.  It is
built step by step: `addState`, `addNode` and `link` either extend the graph or fail.  A node is
added under a local name and known by its full one, the carrier name, a dot and the local name.
-/
import SceneLogic.Clicks
import SceneLogic.Containment
namespace SceneLogic

/-! ### State -/

/-- Whether a holder is active. -/
inductive Status where
  | start
  | stop
deriving DecidableEq

namespace Status

/-- The word for a status. -/
def text : Status → String
  | start => "Start"
  | stop => "Stop"

/-- The status a word stands for. -/
def ofText? (word : String) : Option Status := [start, stop].find? (·.text == word)

end Status

/-- A field of a state holder with its initial value. -/
inductive StateField where
  | enabled (initial : Bool)
  | status (initial : Status)
  | clicks (initial : Number)
deriving DecidableEq

/-- The name of a field. -/
def StateField.name : StateField → String
  | enabled _ => "enabled"
  | status _ => "status"
  | clicks _ => "clicks"

/-- The state of a graph that others can see. -/
structure Holder where
  status : Status := .stop
  enabled : Option Bool := none
  clicks : Option Number := none
deriving DecidableEq

/-- The holder with the initial value of a field. -/
def Holder.set (h : Holder) : StateField → Holder
  | .enabled b => { h with enabled := some b }
  | .status s => { h with status := s }
  | .clicks n => { h with clicks := some n }

/-! ### Nodes -/

/-- What a node does. -/
inductive Role where
  /-- Fires on every tick while the holder is enabled. -/
  | pulse
  /-- Advances on every tick while the status is `Start`. -/
  | clock (ticksPerSecond lastTime : Number)
  /-- Fires when the clock crosses a time. -/
  | schedule (time : Number)
  /-- Fires while objects are found where they are looked for. -/
  | detect (test : Containment)
  /-- Fires when an object is clicked. -/
  | click (object : String) (reset : Number) (bindings : List ClickBinding)
  /-- Fires after some detecting ticks and then stays active for some. -/
  | activate (sustainTicks activeTicks : Number)
  /-- Dispatches an action. -/
  | dispatch (action : Action) (clicks : Option ClickCount)
  /-- Disables the holder after a firing. -/
  | disable
deriving DecidableEq

namespace Role

/-- The kinds of node. -/
inductive Kind where
  | pulse
  | clock
  | schedule
  | detect
  | click
  | activate
  | dispatch
  | disable
deriving DecidableEq

namespace Kind

/-- Every kind. -/
def all : List Kind := [pulse, clock, schedule, detect, click, activate, dispatch, disable]

/-- The word for a kind. -/
def text : Kind → String
  | pulse => "pulse"
  | clock => "clock"
  | schedule => "schedule"
  | detect => "detect"
  | click => "click"
  | activate => "activate"
  | dispatch => "dispatch"
  | disable => "disable"

/-- The kind a word stands for. -/
def ofText? (word : String) : Option Kind := all.find? (·.text == word)

end Kind

/-- The kind of a node. -/
def kind : Role → Kind
  | pulse => .pulse
  | clock .. => .clock
  | schedule .. => .schedule
  | detect .. => .detect
  | click .. => .click
  | activate .. => .activate
  | dispatch .. => .dispatch
  | disable => .disable

end Role

/-- A node of a graph. -/
structure Node where
  id : String
  role : Role
deriving DecidableEq

/-- An edge of a graph. -/
structure Edge where
  source : String
  target : String
deriving DecidableEq

/-! ### Graphs -/

/-- What a graph is compiled from. -/
inductive Graph.Kind where
  | timeline
  | region
  | link
deriving DecidableEq

namespace Graph.Kind

/-- The word for a kind. -/
def text : Kind → String
  | timeline => "timeline"
  | region => "region"
  | link => "link"

/-- The kind a word stands for. -/
def ofText? (word : String) : Option Kind := [timeline, region, link].find? (·.text == word)

end Graph.Kind

/-- The full name of a node of a carrier. -/
def nodeId (carrier id : String) : String := s!"{carrier}.{id}"

/-- An activator graph. -/
structure Graph where
  /-- The name of the object that carries the logic. -/
  carrier : String
  kind : Graph.Kind
  /-- The timeline or trigger, or the object with the link. -/
  source : String
  /-- The name of the script. -/
  script : String
  state : List StateField := []
  nodes : List Node := []
  edges : List Edge := []
deriving DecidableEq

namespace Graph

/-! ### Building -/

/-- The full name of a node. -/
def fullId (g : Graph) (id : String) : String := nodeId g.carrier id

/-- There is a node of a full name. -/
def hasNode (g : Graph) (id : String) : Bool := g.nodes.any (·.id == id)

/-- Adds a field that the holder does not have yet. -/
def addState (g : Graph) (field : StateField) : Except Fault Graph :=
  if g.state.any (·.name == field.name) then .error (.stateFieldExists field.name g.carrier)
  else .ok { g with state := g.state ++ [field] }

/-- Adds a node under a local name that is not in use. -/
def addNode (g : Graph) (id : String) (role : Role) : Except Fault Graph :=
  if g.hasNode (g.fullId id) then .error (.nodeExists (g.fullId id))
  else .ok { g with nodes := g.nodes ++ [⟨g.fullId id, role⟩] }

/-- Adds an edge between two nodes of the graph. -/
def link (g : Graph) (source target : String) : Except Fault Graph :=
  match [source, target].find? (fun id => ¬ g.hasNode id) with
  | some missing => .error (.linkEndMissing source target missing)
  | none => .ok { g with edges := g.edges ++ [⟨source, target⟩] }

/-! ### Looking up -/

/-- The nodes of a kind, in order. -/
def nodesOf (g : Graph) (kind : Role.Kind) : List Node := g.nodes.filter (·.role.kind == kind)

/-- The first node of a kind. -/
def firstOf? (g : Graph) (kind : Role.Kind) : Option Node := (g.nodesOf kind).head?

/-- The node of a full name. -/
def node? (g : Graph) (id : String) : Option Node := g.nodes.find? (·.id == id)

/-- The ends of the edges that leave a node, in the order in which they were added. -/
def successors (g : Graph) (id : String) : List String :=
  (g.edges.filter (·.source == id)).map (·.target)

/-- The action that the node of a full name dispatches. -/
def action? (g : Graph) (id : String) : Option Action :=
  match g.node? id with
  | some ⟨_, .dispatch action _⟩ => some action
  | _ => none

/-- The dispatch nodes behind a node, in order. -/
def dispatchTargets (g : Graph) (id : String) : List String :=
  (g.successors id).filter fun target => (g.action? target).isSome

/-- The holder stays enabled when the graph fires. -/
def remainsEnabled (g : Graph) : Bool := (g.nodesOf .disable).isEmpty

/-- The state that a graph starts with. -/
def initialHolder (g : Graph) : Holder := g.state.foldl Holder.set {}

end Graph

end SceneLogic
