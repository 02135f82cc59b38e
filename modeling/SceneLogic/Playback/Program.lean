/-
Programs: what is played of a graph.

A graph of a kind must have the nodes that this kind is played by; the program holds what these
nodes say and, for each of them, the dispatch nodes behind it.
-/
import SceneLogic.Graph.Basic
namespace SceneLogic

/-- A time of a timeline with the dispatch nodes that fire then. -/
structure Scheduled where
  time : Number
  dispatch : List String
deriving DecidableEq

/-- What is played of a timeline. -/
structure TimelineProgram where
  ticksPerSecond : Number
  lastTime : Number
  schedule : List Scheduled
deriving DecidableEq

/-- What is played of a region trigger. -/
structure RegionProgram where
  test : Containment
  sustainTicks : Number
  activeTicks : Number
  dispatch : List String
  remainEnabled : Bool
deriving DecidableEq

/-- What is played of a link. -/
structure LinkProgram where
  reset : Number
  bindings : List ClickBinding
  remainEnabled : Bool
deriving DecidableEq

/-- What is played of a graph. -/
inductive Program where
  | timeline (p : TimelineProgram)
  | region (p : RegionProgram)
  | link (p : LinkProgram)
deriving DecidableEq

namespace Graph

/-! ### The nodes that a kind needs -/

/-- The rate and the last time of the first clock. -/
def clock (g : Graph) : Except Fault (Number × Number) :=
  match g.firstOf? .clock with
  | some ⟨_, .clock ticksPerSecond lastTime⟩ => .ok (ticksPerSecond, lastTime)
  | _ => .error (.noNode g.carrier Role.Kind.clock.text)

/-- The test of the first detecting node. -/
def test (g : Graph) : Except Fault Containment :=
  match g.firstOf? .detect with
  | some ⟨_, .detect test⟩ => .ok test
  | _ => .error (.noNode g.carrier Role.Kind.detect.text)

/-- The first activating node: its name, sustain ticks and active ticks. -/
def activation (g : Graph) : Except Fault (String × Number × Number) :=
  match g.firstOf? .activate with
  | some ⟨id, .activate sustainTicks activeTicks⟩ => .ok (id, sustainTicks, activeTicks)
  | _ => .error (.noNode g.carrier Role.Kind.activate.text)

/-- The reset and the bindings of the first click node. -/
def clicks (g : Graph) : Except Fault (Number × List ClickBinding) :=
  match g.firstOf? .click with
  | some ⟨_, .click _ reset bindings⟩ => .ok (reset, bindings)
  | _ => .error (.noNode g.carrier Role.Kind.click.text)

/-- The times of the scheduling nodes with the dispatch nodes behind each. -/
def schedule (g : Graph) : List Scheduled :=
  g.nodes.filterMap fun n =>
    match n.role with
    | .schedule time => some ⟨time, g.dispatchTargets n.id⟩
    | _ => none

/-! ### Programs -/

/-- The program of a region trigger. -/
def regionProgram (g : Graph) : Except Fault RegionProgram := do
  let test ← g.test
  let (id, sustainTicks, activeTicks) ← g.activation
  return { test, sustainTicks, activeTicks, dispatch := g.dispatchTargets id,
           remainEnabled := g.remainsEnabled }

/-- The program of a link. -/
def linkProgram (g : Graph) : Except Fault LinkProgram := do
  let (reset, bindings) ← g.clicks
  return { reset, bindings, remainEnabled := g.remainsEnabled }

/-- The program of a timeline. -/
def timelineProgram (g : Graph) : Except Fault TimelineProgram := do
  let (ticksPerSecond, lastTime) ← g.clock
  return { ticksPerSecond, lastTime, schedule := g.schedule }

/-- The program of a graph. -/
def program (g : Graph) : Except Fault Program :=
  match g.kind with
  | .timeline => g.timelineProgram.map .timeline
  | .region => g.regionProgram.map .region
  | .link => g.linkProgram.map .link

end Graph

end SceneLogic
