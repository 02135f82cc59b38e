/-
Playback: loaded graphs under ticks, clicks and actions.

A tick evaluates the loaded graphs in the order in which they were loaded, then delivers the
clicks that were queued before it began, and last applies what was dispatched.  So effects on
other graphs show from the next tick on, and a link that activates a link queues a click for the
next tick.  Actions that concern the scene only change nothing here; a reset, wherever it stands
among the actions applied, takes place behind them all.
-/
import SceneLogic.Log
import SceneLogic.Playback.Loaded
namespace SceneLogic

/-- A dispatch of an action. -/
structure Event where
  /-- The number of the tick. -/
  tick : Nat
  carrier : String
  node : String
  action : Action
deriving DecidableEq

/-- What is reported of a dispatch. -/
def Event.log (e : Event) : Log.Entry :=
  .text .debug "ActivatorRuntime" s!"{e.carrier} dispatched {e.node}"

/-- Loaded graphs, in the order in which they were loaded, and the clicks to come. -/
structure Playback where
  loaded : List Loaded := []
  /-- The objects to be clicked in the next tick. -/
  queued : List String := []
  /-- The ticks so far; more than 2⁵³ of them are not modelled. -/
  ticks : Nat := 0
deriving DecidableEq, Inhabited

/-- What happens in a step of playback. -/
structure Report where
  events : List Event := []
  log : List Log.Entry := []

namespace Playback

/-! ### Loading -/

/-- Loads a graph behind those that are loaded, none of which may have its carrier. -/
def load (p : Playback) (g : Graph) : Except Fault Playback :=
  if p.loaded.any (·.graph.carrier == g.carrier) then .error (.alreadyLoaded g.carrier)
  else do return { p with loaded := p.loaded ++ [← Loaded.ofGraph g] }

/-- What is reported of a graph that was loaded. -/
def loadedLog (g : Graph) : Log.Entry := .text .debug "ActivatorRuntime" s!"Loaded {g.carrier}"

/-- A graph of a carrier is loaded. -/
def hasLoaded (p : Playback) (carrier : String) : Bool :=
  p.loaded.any (·.graph.carrier == carrier)

/-- Unloads the graph of a carrier. -/
def unload (p : Playback) (carrier : String) : Playback :=
  { p with loaded := p.loaded.filter (·.graph.carrier != carrier) }

/-- The state of the graph of a carrier. -/
def state? (p : Playback) (carrier : String) : Option Holder :=
  (p.loaded.find? (·.graph.carrier == carrier)).map Loaded.holder

/-! ### Addressing -/

/-- A graph is addressed by its kind and its source. -/
def isAddressed (kind : Graph.Kind) (source : String) (l : Loaded) : Bool :=
  l.graph.kind == kind && l.graph.source == source

/-- The loaded graph that is addressed: the first of those of a kind and source. -/
def find? (p : Playback) (kind : Graph.Kind) (source : String) : Option Loaded :=
  p.loaded.find? (isAddressed kind source)

/-- Changes the first item that satisfies a test. -/
def changeFirst {α : Type} (test : α → Bool) (change : α → α) : List α → List α
  | [] => []
  | x :: xs => if test x then change x :: xs else x :: changeFirst test change xs

/-- Changes the loaded graph that is addressed. -/
def change (p : Playback) (kind : Graph.Kind) (source : String) (f : Loaded → Loaded) : Playback :=
  { p with loaded := changeFirst (isAddressed kind source) f p.loaded }

/-! ### Dispatching -/

/-- The events of dispatching nodes of a graph; nodes that carry no action are passed over. -/
def eventsOf (tick : Nat) (g : Graph) (nodes : List String) : List Event :=
  nodes.filterMap fun node =>
    (g.action? node).map fun action => { tick, carrier := g.carrier, node, action }

/-- Evaluates every loaded graph. -/
def evaluateAll (p : Playback) (position? : String → Option (Triple Number)) :
    Playback × List Event :=
  ({ p with loaded := p.loaded.map fun l => (l.evaluate position?).1 },
    p.loaded.flatMap fun l => eventsOf p.ticks l.graph (l.evaluate position?).2)

/-- Delivers a click to the link on an object, if it is loaded. -/
def deliver (p : Playback) (object : String) : Playback × List Event :=
  match p.find? .link object with
  | some l => (p.change .link object fun _ => l.click.1, eventsOf p.ticks l.graph l.click.2)
  | none => (p, [])

/-- Delivers clicks one after the other. -/
def deliverAll (p : Playback) : List String → Playback × List Event
  | [] => (p, [])
  | object :: rest =>
    let (p, events) := p.deliver object
    let (p, later) := p.deliverAll rest
    (p, events ++ later)

/-! ### Applying actions -/

/-- A warning. -/
def warning (text : String) : Log.Entry := .text .warn "ActivatorRuntime" text

/-- Returns every loaded graph to its initial state; no click is queued any more. -/
def reset (p : Playback) : Playback :=
  { p with loaded := p.loaded.map Loaded.restored, queued := [] }

/-- Changes the link on an object; an activation is a click in the next tick. -/
def changeLink (p : Playback) (object : String) : LinkChange → Playback
  | .activate => { p with queued := p.queued ++ [object] }
  | .enable => p.change .link object (·.withEnabled true)
  | .disable => p.change .link object (·.withEnabled false)

/-- Applies the effect of an action on the graph that it addresses; a reset is left for later. -/
def applyOne (p : Playback) : Action → Playback
  | .timeline target c => p.change .timeline target.name (·.changeTimeline c)
  | .event target enable => p.change .region target.name (·.withEnabled enable)
  | .link target c =>
    if (p.find? .link target.name).isSome then p.changeLink target.name c else p
  | _ => p

/-- What is reported of an action that addresses a graph that is not loaded. -/
def missingLog (p : Playback) : Action → List Log.Entry
  | .timeline target _ =>
    if (p.find? .timeline target.name).isSome then []
    else [warning s!"Timeline '{target.name}' is not loaded"]
  | .event target _ =>
    if (p.find? .region target.name).isSome then []
    else [warning s!"Trigger '{target.name}' is not loaded"]
  | .link target _ =>
    if (p.find? .link target.name).isSome then []
    else [warning s!"Link on '{target.name}' is not loaded"]
  | _ => []

/-- Applies actions, and then resets everything if one of them is a reset. -/
def apply (p : Playback) (actions : List Action) : Playback :=
  let applied := actions.foldl applyOne p
  if .reset ∈ actions then applied.reset else applied

/-- What is reported of applying actions: which graphs are loaded does not change on the way. -/
def applyLog (p : Playback) (actions : List Action) : List Log.Entry :=
  actions.flatMap p.missingLog

/-- Applies what was dispatched. -/
def settle (p : Playback) (events : List Event) : Playback × Report :=
  let actions := events.map Event.action
  (p.apply actions, { events, log := events.map Event.log ++ p.applyLog actions })

/-! ### Steps -/

/-- A tick. -/
def tick (p : Playback) (position? : String → Option (Triple Number)) : Playback × Report :=
  let begun := { p with ticks := p.ticks + 1, queued := [] }
  let (evaluated, events) := begun.evaluateAll position?
  let (delivered, later) := evaluated.deliverAll p.queued
  delivered.settle (events ++ later)

/-- Some ticks in a row. -/
def run (p : Playback) (position? : String → Option (Triple Number)) : Nat → Playback × Report
  | 0 => (p, {})
  | n + 1 =>
    let (p, first) := p.tick position?
    let (p, rest) := p.run position? n
    (p, ⟨first.events ++ rest.events, first.log ++ rest.log⟩)

/-- A click on an object, and whether it fired the link there. -/
def click (p : Playback) (object : String) : Bool × Playback × Report :=
  match p.find? .link object with
  | none => (false, p, { log := [warning s!"No link is loaded for '{object}'"] })
  | some l =>
    let (delivered, events) := p.deliver object
    (!l.click.2.isEmpty, delivered.settle events)

end Playback

end SceneLogic
