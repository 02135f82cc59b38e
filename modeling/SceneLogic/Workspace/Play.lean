/-
Playing in a workspace.

Kept graphs are loaded, and ticks look up positions in the scene as it is at that moment.  Every
step hands out what was dispatched, and the listeners have heard it.
-/
import SceneLogic.Workspace.Basic
namespace SceneLogic.Workspace

/-- Takes over a step of playback and gives its events. -/
def played (step : Playback × Report) : Work (List Event) := do
  modify fun w =>
    { w with playback := step.1, listeners := w.listeners.hear step.2.events.length }
  report step.2.log
  return step.2.events

/-- Loads a graph. -/
def load (g : Graph) : Work Unit := do
  let playback ← ofResult ((← get).playback.load g)
  modify fun w => { w with playback }
  report [Playback.loadedLog g]

/-- Unloads the graph of a carrier; tells whether it was loaded. -/
def unload (carrier : String) : Work Bool := do
  let p := (← get).playback
  modify fun w => { w with playback := p.unload carrier }
  return p.hasLoaded carrier

/-- Lets some ticks pass. -/
def run (ticks : Nat) : Work (List Event) := do
  let w ← get
  played (w.playback.run w.scene.position? ticks)

/-- Clicks on an object; tells whether that fired the link there. -/
def click (object : String) : Work (Bool × List Event) := do
  let (fired, step) := (← get).playback.click object
  return (fired, ← played step)

/-- Applies actions. -/
def applyActions (actions : List Action) : Work Unit := do
  let p := (← get).playback
  modify fun w => { w with playback := p.apply actions }
  report (p.applyLog actions)

/-- Returns everything to its initial state. -/
def reset : Work Unit := modify fun w => { w with playback := w.playback.reset }

/-- Adds a listener. -/
def listen (name : String) : Work Unit :=
  modify fun w => { w with listeners := w.listeners.add name }

/-- Stops a listener. -/
def unlisten (name : String) : Work Unit :=
  modify fun w => { w with listeners := w.listeners.stop name }

end SceneLogic.Workspace
