/-
A loaded graph: its program, the state that others see, and what it keeps to itself.

`Loaded.evaluate` is what a tick does to a loaded graph on its own and `Loaded.click` what a click
does to a link.  Both give the graph afterwards and the nodes to dispatch.

* A timeline that is active advances its clock by a tick and dispatches the times that the clock
  crosses; past its last time it stops.
* A region trigger counts the ticks in a row in which it is enabled and its test holds.  With
  enough of them it fires, and stays active, counting nothing, for as long as it holds.
* A link counts a click if it is enabled and not active, and fires if actions are bound to the
  number of the click.

Every firing holds for at least one tick; the tick that ends a hold does nothing else.  All counters
are numbers, so counting stands still where a number is not told apart from the next one, which
begins at 2⁵³.
-/
import SceneLogic.Playback.Program
namespace SceneLogic

/-- What a graph keeps to itself. -/
structure Memory where
  /-- The ticks in a row in which a region trigger has detected something. -/
  held : Number := 0
  /-- The ticks for which a firing still holds. -/
  active : Number := 0
  /-- The tick of the clock of a timeline, which has not begun at `-1`. -/
  tick : Number := -1
deriving DecidableEq

/-- A graph that is played. -/
structure Loaded where
  graph : Graph
  program : Program
  holder : Holder
  memory : Memory
deriving DecidableEq

namespace Loaded

/-- Loads a graph, which must have the nodes that its kind is played by. -/
def ofGraph (g : Graph) : Except Fault Loaded := do
  return { graph := g, program := ← g.program, holder := g.initialHolder, memory := {} }

/-- The graph as it was when it was loaded. -/
def restored (l : Loaded) : Loaded := { l with holder := l.graph.initialHolder, memory := {} }

/-- The graph with another status. -/
def withStatus (l : Loaded) (status : Status) : Loaded :=
  { l with holder := { l.holder with status } }

/-- The graph, enabled or disabled. -/
def withEnabled (l : Loaded) (enabled : Bool) : Loaded :=
  { l with holder := { l.holder with enabled := some enabled } }

/-! ### Firing -/

/-- The graph after a firing that is to hold for some ticks. -/
def fire (l : Loaded) (activeTicks : Number) (remainEnabled : Bool) : Loaded :=
  let fired := { l.withStatus .start with
    memory := { l.memory with active := (1 : Number).max activeTicks } }
  if remainEnabled then fired else fired.withEnabled false

/-- The graph after a tick of its hold. -/
def countDown (l : Loaded) : Loaded :=
  let active := l.memory.active.sub 1
  let counted := { l with memory := { l.memory with active } }
  if active.le 0 then counted.withStatus .stop else counted

/-! ### Ticks -/

/-- The time of a clock at one of its ticks. -/
def clockTime (ticksPerSecond tick : Number) : Number := tick.div ticksPerSecond

/-- A time lies behind one moment and not behind another. -/
def isCrossed (before now time : Number) : Bool := before.lt time && time.le now

/-- A tick of a timeline. -/
def advance (l : Loaded) (p : TimelineProgram) : Loaded × List String :=
  match l.holder.status with
  | .stop => (l, [])
  | .start =>
    let tick := l.memory.tick.add 1
    let before := clockTime p.ticksPerSecond l.memory.tick
    let now := clockTime p.ticksPerSecond tick
    let due := p.schedule.filter fun s => isCrossed before now s.time
    let ticked := { l with memory := { l.memory with tick } }
    (if p.lastTime.le now then ticked.withStatus .stop else ticked, due.flatMap Scheduled.dispatch)

/-- A tick of a region trigger that is not active. -/
def sense (l : Loaded) (p : RegionProgram) (detected : Bool) : Loaded × List String :=
  let counted (held : Number) : Loaded := { l with memory := { l.memory with held } }
  if !detected then (counted 0, [])
  else if (l.memory.held.add 1).lt p.sustainTicks then (counted (l.memory.held.add 1), [])
  else ((counted 0).fire p.activeTicks p.remainEnabled, p.dispatch)

/-- A tick of a loaded graph. -/
def evaluate (l : Loaded) (position? : String → Option (Triple Number)) : Loaded × List String :=
  match l.program with
  | .timeline p => l.advance p
  | .region p =>
    match l.holder.status with
    | .start => (l.countDown, [])
    | .stop => l.sense p (l.holder.enabled = some true && p.test.detects position?)
  | .link _ =>
    match l.holder.status with
    | .start => (l.countDown, [])
    | .stop => (l, [])

/-! ### Clicks -/

/-- A click is counted by a link that is enabled and not active. -/
def takesClicks (l : Loaded) : Bool := l.holder.enabled = some true && l.holder.status = .stop

/-- A click that a link counts; nothing is fired without nodes to dispatch. -/
def countClick (l : Loaded) (p : LinkProgram) : Loaded × List String :=
  let advanced := advanceClicks (l.holder.clicks.getD 0) p.reset
  let counted := { l with holder := { l.holder with clicks := some advanced.count } }
  match ClickBinding.forClick? p.bindings advanced.click with
  | none => (counted, [])
  | some b =>
    if b.dispatch = [] then (counted, [])
    else (counted.fire b.activeTicks p.remainEnabled, b.dispatch)

/-- A click on a loaded graph. -/
def click (l : Loaded) : Loaded × List String :=
  match l.program with
  | .link p => if l.takesClicks then l.countClick p else (l, [])
  | _ => (l, [])

/-! ### Effects of actions -/

/-- A timeline that begins anew. -/
def restarted (l : Loaded) : Loaded :=
  { l.withStatus .start with memory := { l.memory with tick := -1 } }

/-- A timeline that has not begun, and is not about to. -/
def isUnstarted (l : Loaded) : Bool := l.holder.status = .stop && l.memory.tick.same (-1)

/-- A timeline after a change. -/
def changeTimeline (l : Loaded) : TimelineChange → Loaded
  | .start => l.restarted
  | .stop => l.withStatus .stop
  | .resume => l.withStatus .start
  | .startIfNotStarted => if l.isUnstarted then l.restarted else l

end Loaded

end SceneLogic
