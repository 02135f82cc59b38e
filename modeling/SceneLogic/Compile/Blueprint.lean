/-
Blueprints: the state, the nodes and the wires that a record asks for.

A blueprint names its nodes locally.  `Blueprint.layOut` adds them to the graph of a carrier and
`Blueprint.wire` the edges between them, by steps that refuse a name in use or an end that is not there.

* A timeline has a clock and, for every entry, a schedule node wired to the dispatch node of the
  entry.
* A region trigger and a link are built alike (`firing`): a pulse and a condition are wired to an
  activate node, which is wired to the dispatch nodes and, unless the record remains enabled when
  it fires, to a disable node.

The activate node of a region trigger holds for the ticks of its longest action; every list of a
link holds for the ticks of its own longest action, and the activate node for the longest hold.
-/
import SceneLogic.Compile.Subject
import SceneLogic.Log
import SceneLogic.Scene.Store
namespace SceneLogic

/-- What a graph is to hold. -/
structure Blueprint where
  state : List StateField
  /-- The nodes under their local names. -/
  nodes : List (String × Role)
  /-- The edges between local names. -/
  wires : List (String × String)
deriving DecidableEq

namespace Blueprint

/-- The graph of a blueprint, without its edges. -/
def unlinked (b : Blueprint) (carrier : String) (kind : Graph.Kind) (source script : String) :
    Graph where
  carrier
  kind
  source
  script
  state := b.state
  nodes := b.nodes.map fun (id, role) => ⟨nodeId carrier id, role⟩

/-- The edges of a blueprint. -/
def edges (b : Blueprint) (carrier : String) : List Edge :=
  b.wires.map fun (source, target) => ⟨nodeId carrier source, nodeId carrier target⟩

/-! ### Building -/

/-- Adds the state and the nodes of a blueprint to a graph, one after the other. -/
def layOut (b : Blueprint) (g : Graph) : Except Fault Graph := do
  let g ← b.state.foldlM Graph.addState g
  b.nodes.foldlM (fun g (id, role) => g.addNode id role) g

/-- Adds the edges of a blueprint to a graph, one after the other. -/
def wire (b : Blueprint) (g : Graph) : Except Fault Graph :=
  b.wires.foldlM (fun g (source, target) => g.link (g.fullId source) (g.fullId target)) g

/-! ### Local names -/

/-- The local name of the node that dispatches an action. -/
def dispatchName (i : Nat) : String := s!"dispatch_{i}"

/-- The local name of the node that waits for an entry of a timeline. -/
def scheduleName (i : Nat) : String := s!"schedule_{i}"

/-! ### Timelines -/

/-- The status that a timeline starts with. -/
def timelineStatus (t : Timeline) : Status := if t.startImmediately then .start else .stop

/-- The nodes of an entry of a timeline. -/
def entryNodes (i : Nat) (e : Timed) : List (String × Role) :=
  [(scheduleName i, .schedule e.time.number), (dispatchName i, .dispatch e.action none)]

/-- The wires of an entry of a timeline. -/
def entryWires (i : Nat) : List (String × String) :=
  [("clock", scheduleName i), (scheduleName i, dispatchName i)]

/-- The blueprint of a timeline. -/
def timeline (config : Config) (t : Timeline) : Blueprint where
  state := [.status (timelineStatus t)]
  nodes := ("clock", .clock config.ticksPerSecond t.lastTime.number) ::
    t.entries.zipIdx.flatMap fun (e, i) => entryNodes i e
  wires := (List.range t.entries.length).flatMap entryWires

/-! ### Triggers and links -/

/-- The ticks for which the longest of some actions runs. -/
def holdTicks (config : Config) (actions : List Action) : Number :=
  secondsToTicks (Span.longest (actions.map Action.span)).number config.ticksPerSecond

/-- The node that disables the holder, for a record that does not remain enabled. -/
def disableNodes (remainEnabled : Bool) : List (String × Role) :=
  if remainEnabled then [] else [("disable", .disable)]

/-- The wires between a pulse, a condition, an activate node, what this dispatches and what
disables the holder. -/
def firing (condition : String) (dispatches : Nat) (remainEnabled : Bool) :
    List (String × String) :=
  ("pulse", "activate") :: (condition, "activate") ::
    ((List.range dispatches).map fun i => ("activate", dispatchName i)) ++
    (disableNodes remainEnabled).map fun (id, _) => ("activate", id)

/-- The test of a region trigger that tracks some objects. -/
def regionTest (t : RegionTrigger) (tracked : List String) : Containment :=
  .between (t.corner1.map .scalar) (t.corner2.map .scalar) t.direction tracked t.detectAny

/-- The blueprint of a region trigger that tracks some objects. -/
def region (config : Config) (t : RegionTrigger) (tracked : List String) : Blueprint where
  state := [.enabled t.enabled, .status .stop]
  nodes := [("pulse", .pulse), ("detect", .detect (regionTest t tracked)),
      ("activate", .activate (secondsToTicks t.duration.number config.ticksPerSecond)
        (holdTicks config t.actions))] ++
    (t.actions.zipIdx.map fun (action, i) => (dispatchName i, .dispatch action none)) ++
    disableNodes t.remainEnabled
  wires := firing "detect" t.actions.length t.remainEnabled

/-- The actions of a link, each with the count it is bound to, in the order of the lists. -/
def boundActions (lists : List (ClickCount × List Action)) : List (ClickCount × Action) :=
  lists.flatMap fun (count, actions) => actions.map fun action => (count, action)

/-- The bindings of lists whose first action is dispatched by the node of an index. -/
def bindings (config : Config) (carrier : String) (first : Nat) :
    List (ClickCount × List Action) → List ClickBinding
  | [] => []
  | (count, actions) :: rest =>
    { clicks := count,
      dispatch := (List.range actions.length).map fun i => nodeId carrier (dispatchName (first + i)),
      activeTicks := holdTicks config actions } ::
      bindings config carrier (first + actions.length) rest

/-- The longest hold of some bindings, zero if there are none. -/
def longestHold (bindings : List ClickBinding) : Number :=
  bindings.foldl (fun longest b => longest.max b.activeTicks) 0

/-- The blueprint of the link on an object. -/
def link (config : Config) (carrier : String) (l : ClickLink) (object : String) : Blueprint where
  state := [.enabled l.enabled, .status .stop, .clicks 0]
  nodes :=
    let bound := bindings config carrier 0 l.lists.entries
    ((boundActions l.lists.entries).zipIdx.map fun ((count, action), i) =>
      (dispatchName i, .dispatch action (some count))) ++
    [("pulse", .pulse), ("click", .click object l.resetNumber bound),
      ("activate", .activate 0 (longestHold bound))] ++
    disableNodes l.remainEnabled
  wires := firing "click" (boundActions l.lists.entries).length l.remainEnabled

end Blueprint

/-! ### What a trigger tracks -/

/-- The names that a trigger refers to. -/
def Tracked.names : Tracked → List String
  | .objects names => names.map Target.name
  | .group name => [name.name]

/-- The objects that a trigger tracks in a scene: groups stand for their members. -/
def RegionTrigger.trackedIn (t : RegionTrigger) (scene : Scene) : Except Fault (List String) := do
  let members ← t.tracked.names.mapM fun name =>
    match scene.resolve? name with
    | some members => .ok members
    | none => .error (.unresolved name (RegionTrigger.label t.name.text))
  return members.flatten

/-- What is reported of a trigger that tracks some objects. -/
def RegionTrigger.trackingLog (t : RegionTrigger) (tracked : List String) : List Log.Entry :=
  if tracked = [] then
    [.text .warn "RegionTrigger"
      s!"{RegionTrigger.label t.name.text} tracks no objects and will never fire"]
  else []

/-! ### Blueprints of subjects -/

namespace Subject

/-- The blueprint of a subject in a scene, with what is reported on the way. -/
def blueprint (s : Subject) (config : Config) (scene : Scene) :
    Except Fault (Blueprint × List Log.Entry) :=
  match s with
  | timeline t _ => .ok (.timeline config t, [])
  | region t _ => do
    let tracked ← t.trackedIn scene
    return (.region config t tracked, t.trackingLog tracked)
  | link l object =>
    match scene.position? object.name with
    | some _ => .ok (.link config s.carrier l object.name, [])
    | none => .error (.unresolved object.name "Link")

/-- The graph of a subject before anything is added to it. -/
def emptyGraph (s : Subject) (config : Config) : Graph where
  carrier := s.carrier
  kind := s.kind
  source := s.source
  script := scriptName config s.carrier

end Subject

end SceneLogic
