/-
Graphs, their nodes and their drawings as JSON.
-/
import SceneLogic.Graph.Layout
import SceneLogic.Json.Records
namespace SceneLogic

/-! ### Parts of nodes -/

/-- Reads a containment test. -/
def Containment.ofJson? (j : Json) : Option Containment := do
  return { lo := ← j.get? "lo" Json.triple?,
           hi := ← j.get? "hi" Json.triple?,
           side := ← (j.get? "direction" Json.text?).bind Side.ofText?,
           aggregate := ← (j.get? "aggregate" Json.text?).bind Aggregate.ofText?,
           objects := ← j.get? "objects" Json.texts? }

/-- The JSON form of a containment test. -/
def Containment.toJson (c : Containment) : Json :=
  .object [("lo", .ofNumbers c.lo.toList), ("hi", .ofNumbers c.hi.toList),
    ("direction", .text c.side.text), ("aggregate", .text c.aggregate.text),
    ("objects", .ofTexts c.objects)]

/-- Reads a binding. -/
def ClickBinding.ofJson? (j : Json) : Option ClickBinding := do
  return { clicks := ← j.get? "clicks" ClickCount.ofJson?,
           dispatch := ← j.get? "dispatch" Json.texts?,
           activeTicks := ← j.get? "activeTicks" Json.number? }

/-- The JSON form of a binding. -/
def ClickBinding.toJson (b : ClickBinding) : Json :=
  .object [("clicks", b.clicks.toJson), ("dispatch", .ofTexts b.dispatch),
    ("activeTicks", .number b.activeTicks)]

/-! ### Nodes -/

namespace Role

/-- Reads what a node does, if it carries no action. -/
def ofPlain? (j : Json) : Option Role := do
  match ← j.get? "kind" Json.text? with
  | "pulse" => return pulse
  | "disable" => return disable
  | "clock" =>
    return clock (← j.get? "ticksPerSecond" Json.number?) (← j.get? "lastTime" Json.number?)
  | "schedule" => return schedule (← j.get? "time" Json.number?)
  | "detect" => return detect (← j.get? "predicate" Containment.ofJson?)
  | "click" =>
    return click (← j.get? "object" Json.text?) (← j.get? "reset" Json.number?)
      (← j.get? "bindings" (Json.listOf? ClickBinding.ofJson?))
  | "activate" =>
    return activate (← j.get? "sustainTicks" Json.number?) (← j.get? "activeTicks" Json.number?)
  | _ => none

/-- Reads what a node does. -/
def ofJson (j : Json) : Reading Role := do
  if j.get? "kind" Json.text? = some "dispatch" then
    let clicks ← Reading.ofShape (j.maybe? "clicks" ClickCount.ofJson?)
    return dispatch (← j.read "action" Action.ofJson) clicks
  else Reading.ofShape (ofPlain? j)

/-- The fields of a node that go with its kind. -/
def fields : Role → List (String × Json)
  | pulse | disable => []
  | clock ticksPerSecond lastTime =>
    [("ticksPerSecond", .number ticksPerSecond), ("lastTime", .number lastTime)]
  | schedule time => [("time", .number time)]
  | detect test => [("predicate", test.toJson)]
  | click object reset bindings =>
    [("object", .text object), ("reset", .number reset),
      ("bindings", .list (bindings.map ClickBinding.toJson))]
  | activate sustainTicks activeTicks =>
    [("sustainTicks", .number sustainTicks), ("activeTicks", .number activeTicks)]
  | dispatch action clicks =>
    ("action", action.toJson) :: Json.optional "clicks" ClickCount.toJson clicks

end Role

/-- Reads a node under its local name. -/
def Node.ofJson (j : Json) : Reading (String × Role) := do
  return (← Reading.ofShape (j.get? "id" Json.text?), ← Role.ofJson j)

/-- The JSON form of a node. -/
def Node.toJson (n : Node) : Json :=
  .object (("kind", .text n.role.kind.text) :: ("id", .text n.id) :: n.role.fields)

/-! ### State -/

/-- Reads a field of a state holder. -/
def StateField.ofJson? (j : Json) : Option StateField := do
  match ← j.get? "name" Json.text? with
  | "enabled" => return enabled (← j.get? "initial" Json.bool?)
  | "status" => return status (← (j.get? "initial" Json.text?).bind Status.ofText?)
  | "clicks" => return clicks (← j.get? "initial" Json.number?)
  | _ => none

/-- The JSON form of the initial value of a field. -/
def StateField.initialJson : StateField → Json
  | enabled b => .bool b
  | status s => .text s.text
  | clicks n => .number n

/-- The JSON form of a field of a state holder. -/
def StateField.toJson (f : StateField) : Json :=
  .object [("name", .text f.name), ("initial", f.initialJson)]

/-- The JSON form of a state holder. -/
def Holder.toJson (h : Holder) : Json :=
  .object (("status", .text h.status.text) ::
    (Json.optional "enabled" .bool h.enabled ++ Json.optional "clicks" .number h.clicks))

/-! ### Graphs -/

namespace Graph

/-- Reads a graph without state, nodes and edges. -/
def emptyOfJson? (j : Json) : Option Graph := do
  return { carrier := ← j.get? "base" Json.text?,
           kind := ← (j.get? "kind" Json.text?).bind Kind.ofText?,
           source := ← j.get? "source" Json.text?,
           script := ← j.get? "module" Json.text? }

/-- Reads a graph by building it; its edges are pairs of full names. -/
def ofJson (j : Json) : Reading Graph := do
  let g ← Reading.ofShape (emptyOfJson? j)
  let state ← Reading.ofShape (j.getOr? "state" (Json.listOf? StateField.ofJson?) [])
  let nodes ← Reading.ofShape (j.getOr? "nodes" Json.list? [])
  let edges ← Reading.ofShape (j.getOr? "edges" (Json.listOf? (Json.named? Json.text?)) [])
  let g ← state.foldlM (fun g f => Reading.ofResult (g.addState f)) g
  let g ← nodes.foldlM (fun g n => do
    let (id, role) ← Node.ofJson n
    Reading.ofResult (g.addNode id role)) g
  edges.foldlM (fun g e => Reading.ofResult (g.link e.1 e.2)) g

/-- The JSON form of a graph. -/
def toJson (g : Graph) : Json :=
  .object [("baseObjectName", .text g.carrier), ("kind", .text g.kind.text),
    ("sourceName", .text g.source), ("state", .list (g.state.map StateField.toJson)),
    ("nodes", .list (g.nodes.map Node.toJson)),
    ("edges", .list (g.edges.map fun e =>
      .object [("from", .text e.source), ("to", .text e.target)])),
    ("logicModule", .text g.script)]

/-- The JSON form of a drawn node. -/
def Drawn.toJson (n : Drawn) : Json :=
  .object [("id", .text n.id), ("type", .text Drawn.shape),
    ("position", .object [("x", .ofNat n.x), ("y", .ofNat n.y)]),
    ("data", .object [("label", .text n.label), ("kind", .text n.kind.text)])]

/-- The JSON form of a drawn edge. -/
def DrawnEdge.toJson (e : DrawnEdge) : Json :=
  .object [("id", .text e.id), ("source", .text e.source), ("target", .text e.target),
    ("type", .text DrawnEdge.shape)]

/-- The JSON form of a drawing. -/
def Drawing.toJson (d : Drawing) : Json :=
  .object [("nodes", .list (d.nodes.map Drawn.toJson)),
    ("edges", .list (d.edges.map DrawnEdge.toJson))]

end Graph

/-! ### Configurations -/

/-- Reads settings to change. -/
def Config.Overrides.ofJson? (j : Json) : Option Config.Overrides := do
  return { ticksPerSecond := ← j.maybe? "ticksPerSecond" Json.number?,
           logicModulePrefix := ← j.maybe? "logicModulePrefix" Json.text?,
           checkGeneratedLogic := ← j.maybe? "checkGeneratedLogic" Json.bool?,
           verbose := ← j.maybe? "verbose" Json.bool? }

/-- The JSON form of a configuration. -/
def Config.toJson (c : Config) : Json :=
  .object [("ticksPerSecond", .number c.ticksPerSecond),
    ("logicModulePrefix", .text c.logicModulePrefix),
    ("checkGeneratedLogic", .bool c.checkGeneratedLogic), ("verbose", .bool c.verbose)]

end SceneLogic
