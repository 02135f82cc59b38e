/-
Drawing a graph in the node editor.

Sources and conditions stand in the first column, what they fire in the second, effects in the
third; within a column nodes stand below each other in the order of the graph.
-/
import SceneLogic.Graph.Basic
namespace SceneLogic.Graph

/-! ### Labels -/

/-- The label of a node. -/
def describe : Role → String
  | .pulse => "Enabled"
  | .clock ticksPerSecond _ => s!"Clock ({ticksPerSecond.text}/s)"
  | .schedule time => s!"At {time.text}s"
  | .detect test =>
    (match test.aggregate with | .any => "Any" | .all => "All") ++
      s!" of {test.objects.length} " ++
      (match test.side with | .inside => "inside" | .outside => "outside")
  | .click object _ _ => s!"Click {object}"
  | .activate sustainTicks _ =>
    if Number.lt 0 sustainTicks then s!"Activate after {sustainTicks.text} ticks" else "Activate"
  | .dispatch action none => action.describe
  | .dispatch action (some clicks) => s!"[{clicks.text}] {action.describe}"
  | .disable => "Disable"

/-! ### Drawings -/

/-- A node where it is drawn. -/
structure Drawn where
  id : String
  x : Nat
  y : Nat
  label : String
  kind : Role.Kind
deriving DecidableEq

/-- An edge as it is drawn. -/
structure DrawnEdge where
  id : String
  source : String
  target : String
deriving DecidableEq

/-- A drawing of a graph. -/
structure Drawing where
  nodes : List Drawn
  edges : List DrawnEdge
deriving DecidableEq

/-- The shape of every drawn node. -/
def Drawn.shape : String := "default"

/-- The shape of every drawn edge. -/
def DrawnEdge.shape : String := "smoothstep"

/-- The width of a column. -/
def columnWidth : Nat := 240

/-- The height of a row. -/
def rowHeight : Nat := 100

/-- The column of a kind of node. -/
def column : Role.Kind → Nat
  | .pulse | .clock | .detect | .click => 0
  | .schedule | .activate => 1
  | .dispatch | .disable => 2

/-- Draws nodes below those of the columns listed, which are drawn already. -/
def drawNodes (drawn : List Nat) : List Node → List Drawn
  | [] => []
  | n :: ns =>
    let c := column n.role.kind
    { id := n.id, x := c * columnWidth, y := drawn.count c * rowHeight,
      label := describe n.role, kind := n.role.kind } :: drawNodes (c :: drawn) ns

/-- Draws an edge. -/
def drawEdge (e : Edge) : DrawnEdge := ⟨s!"{e.source}->{e.target}", e.source, e.target⟩

/-- The drawing of a graph. -/
def draw (g : Graph) : Drawing := ⟨drawNodes [] g.nodes, g.edges.map drawEdge⟩

end SceneLogic.Graph
