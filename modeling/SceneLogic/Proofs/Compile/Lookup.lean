/-
Looking up in the graph of a blueprint.

Full names are looked up in a graph as local ones are in its blueprint: nodes
(`Blueprint.node?_graph`), actions (`Blueprint.action?_graph`) and the dispatch nodes behind a node
(`Blueprint.dispatchTargets_graph`).
-/
import SceneLogic.Proofs.Graph.Names
namespace SceneLogic

/-- The action of a role that dispatches one. -/
def Role.action? : Role → Option Action
  | .dispatch action _ => some action
  | _ => none

theorem Graph.action?_eq (g : Graph) (id : String) :
    g.action? id = (g.node? id).bind fun n => n.role.action? := by
  rw [Graph.action?]
  rcases g.node? id with _ | ⟨id, role⟩
  · rfl
  · cases role <;> rfl

namespace Blueprint

/-- The graph of a blueprint. -/
def graph (b : Blueprint) (carrier : String) (kind : Graph.Kind) (source script : String) : Graph :=
  { b.unlinked carrier kind source script with edges := b.edges carrier }

/-- The action under a local name. -/
def action? (b : Blueprint) (id : String) : Option Action := (b.nodes.lookup id).bind Role.action?

/-- The local names that a local name is wired to. -/
def targets (b : Blueprint) (id : String) : List String :=
  (b.wires.filter (·.1 == id)).map Prod.snd

variable (b : Blueprint) (carrier : String) (kind : Graph.Kind) (source script : String)

theorem node?_graph (id : String) :
    (b.graph carrier kind source script).node? (nodeId carrier id) =
      (b.nodes.lookup id).map fun role => ⟨nodeId carrier id, role⟩ := by
  show (b.nodes.map fun n => (⟨nodeId carrier n.1, n.2⟩ : Node)).find?
    (·.id == nodeId carrier id) = _
  induction b.nodes with
  | nil => rfl
  | cons head rest ih =>
    obtain ⟨name, role⟩ := head
    rw [List.map_cons, List.find?_cons, List.lookup_cons]
    by_cases same : id = name
    · subst same
      simp
    · have different : (nodeId carrier name == nodeId carrier id) = false := by
        rw [beq_eq_false_iff_ne]
        exact fun h => same (nodeId_inj.1 h).symm
      rw [different, beq_false_of_ne same]
      exact ih

theorem action?_graph (id : String) :
    (b.graph carrier kind source script).action? (nodeId carrier id) = b.action? id := by
  rw [Graph.action?_eq, node?_graph, Blueprint.action?]
  cases b.nodes.lookup id <;> rfl

theorem successors_graph (id : String) :
    (b.graph carrier kind source script).successors (nodeId carrier id) =
      (b.targets id).map (nodeId carrier) := by
  have full : ∀ w : String × String, (nodeId carrier w.1 == nodeId carrier id) = (w.1 == id) := by
    intro w
    rw [Bool.eq_iff_iff, beq_iff_eq, beq_iff_eq, nodeId_inj]
  show ((b.wires.map fun w => (⟨nodeId carrier w.1, nodeId carrier w.2⟩ : Edge)).filter
    (·.source == nodeId carrier id)).map (·.target) = _
  rw [List.filter_map, List.map_map, targets, List.map_map]
  congr 1
  exact List.filter_congr fun w _ => full w

theorem dispatchTargets_graph (id : String) :
    (b.graph carrier kind source script).dispatchTargets (nodeId carrier id) =
      ((b.targets id).filter fun target => (b.action? target).isSome).map (nodeId carrier) := by
  rw [Graph.dispatchTargets, successors_graph, List.filter_map]
  congr 1
  refine List.filter_congr fun target _ => ?_
  rw [Function.comp_apply, action?_graph]

end Blueprint

end SceneLogic
