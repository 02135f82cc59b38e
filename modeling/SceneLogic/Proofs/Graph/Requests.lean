/-
Building a graph by any requests.

A builder may be asked for anything in any order.  Its graph consists of what it accepted, in order
(`Graph.Composed`), and it accepts just what leaves names distinct and edges between nodes
(`Graph.Grants`).  So a node that was added is found in every graph that is built later, and the
successors of a node are the targets that were linked to it (`Graph.keeps_requests`).
-/
import SceneLogic.Proofs.Attempts
import SceneLogic.Proofs.Graph.Building
namespace SceneLogic.Graph

/-! ### Requests -/

/-- What a builder may be asked for. -/
inductive Request where
  | state (field : StateField)
  | node (id : String) (role : Role)
  | link (source target : String)
  | build

namespace Request

/-- The field that an accepted request adds. -/
def field? : Request → Option StateField
  | state field => some field
  | _ => none

/-- The node that an accepted request adds to the graph of a carrier. -/
def node? (carrier : String) : Request → Option Node
  | node id role => some ⟨nodeId carrier id, role⟩
  | _ => none

/-- The edge that an accepted request adds. -/
def edge? : Request → Option Edge
  | link source target => some ⟨source, target⟩
  | _ => none

/-- The node to which a request links that of a full name. -/
def targetFrom? (id : String) : Request → Option String
  | link source target => if source = id then some target else none
  | _ => none

end Request

/-- The graph with what is asked for; building one leaves it as it is. -/
def request (g : Graph) : Request → Except Fault Graph
  | .state field => g.addState field
  | .node id role => g.addNode id role
  | .link source target => g.link source target
  | .build => .ok g

/-- The graphs that are built on the way through some requests. -/
def builds (g : Graph) : List Request → List Graph
  | [] => []
  | .build :: requests => g :: builds g requests
  | r :: requests => builds (attempt request g r) requests

variable {g g' : Graph} {r : Request} {done : List Request}

/-- What is accepted, and what is added then: fields and nodes of new names, and edges between
nodes. -/
inductive Grants (g : Graph) : Request → Graph → Prop
  | state {field : StateField} : field.name ∉ g.state.map StateField.name →
      Grants g (.state field) { g with state := g.state ++ [field] }
  | node {id : String} {role : Role} : g.fullId id ∉ g.nodes.map Node.id →
      Grants g (.node id role) { g with nodes := g.nodes ++ [⟨g.fullId id, role⟩] }
  | link {source target : String} :
      source ∈ g.nodes.map Node.id → target ∈ g.nodes.map Node.id →
      Grants g (.link source target) { g with edges := g.edges ++ [⟨source, target⟩] }
  | build : Grants g .build g

theorem request_eq_ok_iff : g.request r = .ok g' ↔ g.Grants r g' := by
  have hasField (field : StateField) : (g.state.any (·.name == field.name)) = true ↔
      field.name ∈ g.state.map StateField.name := by
    simp [List.any_eq_true]
  constructor
  · intro accepted
    cases r with
    | state field =>
      rw [request, addState] at accepted
      split at accepted
      · cases accepted
      · next new =>
        cases accepted
        exact .state fun mem => new ((hasField field).2 mem)
    | node id role =>
      rw [request, addNode] at accepted
      split at accepted
      · cases accepted
      · next new =>
        cases accepted
        exact .node fun mem => new ((g.hasNode_iff _).2 mem)
    | link source target =>
      rw [request, Graph.link] at accepted
      split at accepted
      · cases accepted
      · next present =>
        cases accepted
        have ends := List.find?_eq_none.1 present
        exact .link ((g.hasNode_iff source).1 (by simpa using ends source (by simp)))
          ((g.hasNode_iff target).1 (by simpa using ends target (by simp)))
    | build =>
      cases accepted
      exact .build
  · rintro (new | new | ⟨source, target⟩ | _)
    · rw [request, addState, if_neg fun old => new ((hasField _).1 old)]
    · rw [request, addNode, if_neg fun old => new ((g.hasNode_iff _).1 old)]
    · exact link_eq ((g.hasNode_iff _).2 source) ((g.hasNode_iff _).2 target)
    · rfl

/-! ### What was accepted -/

/-- A graph made of what was accepted, with distinct names and edges between nodes. -/
structure Composed (start : Graph) (done : List Request) (g : Graph) : Prop where
  graph : g = { start with
    state := done.filterMap Request.field?
    nodes := done.filterMap (Request.node? start.carrier)
    edges := done.filterMap Request.edge? }
  fields : (g.state.map StateField.name).Nodup
  ids : (g.nodes.map Node.id).Nodup
  ends : ∀ e ∈ g.edges, e.source ∈ g.nodes.map Node.id ∧ e.target ∈ g.nodes.map Node.id

theorem composed_start (carrier : String) (kind : Kind) (source script : String) :
    Composed { carrier, kind, source, script } [] { carrier, kind, source, script } where
  graph := rfl
  fields := List.nodup_nil
  ids := List.nodup_nil
  ends := by rintro e ⟨⟩

theorem nodup_concat {α β : Type} {f : α → β} {xs : List α} {x : α} (distinct : (xs.map f).Nodup)
    (new : f x ∉ xs.map f) : ((xs ++ [x]).map f).Nodup := by
  rw [List.map_append]
  exact distinct.append (List.nodup_singleton _) (List.disjoint_singleton.2 new)

theorem Composed.request {start : Graph} (now : Composed start done g)
    (accepted : g.request r = .ok g') : Composed start (done ++ [r]) g' := by
  obtain ⟨graph, fields, ids, ends⟩ := now
  cases request_eq_ok_iff.1 accepted with
  | state new =>
    refine ⟨?_, nodup_concat fields new, ids, ends⟩
    rw [graph]
    simp [Request.field?, Request.node?, Request.edge?]
  | node new =>
    refine ⟨?_, fields, nodup_concat ids new, fun e mem => ?_⟩
    · rw [graph]
      simp [Request.field?, Request.node?, Request.edge?, fullId]
    · rw [List.map_append]
      exact (ends e mem).imp (List.mem_append_left _) (List.mem_append_left _)
  | link source target =>
    refine ⟨?_, fields, ids, fun e mem => ?_⟩
    · rw [graph]
      simp [Request.field?, Request.node?, Request.edge?]
    · rcases List.mem_append.1 mem with old | new
      · exact ends e old
      · rw [List.mem_singleton.1 new]
        exact ⟨source, target⟩
  | build =>
    refine ⟨?_, fields, ids, ends⟩
    rw [graph]
    simp [Request.field?, Request.node?, Request.edge?]

theorem targets_filterMap (id : String) (done : List Request) :
    ((done.filterMap Request.edge?).filter (·.source == id)).map (·.target) =
      done.filterMap (Request.targetFrom? id) := by
  induction done with
  | nil => rfl
  | cons r done ih =>
    cases r with
    | state field | node id' role | build => exact ih
    | link source target =>
      have edge : (Request.link source target).edge? = some ⟨source, target⟩ := rfl
      rw [List.filterMap_cons_some edge, List.filterMap_cons]
      by_cases same : source = id
      · rw [List.filter_cons_of_pos (by simpa using same), List.map_cons, ih, Request.targetFrom?,
          if_pos same]
      · rw [List.filter_cons_of_neg (by simpa using same), ih, Request.targetFrom?, if_neg same]

/-- The successors of a node are the targets that were linked to it. -/
theorem Composed.successors_eq {start : Graph} (now : Composed start done g) (id : String) :
    g.successors id = done.filterMap (Request.targetFrom? id) := by
  rw [now.graph]
  exact targets_filterMap id done

/-! ### Nodes -/

theorem node?_attempt {id : String} {n : Node} (found : g.node? id = some n) (r : Request) :
    (attempt request g r).node? id = some n := by
  cases result : g.request r with
  | error fault =>
    rw [attempt_of_error result]
    exact found
  | ok g' =>
    rw [attempt_of_ok result]
    cases request_eq_ok_iff.1 result with
    | state _ | link _ _ | build => exact found
    | node _ =>
      rw [node?] at found ⊢
      rw [List.find?_append, found]
      rfl

/-- A node that is found is found in every graph that is built later. -/
theorem node?_of_mem_builds {id : String} {n : Node} (found : g.node? id = some n)
    {later : List Request} {b : Graph} (built : b ∈ builds g later) : b.node? id = some n := by
  induction later generalizing g with
  | nil => cases built
  | cons r later ih =>
    have next := ih (node?_attempt found r)
    cases r with
    | state field | node id' role | link source target => exact next built
    | build =>
      rcases List.mem_cons.1 built with rfl | built
      · exact found
      · exact next built

/-- A node that is added is found under its full name. -/
theorem node?_of_addNode {id : String} {role : Role} (accepted : g.addNode id role = .ok g') :
    g'.node? (g.fullId id) = some ⟨g.fullId id, role⟩ := by
  have granted : g.Grants (.node id role) g' := request_eq_ok_iff.1 accepted
  cases granted with
  | node new =>
    have before : g.nodes.find? (·.id == g.fullId id) = none := by
      rw [List.find?_eq_none]
      intro n mem same
      exact new (List.mem_map.2 ⟨n, mem, by simpa using same⟩)
    rw [node?, List.find?_append, before]
    simp

/-! ### Any requests -/

/-- **What any requests make of a new graph.**  After any requests it consists of what was accepted,
in order; the names of nodes differ from each other and begin with the carrier and a dot, fields have
different names, and edges join nodes of the graph.  A further request that is refused leaves the
graph as it is.  A node that is added is known by its full name in every graph that is built later,
and the successors of a node are the targets that were linked to it, in order, as often as they
were. -/
theorem keeps_requests (carrier : String) (kind : Kind) (source script : String)
    (requests : List Request) :
    let start : Graph := { carrier, kind, source, script }
    let g := attemptAll request start requests
    let done := accepted request start requests
    g = { start with
      state := done.filterMap Request.field?
      nodes := done.filterMap (Request.node? carrier)
      edges := done.filterMap Request.edge? } ∧
    (g.nodes.map Node.id).Nodup ∧
    (∀ n ∈ g.nodes, (carrier ++ ".").toList <+: n.id.toList) ∧
    (g.state.map StateField.name).Nodup ∧
    (∀ e ∈ g.edges, e.source ∈ g.nodes.map Node.id ∧ e.target ∈ g.nodes.map Node.id) ∧
    (∀ r, (∀ g', g.request r = .ok g' ↔ g.Grants r g') ∧
      ∀ fault, g.request r = .error fault → attemptAll request start (requests ++ [r]) = g) ∧
    (∀ id role g', g.addNode id role = .ok g' → ∀ later, ∀ b ∈ builds g' later,
      b.node? (g.fullId id) = some ⟨g.fullId id, role⟩) ∧
    ∀ id, g.successors id = done.filterMap (Request.targetFrom? id) := by
  intro start g done
  have composed : Composed start done g :=
    attemptAll_induction (composed_start carrier kind source script) Composed.request requests
  refine ⟨composed.graph, composed.ids, fun n mem => ?_, composed.fields, composed.ends, fun r =>
    ⟨fun g' => request_eq_ok_iff, fun fault refused => ?_⟩, fun id role g' added later b built => ?_,
    composed.successors_eq⟩
  · rw [composed.graph] at mem
    obtain ⟨r, -, made⟩ := List.mem_filterMap.1 mem
    cases r with
    | node id role =>
      cases made
      have parts : (nodeId carrier id).toList = (carrier ++ ".").toList ++ id.toList := by
        rw [nodeId, ← String.toList_append]
        rfl
      exact ⟨id.toList, parts.symm⟩
    | state _ | link _ _ | build => cases made
  · rw [attemptAll_concat, attempt_of_error refused]
  · exact node?_of_mem_builds (node?_of_addNode added) built

end SceneLogic.Graph
