/-
Building a graph step by step.

A graph is made by steps that may be refused: a field that the state has already, a node whose name
is in use, an edge with an end that is no node.  Fields, nodes and edges that give no cause for this
are all added, in order (`Graph.addStates_eq`, `Graph.addNodes_eq`, `Graph.addEdges_eq`), so the graph
of a sound blueprint is built as a whole (`Blueprint.Sound.layOut_eq`, `Blueprint.Sound.wire_eq`) and
is well formed.  The full name of a node tells its carrier and its local name apart at the last dot
(`nodeId_inj_of_dotFree`).
-/
import Mathlib.Data.List.Nodup
import SceneLogic.Proofs.Compile.Lookup
import SceneLogic.Proofs.Lua.Literals
import SceneLogic.Proofs.Results
namespace SceneLogic

/-! ### Full names -/

/-- The last dot of a full name stands behind the carrier, whatever dots the carrier has. -/
theorem nodeId_inj_of_dotFree {c c' id id' : String} (h : '.' ∉ id.toList) (h' : '.' ∉ id'.toList) :
    nodeId c id = nodeId c' id' ↔ c = c' ∧ id = id' := by
  constructor
  · intro same
    have chars : c.toList ++ '.' :: id.toList = c'.toList ++ '.' :: id'.toList := by
      have texts : c ++ "." ++ id = c' ++ "." ++ id' := same
      simpa [String.toList_append, List.append_assoc] using congrArg String.toList texts
    have reversed := congrArg List.reverse chars
    simp only [List.reverse_append, List.reverse_cons, List.append_assoc, List.singleton_append]
      at reversed
    have dotFree : ∀ {id : String}, '.' ∉ id.toList → ∀ x ∈ id.toList.reverse, x != '.' := by
      intro id free x hx
      rw [bne_iff_ne]
      rintro rfl
      exact free (List.mem_reverse.1 hx)
    obtain ⟨ids, rest⟩ := Lua.append_inj_of_forall (dotFree h) (dotFree h') (by simp) (by simp)
      reversed
    have carriers := List.reverse_injective (List.cons.inj rest).2
    exact ⟨String.toList_inj.1 carriers, String.toList_inj.1 (List.reverse_injective ids)⟩
  · rintro ⟨rfl, rfl⟩
    rfl

/-! ### Steps -/

namespace Graph

/-- What a graph must be for its parts to be told apart and found: no field and no node comes twice,
nodes are known by their carrier, a dot and a local name without one, and edges join nodes. -/
structure WellFormed (g : Graph) : Prop where
  state : (g.state.map StateField.name).Nodup
  nodes : (g.nodes.map Node.id).Nodup
  names : ∀ n ∈ g.nodes, ∃ id, n.id = nodeId g.carrier id ∧ '.' ∉ id.toList
  edges : ∀ e ∈ g.edges, g.hasNode e.source ∧ g.hasNode e.target

theorem hasNode_iff (g : Graph) (id : String) : g.hasNode id ↔ id ∈ g.nodes.map Node.id := by
  simp [hasNode, List.any_eq_true]

theorem addStates_eq (g : Graph) (fields : List StateField)
    (distinct : ((g.state ++ fields).map StateField.name).Nodup) :
    fields.foldlM addState g = .ok { g with state := g.state ++ fields } := by
  induction fields generalizing g with
  | nil => simp [pure, Except.pure]
  | cons f fields ih =>
    have new : g.state.any (·.name == f.name) = false := by
      rw [List.map_append, List.map_cons] at distinct
      have apart := (List.nodup_append.1 distinct).2.2
      rw [List.any_eq_false]
      intro other mem same
      exact apart _ (List.mem_map_of_mem mem) _ List.mem_cons_self (beq_iff_eq.1 same)
    have first : g.addState f = .ok { g with state := g.state ++ [f] } := by
      rw [addState, new]
      rfl
    rw [List.foldlM_cons, bind_of_eq_ok first (ih _ (by simpa using distinct))]
    simp

theorem addNodes_eq (g : Graph) (nodes : List (String × Role))
    (distinct : (g.nodes.map Node.id ++ nodes.map fun n => g.fullId n.1).Nodup) :
    nodes.foldlM (fun g n => g.addNode n.1 n.2) g =
      .ok { g with nodes := g.nodes ++ nodes.map fun n => ⟨g.fullId n.1, n.2⟩ } := by
  induction nodes generalizing g with
  | nil => simp [pure, Except.pure]
  | cons n nodes ih =>
    have new : g.hasNode (g.fullId n.1) = false := by
      rw [Bool.eq_false_iff, Ne, hasNode_iff]
      intro mem
      exact (List.nodup_append.1 distinct).2.2 _ mem _ List.mem_cons_self rfl
    have first : g.addNode n.1 n.2 =
        .ok { g with nodes := g.nodes ++ [⟨g.fullId n.1, n.2⟩] } := by
      rw [addNode, new]
      rfl
    -- The carrier does not change on the way, so full names mean the same at every step.
    rw [List.foldlM_cons, bind_of_eq_ok first (ih _ (by simpa [fullId] using distinct))]
    simp [fullId]

theorem link_eq {g : Graph} {source target : String} (h : g.hasNode source)
    (h' : g.hasNode target) : g.link source target = .ok { g with edges := g.edges ++ [⟨source, target⟩] } := by
  simp [link, h, h']

theorem addEdges_eq (g : Graph) (wires : List (String × String))
    (present : ∀ w ∈ wires, g.hasNode (g.fullId w.1) ∧ g.hasNode (g.fullId w.2)) :
    wires.foldlM (fun g w => g.link (g.fullId w.1) (g.fullId w.2)) g =
      .ok { g with edges := g.edges ++ wires.map fun w => ⟨g.fullId w.1, g.fullId w.2⟩ } := by
  induction wires generalizing g with
  | nil => simp [pure, Except.pure]
  | cons w wires ih =>
    obtain ⟨ends, others⟩ := List.forall_mem_cons.1 present
    have rest := ih { g with edges := g.edges ++ [⟨g.fullId w.1, g.fullId w.2⟩] } others
    rw [List.foldlM_cons, bind_of_eq_ok (link_eq ends.1 ends.2) rest]
    simp [fullId]

end Graph

/-! ### Sound blueprints -/

namespace Blueprint

/-- Nothing in a blueprint is named twice, no node has a dot in its local name, and the wires join
nodes of the blueprint. -/
structure Sound (b : Blueprint) : Prop where
  state : (b.state.map StateField.name).Nodup
  nodes : (b.nodes.map Prod.fst).Nodup
  names : ∀ id ∈ b.nodes.map Prod.fst, '.' ∉ id.toList
  wires : ∀ w ∈ b.wires, w.1 ∈ b.nodes.map Prod.fst ∧ w.2 ∈ b.nodes.map Prod.fst

theorem hasNode_unlinked (b : Blueprint) (carrier : String) (kind : Graph.Kind)
    (source script : String) {id : String} (h : id ∈ b.nodes.map Prod.fst) :
    (b.unlinked carrier kind source script).hasNode (nodeId carrier id) := by
  obtain ⟨n, mem, rfl⟩ := List.mem_map.1 h
  rw [Graph.hasNode_iff]
  exact List.mem_map.2 ⟨⟨nodeId carrier n.1, n.2⟩, List.mem_map.2 ⟨n, mem, rfl⟩, rfl⟩

namespace Sound

variable {b : Blueprint} (sound : b.Sound) (carrier : String) (kind : Graph.Kind)
  (source script : String)

include sound

theorem nodup_nodeId : (b.nodes.map fun n => nodeId carrier n.1).Nodup := by
  have full : (b.nodes.map fun n => nodeId carrier n.1) =
      (b.nodes.map Prod.fst).map (nodeId carrier) := by
    rw [List.map_map]
    rfl
  rw [full]
  exact sound.nodes.map fun _ _ => nodeId_inj.1

theorem layOut_eq : b.layOut { carrier, kind, source, script } =
    .ok (b.unlinked carrier kind source script) := by
  rw [layOut, bind_of_eq_ok (Graph.addStates_eq _ _ (by simpa using sound.state)) rfl]
  exact Graph.addNodes_eq _ _ (by simpa [Graph.fullId] using sound.nodup_nodeId carrier)

theorem wire_eq : b.wire (b.unlinked carrier kind source script) =
    .ok (b.graph carrier kind source script) := by
  have ends := Graph.addEdges_eq (b.unlinked carrier kind source script) b.wires fun w hw =>
    ⟨b.hasNode_unlinked carrier kind source script (sound.wires w hw).1,
      b.hasNode_unlinked carrier kind source script (sound.wires w hw).2⟩
  exact ends

theorem wellFormed : (b.graph carrier kind source script).WellFormed where
  state := sound.state
  nodes := by
    show ((b.nodes.map fun n => (⟨nodeId carrier n.1, n.2⟩ : Node)).map Node.id).Nodup
    rw [List.map_map]
    exact sound.nodup_nodeId carrier
  names := by
    intro n hn
    obtain ⟨⟨id, role⟩, mem, rfl⟩ := List.mem_map.1 hn
    exact ⟨id, rfl, sound.names id (List.mem_map_of_mem mem)⟩
  edges := by
    intro e he
    obtain ⟨w, mem, rfl⟩ := List.mem_map.1 he
    exact ⟨b.hasNode_unlinked carrier kind source script (sound.wires w mem).1,
      b.hasNode_unlinked carrier kind source script (sound.wires w mem).2⟩

end Sound

end Blueprint

end SceneLogic
