/-
Drawings of graphs.

A drawing shows the nodes and edges of its graph in order, and no two nodes at one place, because
every column is filled from the top (`Graph.nodup_place`).  The blueprints of records are layered
(`Subject.blueprint_layered`): sources and conditions stand in the first column, what they fire in
the second and effects in the third, so every wire leads one column to the right and no way along
them comes back to where it began.

An edge is known by the names of its ends with an arrow between them.  A carrier may have arrows in
its name, but a node has none in its local name, and the two ends have the same carrier: behind it,
the first dash ends the local name of the first end (`Graph.drawEdge_id_inj`).  With all of this
`Graph.draws_left_to_right` says that what is drawn of a record is a drawing from left to right.
-/
import Mathlib.Logic.Relation
import SceneLogic.Graph.Layout
import SceneLogic.Proofs.Compile.Dispatches
namespace SceneLogic

namespace Graph

/-! ### Places -/

/-- Where a node is drawn. -/
def Drawn.place (n : Drawn) : Nat × Nat := (n.x, n.y)

/-- Nodes are drawn in the columns of their kinds, below those that are drawn there already. -/
theorem exists_row {drawn : List Nat} {nodes : List Node} {n : Drawn}
    (mem : n ∈ drawNodes drawn nodes) :
    ∃ row, drawn.count (column n.kind) ≤ row ∧
      n.place = (column n.kind * columnWidth, row * rowHeight) := by
  induction nodes generalizing drawn with
  | nil => cases mem
  | cons first nodes ih =>
    rcases List.mem_cons.1 mem with rfl | later
    · exact ⟨_, Nat.le_refl _, rfl⟩
    · obtain ⟨row, below, place⟩ := ih later
      exact ⟨row, List.count_le_count_cons.trans below, place⟩

/-- No two nodes are drawn at one place. -/
theorem nodup_place (drawn : List Nat) (nodes : List Node) :
    ((drawNodes drawn nodes).map Drawn.place).Nodup := by
  induction nodes generalizing drawn with
  | nil => exact List.nodup_nil
  | cons first nodes ih =>
    rw [drawNodes, List.map_cons, List.nodup_cons]
    refine ⟨fun mem => ?_, ih _⟩
    obtain ⟨later, drawnLater, same⟩ := List.mem_map.1 mem
    obtain ⟨row, below, place⟩ := exists_row drawnLater
    obtain ⟨across, down⟩ := Prod.mk.inj (place.symm.trans same)
    have columns : column later.kind = column first.role.kind :=
      Nat.eq_of_mul_eq_mul_right (by decide) across
    have rows : row = drawn.count (column first.role.kind) :=
      Nat.eq_of_mul_eq_mul_right (by decide) down
    -- The first node takes up a row of its column, which the later one has to leave out.
    rw [columns, List.count_cons_self] at below
    omega

/-- What is drawn of a node. -/
theorem exists_drawn (drawn : List Nat) {nodes : List Node} {n : Node} (mem : n ∈ nodes) :
    ∃ d ∈ drawNodes drawn nodes, d.id = n.id ∧ d.x = column n.role.kind * columnWidth := by
  induction nodes generalizing drawn with
  | nil => cases mem
  | cons first nodes ih =>
    rcases List.mem_cons.1 mem with rfl | later
    · exact ⟨_, List.mem_cons_self, rfl, rfl⟩
    · obtain ⟨d, drawnLater, shown⟩ := ih (column first.role.kind :: drawn) later
      exact ⟨d, List.mem_cons_of_mem _ drawnLater, shown⟩

/-- A drawing shows the nodes and the edges of a graph, in order. -/
structure Drawing.Shows (d : Drawing) (g : Graph) : Prop where
  nodes : d.nodes.map (fun n => (n.id, n.label, n.kind)) =
    g.nodes.map fun n => (n.id, describe n.role, n.role.kind)
  edges : d.edges.map (fun e => (e.source, e.target)) = g.edges.map fun e => (e.source, e.target)
  names : ∀ e ∈ d.edges, e.id = e.source ++ "->" ++ e.target

theorem draw_shows (g : Graph) : (draw g).Shows g where
  nodes := by
    have shown : ∀ drawn, (drawNodes drawn g.nodes).map (fun n => (n.id, n.label, n.kind)) =
        g.nodes.map fun n => (n.id, describe n.role, n.role.kind) := by
      induction g.nodes with
      | nil => exact fun _ => rfl
      | cons n nodes ih => exact fun _ => congrArg (_ :: ·) (ih _)
    exact shown []
  edges := List.map_map
  names := by
    intro e mem
    obtain ⟨edge, -, rfl⟩ := List.mem_map.1 mem
    rfl

/-! ### Names of edges -/

/-- Edges of one carrier are told apart by their names, whatever the carrier is called. -/
theorem drawEdge_id_inj {carrier a b a' b' : String} (plain : '-' ∉ a.toList)
    (plain' : '-' ∉ a'.toList) :
    (drawEdge ⟨nodeId carrier a, nodeId carrier b⟩).id =
      (drawEdge ⟨nodeId carrier a', nodeId carrier b'⟩).id ↔ a = a' ∧ b = b' := by
  constructor
  · intro same
    have chars : ∀ a b : String, (drawEdge ⟨nodeId carrier a, nodeId carrier b⟩).id.toList =
        (carrier.toList ++ ['.']) ++ (a.toList ++ '-' :: '>' :: (nodeId carrier b).toList) := by
      intro a b
      show (carrier ++ "." ++ a ++ "->" ++ nodeId carrier b).toList = _
      simp [String.toList_append]
    have behind := congrArg String.toList same
    rw [chars, chars, List.append_cancel_left_eq] at behind
    have dashless : ∀ {id : String}, '-' ∉ id.toList → ∀ c ∈ id.toList, c != '-' := by
      intro id free c mem
      rw [bne_iff_ne]
      rintro rfl
      exact free mem
    obtain ⟨sources, rest⟩ := Lua.append_inj_of_forall (dashless plain) (dashless plain') (by simp)
      (by simp) behind
    have targets := (List.cons.inj (List.cons.inj rest).2).2
    exact ⟨String.toList_inj.1 sources, nodeId_inj.1 (String.toList_inj.1 targets)⟩
  · rintro ⟨rfl, rfl⟩
    rfl

/-! ### Columns -/

namespace Drawing

variable {d : Drawing}

/-- An edge leads from a node to another one in the next column on the right. -/
def LeadsRight (d : Drawing) (e : DrawnEdge) : Prop :=
  ∃ s ∈ d.nodes, ∃ t ∈ d.nodes, s.id = e.source ∧ t.id = e.target ∧ t.x = s.x + columnWidth

/-- Some edge leads from one name to another. -/
def Joins (d : Drawing) (source target : String) : Prop :=
  ∃ e ∈ d.edges, e.source = source ∧ e.target = target

/-- Nodes are told apart by their names, every edge leads one column to the right, and edges are
told apart by theirs. -/
structure LeftToRight (d : Drawing) : Prop where
  nodes : (d.nodes.map Drawn.id).Nodup
  edges : ∀ e ∈ d.edges, d.LeadsRight e
  names : (d.edges.map DrawnEdge.id).Nodup

/-- A way along edges ends further on the right than where it begins. -/
theorem LeftToRight.lt_of_transGen (right : d.LeftToRight) {source target : String}
    (way : Relation.TransGen d.Joins source target) :
    ∃ s ∈ d.nodes, ∃ t ∈ d.nodes, s.id = source ∧ t.id = target ∧ s.x < t.x := by
  have width : 0 < columnWidth := by decide
  induction way with
  | single joined =>
    obtain ⟨e, mem, rfl, rfl⟩ := joined
    obtain ⟨s, drawn, t, drawn', start, stop, next⟩ := right.edges e mem
    exact ⟨s, drawn, t, drawn', start, stop, by omega⟩
  | tail _ joined ih =>
    obtain ⟨e, mem, rfl, rfl⟩ := joined
    obtain ⟨s, drawn, m, drawnM, start, middle, less⟩ := ih
    obtain ⟨m', drawnM', t, drawn', middle', stop, next⟩ := right.edges e mem
    -- The node at which the last edge begins is the one that was reached.
    cases List.inj_on_of_nodup_map right.nodes drawnM' drawnM (middle'.trans middle.symm)
    exact ⟨s, drawn, t, drawn', start, stop, by omega⟩

/-- No way along edges comes back. -/
theorem LeftToRight.acyclic (right : d.LeftToRight) (id : String) :
    ¬ Relation.TransGen d.Joins id id := by
  intro way
  obtain ⟨s, drawn, t, drawn', start, stop, less⟩ := right.lt_of_transGen way
  cases List.inj_on_of_nodup_map right.nodes drawn drawn' (start.trans stop.symm)
  exact Nat.lt_irrefl _ less

end Drawing

end Graph

namespace Blueprint

/-- A wire leads from a node to another one in the next column, no wire comes twice, and no wire
begins at a name with a dash. -/
structure Layered (b : Blueprint) : Prop where
  columns : ∀ w ∈ b.wires, ∃ role role', (w.1, role) ∈ b.nodes ∧ (w.2, role') ∈ b.nodes ∧
    Graph.column role'.kind = Graph.column role.kind + 1
  distinct : b.wires.Nodup
  plain : ∀ w ∈ b.wires, '-' ∉ w.1.toList

theorem Layered.leftToRight {b : Blueprint} (layered : b.Layered) (sound : b.Sound)
    (carrier : String) (kind : Graph.Kind) (source script : String) :
    (Graph.draw (b.graph carrier kind source script)).LeftToRight where
  nodes := by
    have ids := (sound.wellFormed carrier kind source script).nodes
    have shown := congrArg (List.map Prod.fst)
      (Graph.draw_shows (b.graph carrier kind source script)).nodes
    rw [List.map_map, List.map_map] at shown
    exact shown ▸ ids
  edges := by
    intro e mem
    obtain ⟨edge, linked, rfl⟩ := List.mem_map.1 mem
    obtain ⟨w, wired, rfl⟩ := List.mem_map.1 linked
    obtain ⟨role, role', first, second, next⟩ := layered.columns w wired
    have node : ∀ {id : String} {role : Role}, (id, role) ∈ b.nodes →
        (⟨nodeId carrier id, role⟩ : Node) ∈ (b.graph carrier kind source script).nodes :=
      fun mem => List.mem_map.2 ⟨_, mem, rfl⟩
    obtain ⟨s, drawn, start, left⟩ := Graph.exists_drawn [] (node first)
    obtain ⟨t, drawn', stop, right⟩ := Graph.exists_drawn [] (node second)
    refine ⟨s, drawn, t, drawn', start, stop, ?_⟩
    rw [right, next, left, Nat.add_mul, Nat.one_mul]
  names := by
    show (List.map Graph.DrawnEdge.id (List.map Graph.drawEdge (b.wires.map _))).Nodup
    rw [List.map_map, List.map_map]
    refine List.Nodup.map_on ?_ layered.distinct
    intro w wired w' wired' same
    obtain ⟨sources, targets⟩ := (Graph.drawEdge_id_inj (layered.plain w wired)
      (layered.plain w' wired')).1 same
    exact Prod.ext sources targets

/-! ### Layered blueprints -/

theorem timeline_layered (config : Config) (t : Timeline) : (timeline config t).Layered where
  columns := by
    intro w mem
    obtain ⟨i, listed, own⟩ := List.mem_flatMap.1 mem
    obtain ⟨e, entry⟩ : ∃ e, (e, i) ∈ t.entries.zipIdx :=
      ⟨_, List.mk_mem_zipIdx_iff_getElem?.2 (List.getElem?_eq_getElem (List.mem_range.1 listed))⟩
    have schedule : (scheduleName i, Role.schedule e.time.number) ∈ (timeline config t).nodes :=
      List.mem_cons_of_mem _ (List.mem_flatMap.2 ⟨_, entry, List.mem_cons_self⟩)
    have dispatch : (dispatchName i, Role.dispatch e.action none) ∈ (timeline config t).nodes :=
      List.mem_cons_of_mem _ (List.mem_flatMap.2 ⟨_, entry, List.mem_cons_of_mem _ List.mem_cons_self⟩)
    rcases List.mem_pair.1 own with rfl | rfl
    · exact ⟨_, _, List.mem_cons_self, schedule, rfl⟩
    · exact ⟨_, _, schedule, dispatch, rfl⟩
  distinct := by
    -- No two wires lead to one node.
    have targets : (timeline config t).wires.map Prod.snd =
        (List.range t.entries.length).flatMap entryNames := List.map_flatMap
    exact List.Nodup.of_map _ (targets ▸ nodup_entryNames _)
  plain := by
    intro w mem
    obtain ⟨i, -, own⟩ := List.mem_flatMap.1 mem
    rcases List.mem_pair.1 own with rfl | rfl
    · show '-' ∉ "clock".toList
      decide
    · exact notMem_numbered (by decide) (by decide) i

/-- The nodes that an activate node is wired to. -/
def effectNames (dispatches : Nat) (remainEnabled : Bool) : List String :=
  (List.range dispatches).map dispatchName ++ (disableNodes remainEnabled).map Prod.fst

section Firing

variable (condition : String) (n : Nat) (remainEnabled : Bool)

theorem firing_eq : firing condition n remainEnabled = ("pulse", "activate") ::
    (condition, "activate") :: (effectNames n remainEnabled).map (Prod.mk "activate") := by
  rw [firing, effectNames, List.map_append, List.map_map, List.map_map]
  rfl

variable {condition n remainEnabled}

theorem nodup_firing
    (names : (firingNames condition remainEnabled ++ (List.range n).map dispatchName).Nodup) :
    (firing condition n remainEnabled).Nodup := by
  have parts : ("pulse" :: condition :: "activate" :: ((disableNodes remainEnabled).map Prod.fst ++
      (List.range n).map dispatchName)).Nodup := names
  simp only [List.nodup_cons, List.mem_cons, not_or] at parts
  obtain ⟨⟨notCondition, notActivate, -⟩, ⟨notActivate', -⟩, -, nodup⟩ := parts
  -- All but the first two wires begin at the activate node, and they lead to different nodes.
  have begins : ∀ source ≠ "activate",
      (source, "activate") ∉ (effectNames n remainEnabled).map (Prod.mk "activate") := by
    intro source other mem
    obtain ⟨target, -, same⟩ := List.mem_map.1 mem
    exact other (congrArg Prod.fst same).symm
  have effects : (effectNames n remainEnabled).Nodup := List.perm_append_comm.nodup_iff.1 nodup
  rw [firing_eq, List.nodup_cons, List.nodup_cons, List.mem_cons, not_or]
  exact ⟨⟨fun same => notCondition (congrArg Prod.fst same), begins _ notActivate⟩,
    begins _ notActivate', effects.map fun _ _ same => congrArg Prod.snd same⟩

theorem dash_notMem_firing (dashless : '-' ∉ condition.toList) :
    ∀ w ∈ firing condition n remainEnabled, '-' ∉ w.1.toList := by
  rw [firing_eq, List.forall_mem_cons, List.forall_mem_cons, List.forall_mem_map]
  refine ⟨?_, dashless, fun _ _ => ?_⟩
  · show '-' ∉ "pulse".toList
    decide
  · show '-' ∉ "activate".toList
    decide

end Firing

/-- What fires on a condition is layered: the pulse and the condition come before the activate node,
and this before all that it is wired to. -/
theorem Fires.layered {b : Blueprint} {condition : String} {n : Nat} {remainEnabled : Bool}
    {sustainTicks activeTicks : Number} (fires : b.Fires condition n remainEnabled)
    (sound : b.Sound) (dashless : '-' ∉ condition.toList) (role : Role)
    (first : Graph.column role.kind = 0)
    (fixed : [("pulse", .pulse), (condition, role),
      ("activate", .activate sustainTicks activeTicks)] ⊆ b.nodes)
    (dispatch : ∀ i < n, ∃ action clicks, (dispatchName i, Role.dispatch action clicks) ∈ b.nodes)
    (disable : disableNodes remainEnabled ⊆ b.nodes) : b.Layered where
  columns := by
    obtain ⟨pulse, sensed, activate⟩ : ("pulse", .pulse) ∈ b.nodes ∧ (condition, role) ∈ b.nodes ∧
        ("activate", .activate sustainTicks activeTicks) ∈ b.nodes := by
      simpa only [List.cons_subset, List.nil_subset, and_true] using fixed
    rw [fires.wires, firing_eq, List.forall_mem_cons, List.forall_mem_cons, List.forall_mem_map,
      effectNames, List.forall_mem_append, List.forall_mem_map, List.forall_mem_map]
    refine ⟨⟨_, _, pulse, activate, rfl⟩, ⟨_, _, sensed, activate, by rw [first]; rfl⟩, ?_, ?_⟩
    · intro i lt
      obtain ⟨action, clicks, node⟩ := dispatch i (List.mem_range.1 lt)
      exact ⟨_, _, activate, node, rfl⟩
    · intro node mem
      have role : node.2 = .disable := by
        cases remainEnabled <;> simp_all [disableNodes]
      exact ⟨_, _, activate, disable mem, by rw [role]; rfl⟩
  distinct := fires.wires ▸ nodup_firing (fires.names.nodup_iff.1 sound.nodes)
  plain := fires.wires ▸ dash_notMem_firing dashless

theorem mem_numbered {α : Type} (f : α → Role) {xs : List α} {i : Nat} (lt : i < xs.length) :
    (dispatchName i, f xs[i]) ∈ xs.zipIdx.map fun (x, j) => (dispatchName j, f x) := by
  have entry : (xs[i], i) ∈ xs.zipIdx :=
    List.mk_mem_zipIdx_iff_getElem?.2 (List.getElem?_eq_getElem lt)
  exact List.mem_map.2 ⟨_, entry, rfl⟩

theorem region_layered (config : Config) (t : RegionTrigger) (tracked : List String) :
    (region config t tracked).Layered := by
  refine (region_fires config t tracked).layered (region_sound config t tracked) (by decide)
    (.detect (regionTest t tracked)) rfl
    (List.subset_append_of_subset_left _ (List.subset_append_left _ _)) (fun i lt => ?_)
    (List.subset_append_right _ _)
  have node := mem_numbered (fun action => .dispatch action none) lt
  exact ⟨_, _, List.mem_append_left _ (List.mem_append_right _ node)⟩

theorem link_layered (config : Config) (carrier : String) (l : ClickLink) (object : String) :
    (link config carrier l object).Layered := by
  refine (link_fires config carrier l object).layered (link_sound config carrier l object)
    (by decide) (.click object l.resetNumber (bindings config carrier 0 l.lists.entries))
    rfl (List.subset_append_of_subset_left _ (List.subset_append_right _ _)) (fun i lt => ?_)
    (List.subset_append_right _ _)
  have node := mem_numbered (fun bound : ClickCount × Action => .dispatch bound.2 (some bound.1)) lt
  exact ⟨_, _, List.mem_append_left _ (List.mem_append_left _ node)⟩

end Blueprint

/-- **Every blueprint is layered.** -/
theorem Subject.blueprint_layered {s : Subject} {config : Config} {scene : Scene}
    {blueprint : Blueprint} {log : List Log.Entry}
    (h : s.blueprint config scene = .ok (blueprint, log)) : blueprint.Layered := by
  cases s with
  | timeline t carrier =>
    cases h
    exact Blueprint.timeline_layered config t
  | region t carrier =>
    obtain ⟨tracked, -, plan⟩ := bind_eq_ok.1 h
    cases plan
    exact Blueprint.region_layered config t tracked
  | link l object =>
    rw [Subject.blueprint] at h
    split at h
    · cases h
      exact Blueprint.link_layered config _ l object.name
    · cases h

/-! ### Drawings of records -/

/-- **Drawings are proper.**  The drawing of a graph shows its nodes and edges in order, with no two
nodes at one place.  What is drawn of a record is a drawing from left to right, so that no way along
its edges comes back. -/
theorem Graph.draws_left_to_right (g : Graph) :
    (draw g).Shows g ∧ ((draw g).nodes.map Drawn.place).Nodup ∧
    ∀ (c : Compilation) (config : Config) (scene : Scene) (record : Record)
      (object : Option String), c.linkedGraph config scene record object = .ok g →
      (draw g).LeftToRight ∧ ∀ id, ¬ Relation.TransGen (draw g).Joins id id := by
  refine ⟨draw_shows g, nodup_place [] g.nodes, ?_⟩
  intro c config scene record object linked
  obtain ⟨subject, blueprint, log, -, plan, rfl⟩ := Compilation.linkedGraph_eq_ok linked
  have right := (Subject.blueprint_layered plan).leftToRight (Subject.blueprint_sound plan)
    subject.carrier subject.kind subject.source (scriptName config subject.carrier)
  exact ⟨right, right.acyclic⟩

/-- A scene with a passage that has an arrow in its name. -/
def passageScene : Scene :=
  { Scene.empty with objects := Table.empty.insert "hall->attic" ⟨0, 0, 0⟩ }

/-- A link on the passage is drawn from left to right, with an arrow more in the name of each end of
its edges. -/
theorem passage_drawn_left_to_right :
    ∃ g, Compilation.linkedGraph { names := .empty } Compilation.plainConfig passageScene
        (.link doorLink) (some "hall->attic") = .ok g ∧
      g.carrier = "link_hall->attic" ∧ g.edges.length = 6 ∧ (Graph.draw g).Shows g ∧
      ((Graph.draw g).nodes.map Graph.Drawn.place).Nodup ∧ (Graph.draw g).LeftToRight ∧
      ∀ id, ¬ Relation.TransGen (Graph.draw g).Joins id id := by
  have linked : (Compilation.linkedGraph { names := .empty } Compilation.plainConfig passageScene
      (.link doorLink) (some "hall->attic")).map (fun g => (g.carrier, g.edges.length)) =
        .ok ("link_hall->attic", 6) := by decide +kernel
  obtain ⟨g, linked, parts⟩ := exists_of_map_eq_ok linked
  obtain ⟨carrier, edges⟩ := Prod.mk.inj parts
  obtain ⟨shows, places, records⟩ := Graph.draws_left_to_right g
  obtain ⟨right, acyclic⟩ := records _ _ _ _ _ linked
  exact ⟨g, linked, carrier, edges, shows, places, right, acyclic⟩

end SceneLogic
