/-
Compilation preserves what is dispatched.

The nodes of a compiled graph are numbered across lists, flattened into one list and found again by
name, along edges or through bindings.  `compile_keeps` says that each condition still leads to the
actions of its record, in order: the entries of a timeline one by one, the actions of a region
trigger behind its activate node, and for every click the list that the link itself chooses
(`forClick_dispatch`).
-/
import Mathlib.Data.Option.Basic
import SceneLogic.Proofs.Compile.Blueprints
namespace SceneLogic

namespace Blueprint

/-- Numbered nodes that carry the actions of a list one by one carry them all, in order. -/
theorem carries_numbered {g : Graph} {name : Nat → String} {actions : List Action}
    (carried : ∀ i (h : i < actions.length), g.action? (name i) = some actions[i]) :
    ((List.range actions.length).map name).map g.action? = actions.map some := by
  refine List.ext_getElem (by simp) fun i hi hi' => ?_
  have lt : i < actions.length := by simpa using hi'
  rw [List.getElem_map, List.getElem_map, List.getElem_map, List.getElem_range]
  exact carried i lt

section Link

variable (config : Config) (carrier : String) (l : ClickLink) (object : String)
variable (kind : Graph.Kind) (source script : String)

/-- A binding dispatches the actions of a bound list. -/
def Dispatches (g : Graph) (b : ClickBinding) (e : ClickCount × List Action) : Prop :=
  b.clicks = e.1 ∧ b.dispatch.map g.action? = e.2.map some

/-- Bindings dispatch their lists, if the dispatch nodes behind the first carry the actions. -/
theorem bindings_dispatch (g : Graph) (first : Nat) (lists : List (ClickCount × List Action))
    (carried : ∀ i < (boundActions lists).length,
      g.action? (nodeId carrier (dispatchName (first + i))) =
        (boundActions lists)[i]?.map Prod.snd) :
    List.Forall₂ (Dispatches g) (bindings config carrier first lists) lists := by
  induction lists generalizing first with
  | nil => exact List.Forall₂.nil
  | cons head rest ih =>
    obtain ⟨count, actions⟩ := head
    have split : boundActions ((count, actions) :: rest) =
        actions.map (fun action => (count, action)) ++ boundActions rest := rfl
    rw [split] at carried
    refine List.Forall₂.cons ⟨rfl, ?_⟩ (ih (first + actions.length) fun i hi => ?_)
    · -- The nodes of this list are the next ones.
      refine carries_numbered fun i lt => ?_
      have at_i := carried i (by rw [List.length_append, List.length_map]; omega)
      rw [List.getElem?_append_left (by rw [List.length_map]; exact lt), List.getElem?_map,
        List.getElem?_eq_getElem lt] at at_i
      exact at_i
    · have := carried (actions.length + i) (by rw [List.length_append, List.length_map]; omega)
      rw [List.getElem?_append_right (by rw [List.length_map]; omega), List.length_map,
        Nat.add_sub_cancel_left] at this
      rw [Nat.add_assoc]
      exact this

/-- The lists of a compiled link are dispatched by their bindings. -/
theorem link_bindings_dispatch :
    List.Forall₂ (Dispatches ((link config carrier l object).graph carrier kind source script))
      (bindings config carrier 0 l.lists.entries) l.lists.entries := by
  refine bindings_dispatch config carrier _ 0 _ fun i _ => ?_
  rw [Nat.zero_add, action?_graph, link_action?]

/-- They are held for their ticks as well. -/
theorem link_bindings :
    List.Forall₂ (fun b e => Dispatches ((link config carrier l object).graph carrier kind source
        script) b e ∧ b.activeTicks = holdTicks config e.2)
      (bindings config carrier 0 l.lists.entries) l.lists.entries := by
  obtain ⟨length, dispatched⟩ :=
    List.forall₂_iff_zip.1 (link_bindings_dispatch config carrier l object kind source script)
  obtain ⟨-, held⟩ := List.forall₂_iff_zip.1 (bindings_hold config carrier 0 l.lists.entries)
  exact List.forall₂_iff_zip.2 ⟨length, fun mem => ⟨dispatched mem, (held mem).2⟩⟩

end Link

/-- Bindings and lists that go together are found together. -/
theorem find?_dispatch {g : Graph} {bs : List ClickBinding} {es : List (ClickCount × List Action)}
    (h : List.Forall₂ (Dispatches g) bs es) (test : ClickCount → Bool) :
    Option.Rel (Dispatches g) (bs.find? fun b => test b.clicks) (es.find? fun e => test e.1) := by
  induction h with
  | nil => exact Option.Rel.none
  | @cons b e bs es head _ ih =>
    rw [List.find?_cons, List.find?_cons, head.1]
    cases test e.1
    · exact ih
    · exact Option.Rel.some head

theorem lookup_eq_find? (es : List (ClickCount × List Action)) (count : ClickCount) :
    es.lookup count = (es.find? fun e => decide (e.1 = count)).map Prod.snd := by
  induction es with
  | nil => rfl
  | cons e es ih =>
    obtain ⟨c, actions⟩ := e
    rw [List.lookup_cons, List.find?_cons]
    by_cases same : c = count
    · rw [decide_eq_true same, same, BEq.rfl]
      rfl
    · rw [decide_eq_false same, beq_false_of_ne (Ne.symm same)]
      exact ih

/-- The dispatch nodes for a click carry the actions for it. -/
theorem forClick_dispatch {g : Graph} {bs : List ClickBinding} {lists : ClickLists}
    (h : List.Forall₂ (Dispatches g) bs lists.entries) (click : Number) :
    (((ClickBinding.forClick? bs click).map ClickBinding.dispatch).getD []).map g.action? =
      (lists.forClick click).map some := by
  have numbered := find?_dispatch h (ClickCount.isOf click)
  have any := find?_dispatch h (fun count => decide (count = .any))
  rw [ClickBinding.forClick?, ClickLists.forClick]
  -- The list of the number comes first on both sides, and then the one for any click.
  generalize bs.find? (fun b => b.clicks.isOf click) = b at numbered ⊢
  generalize lists.entries.find? (fun e => e.1.isOf click) = e at numbered ⊢
  cases numbered with
  | some dispatches => exact dispatches.2
  | none =>
    dsimp only
    rw [Option.none_or, ClickLists.boundTo, lookup_eq_find?]
    generalize bs.find? (fun b => decide (b.clicks = .any)) = b at any ⊢
    generalize lists.entries.find? (fun e => decide (e.1 = .any)) = e at any ⊢
    cases any with
    | some dispatches => exact dispatches.2
    | none => rfl

end Blueprint

/-! ### Compiled records -/

namespace Graph

/-- There is a node that disables the holder. -/
def Disables (g : Graph) : Prop := ∃ node ∈ g.nodes, node.role = .disable

/-- Some nodes dispatch some actions, in order. -/
def Carries (g : Graph) (ids : List String) (actions : List Action) : Prop :=
  ids.map g.action? = actions.map some

/-- A graph dispatches what its record says. -/
def Keeps (g : Graph) : Record → Prop
  | .timeline t =>
    List.Forall₂ (fun node entry => node.role = .schedule entry.time.number ∧
      ∃ id, g.dispatchTargets node.id = [id] ∧ g.action? id = some entry.action)
      (g.nodesOf .schedule) t.entries
  | .region t =>
    (∃ id sustainTicks activeTicks,
      g.nodesOf .activate = [⟨id, .activate sustainTicks activeTicks⟩] ∧ g.Carries (g.dispatchTargets id) t.actions) ∧
    (g.Disables ↔ t.remainEnabled = false)
  | .link l =>
    (∃ id object reset bindings, g.nodesOf .click = [⟨id, .click object reset bindings⟩] ∧
      ∀ click, g.Carries
        (((ClickBinding.forClick? bindings click).map ClickBinding.dispatch).getD [])
        (l.lists.forClick click)) ∧
    (g.Disables ↔ l.remainEnabled = false)

/-- A holder stays enabled exactly if no node disables it. -/
theorem disables_iff (g : Graph) : g.Disables ↔ g.remainsEnabled = false := by
  rw [Disables, remainsEnabled, nodesOf]
  rw [List.isEmpty_eq_false_iff, Ne, List.filter_eq_nil_iff]
  constructor
  · rintro ⟨node, mem, role⟩ none
    refine none node mem ?_
    rw [role]
    rfl
  · intro some
    by_contra none
    refine some fun node mem kind => none ⟨node, mem, ?_⟩
    -- Disable nodes are the only ones of their kind.
    cases h : node.role <;> rw [h] at kind <;> first | rfl | cases kind

end Graph

namespace Blueprint

variable (config : Config) (carrier : String) (kind : Graph.Kind) (source script : String)

theorem timeline_keeps (t : Timeline) :
    ((timeline config t).graph carrier kind source script).Keeps (.timeline t) := by
  show List.Forall₂ _ (Graph.nodesOf _ _) t.entries
  rw [timeline_nodesOf_schedule, List.forall₂_iff_get]
  refine ⟨by simp, ?_⟩
  intro i hi hi'
  rw [List.get_eq_getElem, List.getElem_map, List.getElem_zipIdx, Nat.zero_add]
  refine ⟨rfl, nodeId carrier (dispatchName i), ?_, ?_⟩
  · exact timeline_dispatchTargets config t carrier kind source script hi'
  · rw [action?_graph, timeline_action?, List.getElem?_eq_getElem hi']
    rfl

/-- The numbered nodes of a trigger carry its actions. -/
theorem region_carries (t : RegionTrigger) (tracked : List String) :
    ((region config t tracked).graph carrier kind source script).Carries
      ((List.range t.actions.length).map fun i => nodeId carrier (dispatchName i)) t.actions := by
  refine carries_numbered fun i lt => ?_
  rw [action?_graph, region_action?, List.getElem?_eq_getElem lt]

theorem region_keeps (t : RegionTrigger) (tracked : List String) :
    ((region config t tracked).graph carrier kind source script).Keeps (.region t) := by
  refine ⟨⟨_, _, _, region_nodesOf_activate config t tracked carrier kind source script, ?_⟩, ?_⟩
  · rw [region_dispatchTargets]
    exact region_carries config carrier kind source script t tracked
  · rw [Graph.disables_iff, region_remainsEnabled]

theorem link_keeps (l : ClickLink) (object : String) :
    ((link config carrier l object).graph carrier kind source script).Keeps (.link l) := by
  refine ⟨⟨_, _, _, _, link_nodesOf_click config carrier l object kind source script,
    fun click => ?_⟩, ?_⟩
  · have bound := link_bindings_dispatch config carrier l object kind source script
    exact forClick_dispatch bound click
  · rw [Graph.disables_iff, link_remainsEnabled]

end Blueprint

/-- **Compilation preserves the dispatch lists.**  The graph of a record that compiles dispatches
what the record says, and has a node that disables it exactly if the record does not remain
enabled. -/
theorem compile_keeps {c c' : Compilation} {config : Config} {scene : Scene} {record : Record}
    {object : Option String} {compiled : Compiled}
    (h : c.compile config scene record object = (.ok compiled, c')) :
    compiled.graph.Keeps record := by
  cases record with
  | timeline t =>
    obtain ⟨carrier, script, graph⟩ := Compilation.compile_timeline h
    rw [graph]
    exact Blueprint.timeline_keeps config carrier _ _ script t
  | region t =>
    obtain ⟨carrier, script, tracked, -, graph⟩ := Compilation.compile_region h
    rw [graph]
    exact Blueprint.region_keeps config carrier _ _ script t tracked
  | link l =>
    obtain ⟨target, script, -, graph⟩ := Compilation.compile_link h
    rw [graph]
    exact Blueprint.link_keeps config _ _ _ script l target.name

/-- A scene with a door at its origin. -/
def doorScene : Scene := { Scene.empty with objects := Table.empty.insert "door" ⟨0, 0, 0⟩ }

theorem door_not_blank : ¬ Text.Blank "door" := by decide

/-- The door of this scene. -/
def doorTarget : Target := ⟨"door", door_not_blank⟩

theorem isProper_two : ClickCount.isProper (.exactly 2) := by decide +kernel

/-- A link that has a list for any click, one for the second and an empty one for the third, and
that answers to no further click once it has fired. -/
def doorLink : ClickLink where
  enabled := true
  remainEnabled := false
  enabledColor := ClickLink.standardEnabledColor
  selectedColor := ClickLink.standardSelectedColor
  lists :=
    ((ClickLists.empty.bind .any rfl [.reset]).bind (.exactly 2) isProper_two
      [.link doorTarget .enable, .reset]).bind (.exactly 3) (by decide +kernel) []
  reset := none
  reset_bound := by simp

theorem compile_keeps_doorLink :
    ∃ compiled c', Compilation.compile { names := .empty } Compilation.plainConfig doorScene
        (.link doorLink) (some "door") = (.ok compiled, c') ∧
      compiled.graph.Keeps (.link doorLink) := by
  have plays : Compilation.playsAs { names := .empty } Compilation.plainConfig doorScene
      (.link doorLink) (some "door") (fun _ _ => true) := by decide +kernel
  obtain ⟨compiled, c', _, compiles, -, -⟩ := Compilation.exists_of_playsAs plays
  exact ⟨compiled, c', compiles, compile_keeps compiles⟩

end SceneLogic
