/-
The graphs of timelines, region triggers and links.

For each kind of record: the actions under the numbered names (`timeline_action?`,
`region_action?`, `link_action?`), the dispatch nodes behind the others, and from these the program
that is played of the graph (`timeline_program`, `region_program`, `link_program`).
-/
import Mathlib.Data.List.Forall2
import SceneLogic.Playback.Program
import SceneLogic.Proofs.Compile.Outcome
namespace SceneLogic.Blueprint

/-! ### Numbered nodes -/

theorem lookup_numbered {α : Type} (f : α → Role) (xs : List α) (first i : Nat) :
    ((xs.zipIdx first).map fun (x, j) => (dispatchName j, f x)).lookup (dispatchName (first + i)) =
      xs[i]?.map f := by
  induction xs generalizing first i with
  | nil => rfl
  | cons x xs ih =>
    rw [List.zipIdx_cons, List.map_cons, List.lookup_cons]
    cases i with
    | zero =>
      rw [Nat.add_zero, BEq.rfl]
      rfl
    | succ i =>
      have shift : first + (i + 1) = first + 1 + i := by omega
      rw [dispatchName_later_beq, List.getElem?_cons_succ, shift]
      exact ih (first + 1) i

theorem lookup_numbered_of_ne {α : Type} (f : α → Role) (xs : List (α × Nat)) {id : String}
    (h : ¬ "dispatch_".toList <+: id.toList) :
    (xs.map fun (x, j) => (dispatchName j, f x)).lookup id = none := by
  rw [List.lookup_eq_none_iff]
  intro p hp
  obtain ⟨⟨x, j⟩, -, rfl⟩ := List.mem_map.1 hp
  exact bne_iff_ne.2 (dispatchName_ne h j).symm

theorem lookup_disableNodes (remainEnabled : Bool) (i : Nat) :
    (disableNodes remainEnabled).lookup (dispatchName i) = none := by
  cases remainEnabled
  · exact List.lookup_eq_none_iff.2 (by
      intro p hp
      cases List.mem_singleton.1 hp
      exact bne_iff_ne.2 (dispatchName_ne (by decide) i))
  · rfl

theorem action?_disableNodes (remainEnabled : Bool) (id : String) :
    ((disableNodes remainEnabled).lookup id).bind Role.action? = none := by
  cases remainEnabled
  · show (List.lookup id [("disable", Role.disable)]).bind Role.action? = none
    rw [List.lookup_cons]
    cases id == "disable" <;> rfl
  · rfl

/-! ### Timelines -/

section Timeline

variable (config : Config) (t : Timeline)

theorem lookup_entries_dispatch (xs : List Timed) (first i : Nat) :
    ((xs.zipIdx first).flatMap fun (e, j) => entryNodes j e).lookup (dispatchName (first + i)) =
      xs[i]?.map fun e => .dispatch e.action none := by
  induction xs generalizing first i with
  | nil => rfl
  | cons e xs ih =>
    have waits : (dispatchName (first + i) == scheduleName first) = false :=
      beq_false_of_ne (dispatchName_ne_scheduleName _ _)
    rw [List.zipIdx_cons, List.flatMap_cons, List.lookup_append]
    show ((List.lookup (dispatchName (first + i)) [(scheduleName first, _),
      (dispatchName first, _)]).or _) = _
    rw [List.lookup_cons, waits, List.lookup_cons]
    cases i with
    | zero =>
      rw [Nat.add_zero, BEq.rfl]
      rfl
    | succ i =>
      have shift : first + (i + 1) = first + 1 + i := by omega
      rw [dispatchName_later_beq, List.getElem?_cons_succ, List.lookup_nil, Option.none_or, shift]
      exact ih (first + 1) i

theorem timeline_action? (i : Nat) :
    (timeline config t).action? (dispatchName i) = t.entries[i]?.map Timed.action := by
  have clock : (dispatchName i == "clock") = false := dispatchName_beq (by decide) i
  have entries := lookup_entries_dispatch t.entries 0 i
  rw [Nat.zero_add] at entries
  rw [action?]
  show ((("clock", _) :: _ : List (String × Role)).lookup _).bind _ = _
  rw [List.lookup_cons, clock]
  show (List.lookup (dispatchName i) (t.entries.zipIdx.flatMap fun (e, i) => entryNodes i e)).bind
    Role.action? = _
  rw [entries]
  cases t.entries[i]? <;> rfl

theorem filter_entryWires (n i : Nat) :
    ((List.range n).flatMap entryWires).filter (·.1 == scheduleName i) =
      if i < n then [(scheduleName i, dispatchName i)] else [] := by
  have clock : ("clock" == scheduleName i) = false :=
    beq_false_of_ne (scheduleName_ne (by decide) i).symm
  induction n with
  | zero => rfl
  | succ n ih =>
    rw [List.range_succ, List.flatMap_append, List.filter_append, ih, List.flatMap_singleton]
    show _ ++ List.filter _ [("clock", scheduleName n), (scheduleName n, dispatchName n)] = _
    by_cases same : n = i
    · subst same
      simp [clock]
    · -- The wires of another entry begin at its own node or at the clock.
      have other : (scheduleName n == scheduleName i) = false := by
        rw [beq_eq_false_iff_ne, Ne, scheduleName_inj]
        exact same
      have step : i < n + 1 ↔ i < n := by omega
      simp [clock, other, step]

theorem timeline_targets {i : Nat} (lt : i < t.entries.length) :
    (timeline config t).targets (scheduleName i) = [dispatchName i] := by
  rw [targets]
  show ((((List.range t.entries.length).flatMap entryWires).filter _).map Prod.snd) = _
  rw [filter_entryWires, if_pos lt]
  rfl

variable (carrier : String) (kind : Graph.Kind) (source script : String)

/-- Behind the schedule node of an entry stands its dispatch node, and no other. -/
theorem timeline_dispatchTargets {i : Nat} (lt : i < t.entries.length) :
    ((timeline config t).graph carrier kind source script).dispatchTargets
      (nodeId carrier (scheduleName i)) = [nodeId carrier (dispatchName i)] := by
  rw [dispatchTargets_graph, timeline_targets config t lt, List.filter_cons, timeline_action?,
    List.getElem?_eq_getElem lt]
  rfl

/-- The nodes of a timeline, under their full names. -/
theorem timeline_nodes :
    ((timeline config t).graph carrier kind source script).nodes =
      ⟨nodeId carrier "clock", .clock config.ticksPerSecond t.lastTime.number⟩ ::
        t.entries.zipIdx.flatMap fun (e, i) =>
          [⟨nodeId carrier (scheduleName i), .schedule e.time.number⟩,
            ⟨nodeId carrier (dispatchName i), .dispatch e.action none⟩] := by
  rw [graph, unlinked, timeline, List.map_cons, List.map_flatMap]
  rfl

theorem timeline_nodesOf_schedule :
    ((timeline config t).graph carrier kind source script).nodesOf .schedule =
      t.entries.zipIdx.map fun (e, i) =>
        ⟨nodeId carrier (scheduleName i), .schedule e.time.number⟩ := by
  rw [Graph.nodesOf, timeline_nodes]
  show List.filter _ (List.flatMap _ _) = _
  rw [List.filter_flatMap, List.map_eq_flatMap]
  rfl

theorem timeline_schedule :
    ((timeline config t).graph carrier kind source script).schedule =
      t.entries.zipIdx.map fun (e, i) =>
        ⟨e.time.number, [nodeId carrier (dispatchName i)]⟩ := by
  rw [Graph.schedule, timeline_nodes]
  show List.filterMap _ (List.flatMap _ _) = _
  rw [List.filterMap_flatMap, List.map_eq_flatMap]
  refine List.flatMap_congr fun p hp => ?_
  obtain ⟨e, i⟩ := p
  have lt : i < t.entries.length := List.snd_lt_of_mem_zipIdx hp
  show [(⟨e.time.number, Graph.dispatchTargets _ (nodeId carrier (scheduleName i))⟩ :
    Scheduled)] = _
  rw [timeline_dispatchTargets config t carrier kind source script lt]

theorem timeline_program :
    ((timeline config t).graph carrier .timeline source script).program =
      .ok (.timeline
        { ticksPerSecond := config.ticksPerSecond
          lastTime := t.lastTime.number
          schedule := t.entries.zipIdx.map fun (e, i) =>
            ⟨e.time.number, [nodeId carrier (dispatchName i)]⟩ }) := by
  have clock : ((timeline config t).graph carrier .timeline source script).clock =
      .ok (config.ticksPerSecond, t.lastTime.number) := by
    rw [Graph.clock, Graph.firstOf?, Graph.nodesOf, timeline_nodes]
    rfl
  have whole : ((timeline config t).graph carrier .timeline source script).program =
      ((timeline config t).graph carrier .timeline source script).timelineProgram.map
        Program.timeline := rfl
  rw [whole, Graph.timelineProgram, clock, timeline_schedule]
  rfl

end Timeline

/-! ### Triggers and links -/

/-- An activate node is wired to every dispatch node, and to the one that disables the holder. -/
theorem targets_activate {b : Blueprint} {condition : String} {n : Nat} {remainEnabled : Bool}
    (wires : b.wires = firing condition n remainEnabled) (other : condition ≠ "activate") :
    b.targets "activate" =
      (List.range n).map dispatchName ++ (disableNodes remainEnabled).map Prod.fst := by
  have pulse : ("pulse" == "activate") = false := rfl
  have sensed : (condition == "activate") = false := beq_false_of_ne other
  rw [targets, wires, firing]
  simp only [List.cons_append, List.filter_cons, pulse, sensed, Bool.false_eq_true, if_false,
    List.filter_append, List.map_append]
  congr 1
  · rw [List.filter_map, List.map_map]
    simp [Function.comp_def]
  · rw [List.filter_map, List.map_map]
    simp [Function.comp_def]

/-- Behind an activate node stand the dispatch nodes, in order. -/
theorem dispatchTargets_activate {b : Blueprint} {condition : String} {n : Nat}
    {remainEnabled : Bool} (carrier : String) (kind : Graph.Kind) (source script : String)
    (wires : b.wires = firing condition n remainEnabled) (other : condition ≠ "activate")
    (dispatch : ∀ i < n, (b.action? (dispatchName i)).isSome)
    (disable : b.action? "disable" = none) :
    (b.graph carrier kind source script).dispatchTargets (nodeId carrier "activate") =
      (List.range n).map fun i => nodeId carrier (dispatchName i) := by
  have kept : ((List.range n).map dispatchName).filter
      (fun target => (b.action? target).isSome) = (List.range n).map dispatchName := by
    rw [List.filter_eq_self]
    intro name hname
    obtain ⟨i, hi, rfl⟩ := List.mem_map.1 hname
    exact dispatch i (List.mem_range.1 hi)
  have dropped : ((disableNodes remainEnabled).map Prod.fst).filter
      (fun target => (b.action? target).isSome) = [] := by
    cases remainEnabled
    · show List.filter _ ["disable"] = []
      rw [List.filter_cons, disable]
      rfl
    · rfl
  rw [dispatchTargets_graph, targets_activate wires other, List.filter_append, kept, dropped,
    List.append_nil, List.map_map]
  rfl

/-- Numbered nodes dispatch, so there are none of another kind among them. -/
theorem filter_numbered {α : Type} (carrier : String) {role : α → Role} {other : Role.Kind}
    (ne : ∀ x, (role x).kind ≠ other) (xs : List α) :
    (xs.zipIdx.map fun (x, i) =>
      (⟨nodeId carrier (dispatchName i), role x⟩ : Node)).filter (·.role.kind == other) = [] := by
  rw [List.filter_map, List.map_eq_nil_iff, List.filter_eq_nil_iff]
  rintro ⟨x, i⟩ - same
  exact ne x (beq_iff_eq.1 same)

theorem filter_disableNodes (carrier : String) {other : Role.Kind} (ne : Role.Kind.disable ≠ other)
    (remainEnabled : Bool) :
    ((disableNodes remainEnabled).map fun (id, role) => (⟨nodeId carrier id, role⟩ : Node)).filter
      (·.role.kind == other) = [] := by
  cases remainEnabled
  · show List.filter _ [(⟨nodeId carrier "disable", .disable⟩ : Node)] = []
    rw [List.filter_cons_of_neg]
    · rfl
    · intro same
      exact ne (beq_iff_eq.1 same)
  · rfl

/-- A holder stays enabled unless there is a node that disables it. -/
theorem isEmpty_filter_disableNodes (carrier : String) (remainEnabled : Bool) :
    (((disableNodes remainEnabled).map fun (id, role) => (⟨nodeId carrier id, role⟩ : Node)).filter
      (·.role.kind == .disable)).isEmpty = remainEnabled := by
  cases remainEnabled <;> rfl

section Region

variable (config : Config) (t : RegionTrigger) (tracked : List String)

theorem region_action? (i : Nat) :
    (region config t tracked).action? (dispatchName i) = t.actions[i]? := by
  have pulse : (dispatchName i == "pulse") = false := dispatchName_beq (by decide) i
  have detect : (dispatchName i == "detect") = false := dispatchName_beq (by decide) i
  have activate : (dispatchName i == "activate") = false := dispatchName_beq (by decide) i
  have numbered := lookup_numbered (fun a => .dispatch a none) t.actions 0 i
  rw [Nat.zero_add] at numbered
  rw [action?, region, List.lookup_append, List.lookup_append, numbered, lookup_disableNodes]
  simp only [List.lookup_cons, pulse, detect, activate, List.lookup_nil, Option.none_or,
    Option.or_none]
  cases t.actions[i]? <;> rfl

theorem region_action?_disable : (region config t tracked).action? "disable" = none := by
  have unnumbered : ¬ "dispatch_".toList <+: "disable".toList := by decide
  have numbered := lookup_numbered_of_ne (fun a => .dispatch a none) t.actions.zipIdx unnumbered
  rw [action?, region, List.lookup_append, List.lookup_append, numbered]
  exact action?_disableNodes t.remainEnabled "disable"

variable (carrier : String) (kind : Graph.Kind) (source script : String)

theorem region_dispatchTargets :
    ((region config t tracked).graph carrier kind source script).dispatchTargets
        (nodeId carrier "activate") =
      (List.range t.actions.length).map fun i => nodeId carrier (dispatchName i) := by
  refine dispatchTargets_activate carrier kind source script rfl (by decide) (fun i hi => ?_)
    (region_action?_disable config t tracked)
  rw [region_action?, List.getElem?_eq_getElem hi]
  rfl

/-- The role of the node that dispatches an action of a trigger. -/
def actionRole (action : Action) : Role := .dispatch action none

theorem region_nodes :
    ((region config t tracked).graph carrier kind source script).nodes =
      [⟨nodeId carrier "pulse", .pulse⟩, ⟨nodeId carrier "detect", .detect (regionTest t tracked)⟩,
        ⟨nodeId carrier "activate", .activate
          (secondsToTicks t.duration.number config.ticksPerSecond) (holdTicks config t.actions)⟩] ++
      (t.actions.zipIdx.map fun (action, i) =>
        (⟨nodeId carrier (dispatchName i), actionRole action⟩ : Node)) ++
      (disableNodes t.remainEnabled).map fun (id, role) => ⟨nodeId carrier id, role⟩ := by
  rw [graph, unlinked, region, List.map_append, List.map_append, List.map_map]
  rfl

theorem region_nodesOf_activate :
    ((region config t tracked).graph carrier kind source script).nodesOf .activate =
      [⟨nodeId carrier "activate",
        .activate (secondsToTicks t.duration.number config.ticksPerSecond)
          (holdTicks config t.actions)⟩] := by
  rw [Graph.nodesOf, region_nodes, List.filter_append, List.filter_append,
    filter_numbered carrier (by rintro _ ⟨⟩), filter_disableNodes carrier (by rintro ⟨⟩)]
  rfl

theorem region_remainsEnabled :
    ((region config t tracked).graph carrier kind source script).remainsEnabled =
      t.remainEnabled := by
  rw [Graph.remainsEnabled, Graph.nodesOf, region_nodes, List.filter_append, List.filter_append,
    filter_numbered carrier (by rintro _ ⟨⟩)]
  exact isEmpty_filter_disableNodes carrier t.remainEnabled

theorem region_test :
    ((region config t tracked).graph carrier kind source script).test =
      .ok (regionTest t tracked) := by
  rw [Graph.test, Graph.firstOf?, Graph.nodesOf, region_nodes]
  rfl

theorem region_program :
    ((region config t tracked).graph carrier .region source script).program =
      .ok (.region
        { test := regionTest t tracked
          sustainTicks := secondsToTicks t.duration.number config.ticksPerSecond
          activeTicks := holdTicks config t.actions
          dispatch := (List.range t.actions.length).map fun i => nodeId carrier (dispatchName i)
          remainEnabled := t.remainEnabled }) := by
  have activation : ((region config t tracked).graph carrier .region source script).activation =
      .ok (nodeId carrier "activate", secondsToTicks t.duration.number config.ticksPerSecond,
        holdTicks config t.actions) := by
    rw [Graph.activation, Graph.firstOf?, Graph.nodesOf, region_nodes]
    rfl
  have whole : ((region config t tracked).graph carrier .region source script).program =
      ((region config t tracked).graph carrier .region source script).regionProgram.map
        Program.region := rfl
  rw [whole, Graph.regionProgram, region_test, activation, region_remainsEnabled]
  show Except.map Program.region (Except.ok { dispatch := Graph.dispatchTargets _ _, .. }) = _
  rw [region_dispatchTargets]
  rfl

end Region

section Link

variable (config : Config) (carrier : String) (l : ClickLink) (object : String)

/-- The role of the node that dispatches an action of a link. -/
def boundRole (bound : ClickCount × Action) : Role := .dispatch bound.2 (some bound.1)

theorem link_action? (i : Nat) :
    (link config carrier l object).action? (dispatchName i) =
      (boundActions l.lists.entries)[i]?.map Prod.snd := by
  have pulse : (dispatchName i == "pulse") = false := dispatchName_beq (by decide) i
  have click : (dispatchName i == "click") = false := dispatchName_beq (by decide) i
  have activate : (dispatchName i == "activate") = false := dispatchName_beq (by decide) i
  have numbered := lookup_numbered boundRole (boundActions l.lists.entries) 0 i
  rw [Nat.zero_add] at numbered
  rw [action?, link, List.lookup_append, List.lookup_append, lookup_disableNodes]
  simp only [List.lookup_cons, pulse, click, activate, List.lookup_nil, Option.or_none]
  show (List.lookup (dispatchName i) ((boundActions l.lists.entries).zipIdx.map fun x =>
    (dispatchName x.2, boundRole x.1))).bind Role.action? = _
  rw [numbered]
  cases (boundActions l.lists.entries)[i]? <;> rfl

/-- Bindings hold for the ticks of the lists that they are for. -/
theorem bindings_hold (first : Nat) (lists : List (ClickCount × List Action)) :
    List.Forall₂ (fun b e => b.clicks = e.1 ∧ b.activeTicks = holdTicks config e.2)
      (bindings config carrier first lists) lists := by
  induction lists generalizing first with
  | nil => exact .nil
  | cons e lists ih =>
    obtain ⟨count, actions⟩ := e
    refine List.Forall₂.cons ⟨rfl, ?_⟩ (ih _)
    dsimp only

variable (kind : Graph.Kind) (source script : String)

theorem link_nodes :
    ((link config carrier l object).graph carrier kind source script).nodes =
      ((boundActions l.lists.entries).zipIdx.map fun (bound, i) =>
        (⟨nodeId carrier (dispatchName i), boundRole bound⟩ : Node)) ++
      [⟨nodeId carrier "pulse", .pulse⟩,
        ⟨nodeId carrier "click",
          .click object l.resetNumber (bindings config carrier 0 l.lists.entries)⟩,
        ⟨nodeId carrier "activate",
          .activate 0 (longestHold (bindings config carrier 0 l.lists.entries))⟩] ++
      (disableNodes l.remainEnabled).map fun (id, role) => ⟨nodeId carrier id, role⟩ := by
  rw [graph, unlinked, link, List.map_append, List.map_append, List.map_map]
  rfl

theorem link_remainsEnabled :
    ((link config carrier l object).graph carrier kind source script).remainsEnabled =
      l.remainEnabled := by
  rw [Graph.remainsEnabled, Graph.nodesOf, link_nodes, List.filter_append, List.filter_append,
    filter_numbered carrier (by rintro _ ⟨⟩)]
  exact isEmpty_filter_disableNodes carrier l.remainEnabled

theorem link_nodesOf_click :
    ((link config carrier l object).graph carrier kind source script).nodesOf .click =
      [⟨nodeId carrier "click",
        .click object l.resetNumber (bindings config carrier 0 l.lists.entries)⟩] := by
  rw [Graph.nodesOf, link_nodes, List.filter_append, List.filter_append,
    filter_numbered carrier (by rintro _ ⟨⟩), filter_disableNodes carrier (by rintro ⟨⟩)]
  rfl

theorem link_nodesOf_activate :
    ((link config carrier l object).graph carrier kind source script).nodesOf .activate =
      [⟨nodeId carrier "activate",
        .activate 0 (longestHold (bindings config carrier 0 l.lists.entries))⟩] := by
  rw [Graph.nodesOf, link_nodes, List.filter_append, List.filter_append,
    filter_numbered carrier (by rintro _ ⟨⟩), filter_disableNodes carrier (by rintro ⟨⟩)]
  rfl

theorem link_program :
    ((link config carrier l object).graph carrier .link source script).program =
      .ok (.link
        { reset := l.resetNumber
          bindings := bindings config carrier 0 l.lists.entries
          remainEnabled := l.remainEnabled }) := by
  have clicks : ((link config carrier l object).graph carrier .link source script).clicks =
      .ok (l.resetNumber, bindings config carrier 0 l.lists.entries) := by
    rw [Graph.clicks, Graph.firstOf?, link_nodesOf_click]
    rfl
  have whole : ((link config carrier l object).graph carrier .link source script).program =
      ((link config carrier l object).graph carrier .link source script).linkProgram.map
        Program.link := rfl
  rw [whole, Graph.linkProgram, clicks, link_remainsEnabled]
  rfl

end Link

end SceneLogic.Blueprint
