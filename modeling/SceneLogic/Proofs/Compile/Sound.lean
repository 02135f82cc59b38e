/-
Blueprints of records are sound.

Nodes are named by fixed words and by numbers behind a stem, so no two nodes of a blueprint have
one name and no name has a dot; wires join nodes that the blueprint has.  `Subject.blueprint_sound`
says so of every blueprint that a record leads to.
-/
import SceneLogic.Proofs.Graph.Building
namespace SceneLogic

namespace Blueprint

/-! ### Local names -/

/-- A character that is no digit is in a numbered name only if it is in the stem. -/
theorem notMem_numbered {c : Char} (other : ¬ c.isDigit) {stem : String} (h : c ∉ stem.toList)
    (i : Nat) : c ∉ (stem ++ Nat.repr i).toList := by
  rw [String.toList_append, List.mem_append, Nat.toList_repr, not_or]
  exact ⟨h, fun mem => other (Nat.isDigit_of_mem_toDigits (by decide) (by decide) mem)⟩

theorem dot_notMem_dispatchName (i : Nat) : '.' ∉ (dispatchName i).toList :=
  notMem_numbered (by decide) (by decide) i

theorem dot_notMem_scheduleName (i : Nat) : '.' ∉ (scheduleName i).toList :=
  notMem_numbered (by decide) (by decide) i

/-- The names of numbered items are those of the numbers. -/
theorem map_zipIdx_snd {α β : Type} (f : Nat → β) (xs : List α) :
    (xs.zipIdx.map fun p => f p.2) = (List.range xs.length).map f := by
  have numbers := List.zipIdx_map_snd 0 xs
  rw [← List.range_eq_range'] at numbers
  rw [← numbers, List.map_map]
  rfl

theorem nodup_dispatchNames (n : Nat) : ((List.range n).map dispatchName).Nodup :=
  List.nodup_range.map fun _ _ => dispatchName_inj.1

/-! ### Timelines -/

/-- The local names of the nodes of an entry. -/
def entryNames (i : Nat) : List String := [scheduleName i, dispatchName i]

theorem map_fst_timeline (config : Config) (t : Timeline) :
    (timeline config t).nodes.map Prod.fst =
      "clock" :: (List.range t.entries.length).flatMap entryNames := by
  have names := map_zipIdx_snd entryNames t.entries
  rw [timeline, List.map_cons, List.map_flatMap, List.flatMap_def, List.flatMap_def, ← names]
  rfl

theorem nodup_entryNames (n : Nat) : ((List.range n).flatMap entryNames).Nodup := by
  rw [List.nodup_flatMap]
  constructor
  · intro i _
    have apart : scheduleName i ≠ dispatchName i := (dispatchName_ne_scheduleName i i).symm
    simp [entryNames, apart]
  · refine List.nodup_range.imp fun {i j} different => ?_
    have schedules : scheduleName j ≠ scheduleName i :=
      fun h => different (scheduleName_inj.1 h).symm
    have dispatches : dispatchName j ≠ dispatchName i :=
      fun h => different (dispatchName_inj.1 h).symm
    have mixed := dispatchName_ne_scheduleName j i
    have mixed' := (dispatchName_ne_scheduleName i j).symm
    simp [Function.onFun, entryNames, schedules, dispatches, mixed, mixed']

theorem timeline_sound (config : Config) (t : Timeline) : (timeline config t).Sound where
  state := List.nodup_singleton _
  nodes := by
    rw [map_fst_timeline, List.nodup_cons]
    refine ⟨fun mem => ?_, nodup_entryNames _⟩
    obtain ⟨i, -, mem⟩ := List.mem_flatMap.1 mem
    rcases List.mem_pair.1 mem with same | same
    · exact scheduleName_ne (by decide) i same.symm
    · exact dispatchName_ne (by decide) i same.symm
  names := by
    intro id hid
    rw [map_fst_timeline, List.mem_cons] at hid
    rcases hid with rfl | mem
    · decide
    · obtain ⟨i, -, mem⟩ := List.mem_flatMap.1 mem
      rcases List.mem_pair.1 mem with rfl | rfl
      · exact dot_notMem_scheduleName i
      · exact dot_notMem_dispatchName i
  wires := by
    intro w hw
    obtain ⟨i, hi, mem⟩ := List.mem_flatMap.1 hw
    have named : ∀ id ∈ entryNames i, id ∈ (timeline config t).nodes.map Prod.fst := by
      intro id hid
      rw [map_fst_timeline]
      exact List.mem_cons_of_mem _ (List.mem_flatMap.2 ⟨i, hi, hid⟩)
    have schedule := named _ List.mem_cons_self
    have dispatch := named _ (List.mem_cons_of_mem _ List.mem_cons_self)
    rcases List.mem_pair.1 mem with rfl | rfl
    · exact ⟨by rw [map_fst_timeline]; exact List.mem_cons_self, schedule⟩
    · exact ⟨schedule, dispatch⟩

/-! ### Triggers and links -/

/-- The fixed names in a blueprint that fires on a condition. -/
def fixedNames (condition : String) : List String := ["pulse", condition, "activate", "disable"]

/-- The fixed names are told apart from each other and from the numbered ones. -/
structure FixedNames (condition : String) : Prop where
  nodup : (fixedNames condition).Nodup
  plain : ∀ id ∈ fixedNames condition, '.' ∉ id.toList ∧ ¬ "dispatch_".toList <+: id.toList

/-- The names of a blueprint that fires on a condition, apart from those of its dispatch nodes. -/
def firingNames (condition : String) (remainEnabled : Bool) : List String :=
  ["pulse", condition, "activate"] ++ (disableNodes remainEnabled).map Prod.fst

theorem firingNames_sublist (condition : String) (remainEnabled : Bool) :
    (firingNames condition remainEnabled).Sublist (fixedNames condition) := by
  cases remainEnabled
  · exact List.Sublist.refl _
  · exact List.prefix_append ["pulse", condition, "activate"] ["disable"] |>.sublist

/-- A blueprint that fires on a condition, up to the order of its nodes. -/
structure Fires (b : Blueprint) (condition : String) (dispatches : Nat) (remainEnabled : Bool) :
    Prop where
  names : (b.nodes.map Prod.fst).Perm
    (firingNames condition remainEnabled ++ (List.range dispatches).map dispatchName)
  wires : b.wires = firing condition dispatches remainEnabled

namespace Fires

variable {b : Blueprint} {condition : String} {dispatches : Nat} {remainEnabled : Bool}

theorem mem_names (h : b.Fires condition dispatches remainEnabled) {id : String} :
    id ∈ b.nodes.map Prod.fst ↔
      id ∈ firingNames condition remainEnabled ∨ ∃ i < dispatches, dispatchName i = id := by
  rw [h.names.mem_iff, List.mem_append, List.mem_map]
  simp only [List.mem_range]

theorem sound (h : b.Fires condition dispatches remainEnabled) (fixed : FixedNames condition)
    (state : (b.state.map StateField.name).Nodup) : b.Sound where
  state := state
  nodes := by
    rw [h.names.nodup_iff, List.nodup_append]
    refine ⟨fixed.nodup.sublist (firingNames_sublist _ _), nodup_dispatchNames _, ?_⟩
    intro id hid other hother same
    obtain ⟨i, -, rfl⟩ := List.mem_map.1 hother
    have word := (fixed.plain id ((firingNames_sublist _ _).mem hid)).2
    exact dispatchName_ne word i same.symm
  names := by
    intro id hid
    rcases h.mem_names.1 hid with word | ⟨i, -, rfl⟩
    · exact (fixed.plain id ((firingNames_sublist _ _).mem word)).1
    · exact dot_notMem_dispatchName i
  wires := by
    intro w hw
    have word : ∀ id ∈ firingNames condition remainEnabled, id ∈ b.nodes.map Prod.fst :=
      fun id hid => h.mem_names.2 (.inl hid)
    have activate := word "activate" (by simp [firingNames])
    rw [h.wires, firing, List.cons_append, List.cons_append, List.mem_cons, List.mem_cons,
      List.mem_append, List.mem_map, List.mem_map] at hw
    rcases hw with rfl | rfl | ⟨i, hi, rfl⟩ | ⟨n, hn, rfl⟩
    · exact ⟨word _ (by simp [firingNames]), activate⟩
    · exact ⟨word _ (by simp [firingNames]), activate⟩
    · exact ⟨activate, h.mem_names.2 (.inr ⟨i, List.mem_range.1 hi, rfl⟩)⟩
    · exact ⟨activate, word _ (List.mem_append_right _ (List.mem_map_of_mem hn))⟩

end Fires

theorem region_fires (config : Config) (t : RegionTrigger) (tracked : List String) :
    (region config t tracked).Fires "detect" t.actions.length t.remainEnabled := by
  refine ⟨?_, rfl⟩
  have numbers := map_zipIdx_snd dispatchName t.actions
  rw [← numbers, firingNames, List.append_assoc]
  simp only [region, List.map_append, List.map_map, List.append_assoc]
  exact List.Perm.append_left _ List.perm_append_comm

theorem region_sound (config : Config) (t : RegionTrigger) (tracked : List String) :
    (region config t tracked).Sound := by
  have state : ["enabled", "status"].Nodup := by decide
  exact (region_fires config t tracked).sound ⟨by decide, by decide⟩ state

theorem link_fires (config : Config) (carrier : String) (l : ClickLink) (object : String) :
    (link config carrier l object).Fires "click"
      (boundActions l.lists.entries).length l.remainEnabled := by
  refine ⟨?_, rfl⟩
  have numbers := map_zipIdx_snd dispatchName (boundActions l.lists.entries)
  rw [← numbers, firingNames]
  simp only [link, List.map_append, List.map_map, List.append_assoc]
  exact List.perm_append_comm

theorem link_sound (config : Config) (carrier : String) (l : ClickLink) (object : String) :
    (link config carrier l object).Sound := by
  have state : ["enabled", "status", "clicks"].Nodup := by decide
  exact (link_fires config carrier l object).sound ⟨by decide, by decide⟩ state

end Blueprint

/-- **Every blueprint is sound.** -/
theorem Subject.blueprint_sound {s : Subject} {config : Config} {scene : Scene}
    {blueprint : Blueprint} {log : List Log.Entry}
    (h : s.blueprint config scene = .ok (blueprint, log)) : blueprint.Sound := by
  cases s with
  | timeline t carrier =>
    cases h
    exact Blueprint.timeline_sound config t
  | region t carrier =>
    obtain ⟨tracked, -, plan⟩ := bind_eq_ok.1 h
    cases plan
    exact Blueprint.region_sound config t tracked
  | link l object =>
    rw [Subject.blueprint] at h
    split at h
    · cases h
      exact Blueprint.link_sound config _ l object.name
    · cases h

end SceneLogic
