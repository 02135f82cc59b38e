/-
What a compiled trigger tracks.

A trigger that compiles tracks the objects that its names stood for at that moment
(`RegionTrigger.trackedIn_eq_ok`).  A group stands for its members as they were defined, so what
is tracked has a place unless it was removed behind the back of a group that the trigger names
(`Compilation.region_tracks`).  `orphan_is_tracked` is an instance.
-/
import SceneLogic.Proofs.Compile.Outcome
import SceneLogic.Proofs.Region.Firing
import SceneLogic.Proofs.Scene.Changes
namespace SceneLogic

/-- The objects that a trigger tracks are those its names stand for, which all stand for some. -/
theorem RegionTrigger.trackedIn_eq_ok {t : RegionTrigger} {scene : Scene} {tracked : List String}
    (h : t.trackedIn scene = .ok tracked) :
    (∀ name ∈ t.tracked.names, (scene.resolve? name).isSome) ∧
      ∀ m, m ∈ tracked ↔
        ∃ name ∈ t.tracked.names, ∃ members, scene.resolve? name = some members ∧ m ∈ members := by
  obtain ⟨lists, resolved, same⟩ := bind_eq_ok.1 h
  cases same
  have found := mapM_eq_ok_iff.1 resolved
  clear h resolved
  generalize t.tracked.names = names at found
  induction found with
  | nil => simp
  | @cons name members names lists first _ ih =>
    have known : scene.resolve? name = some members := by
      split at first
      · next members' known =>
        cases first
        exact known
      · cases first
    obtain ⟨all, mem⟩ := ih
    refine ⟨List.forall_mem_cons.2 ⟨by rw [known]; rfl, all⟩, fun m => ?_⟩
    rw [List.flatten_cons, List.mem_append, mem, List.exists_mem_cons_iff, known]
    simp

/-- **What a compiled trigger tracks.**  Every name it refers to stands for something, and what it
tracks has a place, except for the orphans of groups that it refers to. -/
theorem Compilation.region_tracks (changes : List Scene.Change) :
    (∀ group members m, (Scene.after changes).groups.get? group = some members → m ∈ members →
      ((Scene.after changes).hasObject m = false ↔ Scene.Orphaned changes group m)) ∧
    ∀ (c c' : Compilation) (config : Config) (t : RegionTrigger) (object : Option String)
      (compiled : Compiled),
      c.compile config (Scene.after changes) (.region t) object = (.ok compiled, c') →
      (∀ name ∈ t.tracked.names, ((Scene.after changes).resolve? name).isSome) ∧
      ∃ test, compiled.graph.test = .ok test ∧ ∀ m ∈ test.objects,
        ((Scene.after changes).position? m = none ↔
          ∃ group ∈ t.tracked.names, Scene.Orphaned changes group m) := by
  refine ⟨fun group members m known mem => Scene.hasObject_eq_false_iff changes known mem, ?_⟩
  intro c c' config t object compiled compiles
  obtain ⟨carrier, script, tracked, found, graph⟩ := compile_region compiles
  obtain ⟨all, mem_tracked⟩ := RegionTrigger.trackedIn_eq_ok found
  refine ⟨all, Blueprint.regionTest t tracked, ?_, fun m mem => ?_⟩
  · rw [graph, Blueprint.region_test]
  · rw [Scene.position?_eq_none_iff]
    constructor
    · intro away
      obtain ⟨name, named, members, known, mem⟩ := (mem_tracked m).1 (List.mem_eraseDups.1 mem)
      rw [Scene.resolve?] at known
      split at known
      · next here =>
        -- An object stands for itself, and it is there.
        cases known
        rw [List.mem_singleton.1 mem, here] at away
        cases away
      · exact ⟨name, named, (Scene.hasObject_eq_false_iff changes known mem).1 away⟩
    · rintro ⟨group, -, orphaned⟩
      exact orphaned.hasObject_eq_false

/-- A player joins the movers and goes. -/
def playerGoes : List Scene.Change :=
  [.add "player" [0, 0, 0], .define "movers" ["player"], .remove "player"]

/-- A trigger that tracks the movers. -/
def moversTrigger : RegionTrigger :=
  { Playback.doorTrigger with tracked := .group ⟨"movers", by decide⟩ }

/-- The trigger compiles after the player has gone, and tracks the player. -/
theorem moversTrigger_compiles :
    ∃ compiled c' test,
      Compilation.compile { names := .empty } Compilation.plainConfig (Scene.after playerGoes)
        (.region moversTrigger) none = (.ok compiled, c') ∧
      compiled.graph.test = .ok test ∧ "player" ∈ test.objects := by
  have plays : Compilation.playsAs { names := .empty } Compilation.plainConfig
      (Scene.after playerGoes) (.region moversTrigger) none
      (fun g _ => g.test.toOption.any fun test => "player" ∈ test.objects) := by
    decide +kernel
  obtain ⟨compiled, c', -, compiles, -, check⟩ := Compilation.exists_of_playsAs plays
  cases found : compiled.graph.test with
  | error fault =>
    rw [found] at check
    cases check
  | ok test =>
    rw [found] at check
    exact ⟨compiled, c', test, compiles, found, of_decide_eq_true check⟩

/-- The player is an orphan of the movers. -/
theorem player_orphaned :
    ∃ compiled c' test,
      Compilation.compile { names := .empty } Compilation.plainConfig (Scene.after playerGoes)
        (.region moversTrigger) none = (.ok compiled, c') ∧
      compiled.graph.test = .ok test ∧ "player" ∈ test.objects ∧
      ∃ group ∈ moversTrigger.tracked.names, Scene.Orphaned playerGoes group "player" := by
  obtain ⟨compiled, c', test, compiles, found, mem⟩ := moversTrigger_compiles
  obtain ⟨-, law⟩ := Compilation.region_tracks playerGoes
  obtain ⟨-, test', found', tracks⟩ := law _ c' _ _ _ compiled compiles
  obtain rfl : test = test' := Except.ok.inj (found.symm.trans found')
  exact ⟨compiled, c', test, compiles, found, mem, (tracks "player" mem).1 (by decide +kernel)⟩

/-- **What a trigger tracks may be away**: a group keeps the members that are removed. -/
theorem orphan_is_tracked :
    ∃ compiled c' test,
      Compilation.compile { names := .empty } Compilation.plainConfig (Scene.after playerGoes)
        (.region moversTrigger) none = (.ok compiled, c') ∧
      compiled.graph.test = .ok test ∧ "player" ∈ test.objects ∧
      (Scene.after playerGoes).position? "player" = none ∧
      (Scene.after playerGoes).groups.get? "movers" = some ["player"] := by
  obtain ⟨compiled, c', test, compiles, found, mem⟩ := moversTrigger_compiles
  exact ⟨compiled, c', test, compiles, found, mem, by decide +kernel, by decide +kernel⟩

end SceneLogic
