/-
A reset is a fresh start.

Whichever command has a reset among the actions that it applies, and whatever else is among them, it
ends with the reset of everything (`perform_eq_reset`).  What is loaded then is what loading the
same graphs anew would give, but for the number of ticks so far, and that number shows only in the
numbers of later events (`performAll_delayed`).  So a run behind a reset is a run from the
beginning: `reset_starts_afresh`.
-/
import SceneLogic.Proofs.Compile.Dispatches
import SceneLogic.Proofs.Playback.Runs
namespace SceneLogic

/-! ### Later ticks -/

/-- An event some ticks later. -/
def Event.delayed (n : Nat) (e : Event) : Event := { e with tick := n + e.tick }

namespace Playback

/-- The same playback some ticks later. -/
def delayed (n : Nat) (p : Playback) : Playback := { p with ticks := n + p.ticks }

variable (n : Nat) (p : Playback)

theorem eventsOf_delayed (tick : Nat) (g : Graph) (nodes : List String) :
    eventsOf (n + tick) g nodes = (eventsOf tick g nodes).map (·.delayed n) := by
  rw [eventsOf, eventsOf, List.map_filterMap]
  congr 1
  funext node
  rw [Option.map_map]
  rfl

theorem evaluateAll_delayed (position? : String → Option (Triple Number)) :
    (p.delayed n).evaluateAll position? = ((p.evaluateAll position?).1.delayed n,
      (p.evaluateAll position?).2.map (·.delayed n)) := by
  refine Prod.ext rfl ?_
  show List.flatMap _ p.loaded = List.map _ (List.flatMap _ p.loaded)
  rw [List.map_flatMap]
  congr 1
  funext l
  exact eventsOf_delayed n p.ticks l.graph _

theorem deliver_delayed (object : String) : (p.delayed n).deliver object =
    ((p.deliver object).1.delayed n, (p.deliver object).2.map (·.delayed n)) := by
  have same : (p.delayed n).find? .link object = p.find? .link object := rfl
  rw [deliver, deliver, same]
  cases p.find? .link object with
  | some l => exact Prod.ext rfl (eventsOf_delayed n p.ticks l.graph _)
  | none => rfl

theorem deliverAll_delayed (objects : List String) : (p.delayed n).deliverAll objects =
    ((p.deliverAll objects).1.delayed n, (p.deliverAll objects).2.map (·.delayed n)) := by
  induction objects generalizing p with
  | nil => rfl
  | cons object rest ih =>
    simp only [deliverAll]
    rw [deliver_delayed]
    dsimp only
    rw [ih, List.map_append]

theorem apply_delayed (actions : List Action) :
    (p.delayed n).apply actions = (p.apply actions).delayed n := by
  have applied : ∀ q : Playback,
      actions.foldl applyOne (q.delayed n) = (actions.foldl applyOne q).delayed n := by
    induction actions with
    | nil => exact fun _ => rfl
    | cons a actions ih =>
      intro q
      have first : (q.delayed n).applyOne a = (q.applyOne a).delayed n := by
        rw [applyOne_eq, applyOne_eq]
        rfl
      rw [List.foldl_cons, first, ih, List.foldl_cons]
  simp only [apply, applied]
  split <;> rfl

theorem map_action_delayed (events : List Event) :
    (events.map (·.delayed n)).map Event.action = events.map Event.action :=
  List.map_map

theorem respond_delayed (position? : String → Option (Triple Number)) :
    (p.delayed n).respond position? =
      ((p.respond position?).1.delayed n, (p.respond position?).2.map (·.delayed n)) := by
  have begun : { p.delayed n with ticks := (p.delayed n).ticks + 1, queued := [] } =
      { p with ticks := p.ticks + 1, queued := [] }.delayed n := rfl
  simp only [respond]
  rw [begun, evaluateAll_delayed]
  dsimp only
  rw [deliverAll_delayed, List.map_append]
  rfl

/-- The number of ticks so far shows only in the numbers of events. -/
theorem perform_delayed (c : Command) : (p.delayed n).perform c =
    ((p.perform c).1.delayed n, (p.perform c).2.map (·.delayed n)) := by
  cases c with
  | load g =>
    show ((p.delayed n).tryLoad g, _) = _
    rw [tryLoad_eq, perform, tryLoad_eq]
    rfl
  | unload | reset => rfl
  | tick position? =>
    rw [perform_tick, perform_tick, respond_delayed, map_action_delayed, apply_delayed]
  | click object =>
    rw [perform_click, perform_click, deliver_delayed, map_action_delayed, apply_delayed]
  | apply actions => exact Prod.ext (p.apply_delayed n actions) rfl

theorem performAll_delayed (cs : List Command) : (p.delayed n).performAll cs =
    ((p.performAll cs).1.delayed n, (p.performAll cs).2.map (·.delayed n)) := by
  induction cs generalizing p with
  | nil => rfl
  | cons c cs ih => rw [performAll_cons, perform_delayed, ih, performAll_cons, List.map_append]

/-! ### Resets among actions -/

/-- The actions that carrying out a command applies. -/
def applied (p : Playback) : Command → List Action
  | .tick position? => (p.tick position?).2.events.map Event.action
  | .click object => (p.click object).2.2.events.map Event.action
  | .apply actions => actions
  | .load _ | .unload _ | .reset => []

variable {p : Playback}

/-- **A reset among the actions applied comes last**, whatever the others are. -/
theorem perform_eq_reset {c : Command} (requested : .reset ∈ p.applied c) :
    ∃ q : Playback, q.repertoire = p.repertoire ∧ (p.perform c).1 = q.reset := by
  have other : c.isLoading = false := by
    cases c with
    | load | unload => cases requested
    | tick | click | apply | reset => rfl
  -- Commands differ in what comes before the actions are applied, and that does not matter.
  obtain ⟨first, whole⟩ : ∃ first, p.moments c = first ++ settling (p.applied c) := by
    cases c with
    | load | unload | reset => cases requested
    | tick position? => exact ⟨.evaluate position? :: p.queued.map .deliver, rfl⟩
    | click object => exact ⟨[.deliver object], rfl⟩
    | apply actions => exact ⟨[], rfl⟩
  rw [settling, if_pos requested, ← List.append_assoc] at whole
  refine ⟨p.after (first ++ (p.applied c).map .effect), ?_, ?_⟩
  · refine p.repertoire_after fun m hm => isLoading_moments (p := p) other ?_
    rw [whole]
    exact List.mem_append_left _ hm
  · rw [perform_eq, whole, after_append]
    rfl

/-- What an orderly playback has loaded can be loaded anew, and is then as a reset leaves it. -/
theorem Orderly.loadAll (orderly : p.Orderly) :
    ({} : Playback).loadAll p.graphs = .ok { loaded := p.loaded.map Loaded.restored } := by
  refine loadAll_eq_ok.2 ⟨orderly.distinct, fun _ _ => List.not_mem_nil, _, ?_, rfl⟩
  rw [graphs, List.forall₂_map_left_iff, List.forall₂_map_right_iff, List.forall₂_same]
  intro l hl
  exact Loaded.ofGraph_eq_restored (orderly.programs _ (List.mem_map_of_mem hl))

/-- **A reset is a fresh start.**  Whenever a reset is among the actions that a command applies, the
same graphs are loaded afterwards, each in its initial state and with nothing kept, and no click is
queued; and all that follows goes as in a playback into which these graphs were just loaded, with
events and ticks counted on from there. -/
theorem reset_starts_afresh {past : List Command} {c : Command}
    (reached : (({} : Playback).performAll past).1 = p) (requested : .reset ∈ p.applied c) :
    (p.perform c).1.graphs = p.graphs ∧
    (∀ l ∈ (p.perform c).1.loaded, l.holder = l.graph.initialHolder ∧ l.memory = {}) ∧
    (p.perform c).1.queued = [] ∧
    ∃ fresh, ({} : Playback).loadAll p.graphs = .ok fresh ∧
      ∀ later, (p.perform c).1.performAll later =
        ((fresh.performAll later).1.delayed (p.perform c).1.ticks,
          (fresh.performAll later).2.map (·.delayed (p.perform c).1.ticks)) := by
  -- The command resets a playback with the same graphs, all of which can be loaded anew.
  have orderly : p.Orderly := reached ▸ orderly_performAll past
  obtain ⟨q, same, done⟩ := perform_eq_reset requested
  have graphs : q.graphs = p.graphs := by rw [graphs_eq, graphs_eq, same]
  have fresh := (orderly.congr same).loadAll
  rw [done, ← graphs]
  refine ⟨?_, ?_, rfl, _, fresh, fun later => ?_⟩
  · show (q.loaded.map Loaded.restored).map Loaded.graph = q.loaded.map Loaded.graph
    rw [List.map_map]
    rfl
  · intro l hl
    obtain ⟨x, -, rfl⟩ := List.mem_map.1 hl
    exact ⟨rfl, rfl⟩
  · rw [← performAll_delayed]
    rfl

/-- The first click on a door resets the scene. -/
theorem doorLink_starts_afresh :
    ∃ compiled c' p, Compilation.compile { names := .empty } Compilation.plainConfig doorScene
        (.link doorLink) (some "door") = (.ok compiled, c') ∧
      (({} : Playback).performAll [.load compiled.graph, .tick doorScene.position?]).1 = p ∧
      .reset ∈ p.applied (.click "door") ∧
      (p.perform (.click "door")).1.queued = [] ∧
      ∃ fresh, ({} : Playback).loadAll p.graphs = .ok fresh ∧
        ∀ later, (p.perform (.click "door")).1.performAll later =
          ((fresh.performAll later).1.delayed (p.perform (.click "door")).1.ticks,
            (fresh.performAll later).2.map (·.delayed (p.perform (.click "door")).1.ticks)) := by
  have plays : Compilation.playsAs { names := .empty } Compilation.plainConfig doorScene
      (.link doorLink) (some "door") (fun g _ =>
        .reset ∈ (({} : Playback).performAll [.load g, .tick doorScene.position?]).1.applied
          (.click "door")) := by
    decide +kernel
  obtain ⟨compiled, c', _, compiles, -, requested⟩ := Compilation.exists_of_playsAs plays
  have requested := of_decide_eq_true requested
  obtain ⟨-, -, queued, fresh⟩ := reset_starts_afresh rfl requested
  exact ⟨compiled, c', _, compiles, rfl, requested, queued, fresh⟩

end Playback

end SceneLogic
