/-
Graphs that were just loaded.

A graph is loaded as it is made, and the impacts that it meets from then on decide what becomes of
it and what it dispatches, whatever happened before (`newcomer_law`).  One thing alone outlasts the
unloading of a graph and the loading of another: a click that waits in the queue, which is delivered
to whatever link is on its object by the next tick (`reloaded_door_hears`).  So a link that is
loaded while a click on its object waits has a past, and every other graph has none.
-/
import SceneLogic.Proofs.Playback.Bystander
import SceneLogic.Proofs.Playback.Queue
import SceneLogic.Proofs.Playback.Stories
namespace SceneLogic.Playback

variable {p p₀ : Playback} {g : Graph} {l : Loaded} {past earlier : List Command}

/-! ### What waits in the queue -/

/-- The activations of a past that still wait for their clicks after what happened since. -/
def leftover (past since : List (Playback × Moment)) : List (Playback × Moment) :=
  if since.any emptiesQueue then [] else awaiting past

theorem awaiting_append (past since : List (Playback × Moment)) :
    awaiting (past ++ since) = leftover past since ++ awaiting since := by
  induction since using List.reverseRecOn with
  | nil => simp [leftover, awaiting]
  | append_singleton since x ih =>
    rw [← List.append_assoc, awaiting_concat, awaiting_concat, ih, leftover, leftover,
      List.any_append, List.any_cons, List.any_nil, Bool.or_false]
    cases emptiesQueue x
    · rw [Bool.or_false, if_neg Bool.false_ne_true, if_neg Bool.false_ne_true, List.append_assoc]
    · rw [Bool.or_true, if_pos rfl, if_pos rfl, if_pos rfl, List.nil_append]

theorem mem_awaiting_of_leftover {past since : List (Playback × Moment)} {x : Playback × Moment}
    (mem : x ∈ leftover past since) : x ∈ awaiting past := by
  unfold leftover at mem
  split at mem
  · cases mem
  · exact mem

/-- What waits after a graph was loaded is left over from before, or was activated since. -/
theorem queued_since (reached : (({} : Playback).performAll past).1 = p)
    (loads : p.load g = .ok p₀) :
    (p₀.performAll earlier).1.queued =
      (leftover (({} : Playback).chronicle past) (p₀.chronicle earlier) ++
        awaiting (p₀.chronicle earlier)).filterMap activates? := by
  have loaded : p.tryLoad g = p₀ := by rw [tryLoad, loads]
  have reached' : (({} : Playback).performAll (past ++ [.load g])).1 = p₀ := by
    rw [performAll_append, reached]
    exact loaded
  have told : ({} : Playback).chronicle (past ++ [.load g]) =
      ({} : Playback).chronicle past ++ [(p, .load g)] := by
    rw [chronicle_append, reached]
    rfl
  have queued := queued_performAll (past ++ [.load g] ++ earlier)
  rw [performAll_append, reached', chronicle_append, reached', awaiting_append] at queued
  -- Loading a graph neither activates a link nor empties the queue.
  have same : leftover (({} : Playback).chronicle (past ++ [.load g])) (p₀.chronicle earlier) =
      leftover (({} : Playback).chronicle past) (p₀.chronicle earlier) := by
    rw [leftover, leftover, told, awaiting_concat]
    simp [emptiesQueue, activates?, Moment.isEvaluation, Moment.isReset]
  rw [queued, same]

/-! ### What a graph hears -/

/-- Whatever a history meets, the graph of a carrier that is not unloaded is there. -/
theorem Sole.of_mem_chronicle (sole : p.Sole g.carrier l) {program : Program}
    (plays : l.Plays g program) {commands : List Command} (keeps : .unload g.carrier ∉ commands)
    {y : Playback × Moment} (mem : y ∈ p.chronicle commands) :
    ∃ l', y.1.Sole g.carrier l' ∧ l'.Plays g program := by
  obtain ⟨ms, told, unloaded⟩ := p.chronicle_eq_trail commands
  rw [told] at mem
  obtain ⟨part, later, split⟩ := List.append_of_mem mem
  obtain ⟨l', -, sole', plays', -⟩ := sole.met (fun _ => false) (I := fun _ _ => True)
    (fun _ _ _ _ _ _ _ _ _ => trivial) plays trivial (fun h => keeps (unloaded _ h)) split
    fun _ _ => Bool.false_ne_true
  exact ⟨l', sole', plays'⟩

/-- A graph hears the clicks on the object whose link it is. -/
theorem Sole.isLinkOn_of_click (sole : p.Sole g.carrier l) (same : l.graph = g) {object : String}
    (heard : p.impact? g.carrier (.deliver object) = some .click) : g.isLinkOn object := by
  rw [impact?] at heard
  split at heard
  · next reached =>
    have addressed := isAddressed_iff.1 (List.find?_some (sole.find? reached))
    rw [same] at addressed
    exact decide_eq_true addressed
  · cases heard

/-! ### Newcomers -/

/-- A tick after a graph was loaded: what was clicked in it, and what was settled. -/
structure TickSince (past : List (Playback × Moment)) (g : Graph) (p₀ : Playback)
    (earlier : List Command) (position? : String → Option (Triple Number))
    (delivered settled : List (Playback × Moment)) : Prop where
  moments : p₀.chronicle (earlier ++ [.tick position?]) = p₀.chronicle earlier ++
    ((p₀.performAll earlier).1, .evaluate position?) :: (delivered ++ settled)
  /-- Clicks answer, one by one and in order, activations that were left over and those since. -/
  answered : List.Forall₂ Answers
    (leftover past (p₀.chronicle earlier) ++ awaiting (p₀.chronicle earlier)) delivered
  /-- A click that comes to the graph answers an activation since it was loaded, unless there is
  one left over on the object whose link it is. -/
  heard : ∀ y ∈ delivered, y.1.impact? g.carrier y.2 = some .click → ∃ x, Answers x y ∧
    (x ∈ awaiting (p₀.chronicle earlier) ∨ x ∈ leftover past (p₀.chronicle earlier) ∧
      ∃ object, activates? x = some object ∧ g.isLinkOn object)
  settled : ∀ x ∈ settled, (∃ a, x.2 = .effect a) ∨ x.2 = .reset

/-- What a graph brings with it when it is loaded, and how it goes on from there. -/
structure Newcomer (past : List (Playback × Moment)) (g : Graph) (p p₀ : Playback)
    (later : List Command) : Prop where
  /-- It begins as it is made, and what becomes of it and what it dispatches comes of the impacts
  that it meets from then on. -/
  live : ∃ l, Loaded.ofGraph g = .ok l ∧
    (p₀.performAll later).1.Sole g.carrier
      (l.meetAll p₀.ticks (impacts g.carrier (p₀.chronicle later))).1 ∧
    (p₀.performAll later).2.filter (·.carrier == g.carrier) =
      (l.meetAll p₀.ticks (impacts g.carrier (p₀.chronicle later))).2
  ticks : ∀ earlier position? rest, later = earlier ++ .tick position? :: rest →
    ∃ delivered settled, TickSince past g p₀ earlier position? delivered settled
  /-- Nothing that is there at the loading is its own, unless a click on it waits. -/
  clean : (∀ x ∈ awaiting past, ∀ object, activates? x = some object → ¬ g.isLinkOn object) →
    p.without g = p

theorem Sole.tickSince (reached : (({} : Playback).performAll past).1 = p)
    (loads : p.load g = .ok p₀) (sole : p₀.Sole g.carrier l) {program : Program}
    (plays : l.Plays g program) (keeps : .unload g.carrier ∉ earlier)
    (position? : String → Option (Triple Number)) :
    ∃ delivered settled,
      TickSince (({} : Playback).chronicle past) g p₀ earlier position? delivered settled := by
  have orderly : (p₀.performAll earlier).1.Orderly := by
    have start : p₀.Orderly := (reached ▸ orderly_performAll past).load loads
    exact performAll_induction (fun _ c h => h.perform c) start earlier
  have active : ∀ x ∈ leftover (({} : Playback).chronicle past) (p₀.chronicle earlier) ++
      awaiting (p₀.chronicle earlier), (activates? x).isSome := by
    intro x hx
    rcases List.mem_append.1 hx with left | since
    · exact (List.mem_filter.1 (mem_awaiting_of_leftover left)).2
    · exact (List.mem_filter.1 since).2
  -- The clicks delivered are those on what is queued.
  have answered := (orderly.congr ((p₀.performAll earlier).1.repertoire_happen
    (m := .evaluate position?) rfl)).answers _ active
  rw [← queued_since reached loads] at answered
  have moments : p₀.chronicle (earlier ++ [.tick position?]) = p₀.chronicle earlier ++
      (p₀.performAll earlier).1.trail ((p₀.performAll earlier).1.moments (.tick position?)) := by
    rw [chronicle_append]
    exact congrArg _ (List.append_nil _)
  rw [trail_tick] at moments
  refine ⟨_, _, moments, answered, fun y hy heard => ?_, fun x hx => ?_⟩
  · obtain ⟨x, waiting, answers⟩ := exists_of_forall₂ answered hy
    rcases List.mem_append.1 waiting with left | since
    · -- The graph is there when the click comes, so it is the link on the object.
      have met : y ∈ p₀.chronicle (earlier ++ [.tick position?]) := by
        rw [moments]
        exact List.mem_append_right _ (List.mem_cons_of_mem _ (List.mem_append_left _ hy))
      have keeps' : .unload g.carrier ∉ earlier ++ [.tick position?] := by
        simpa using keeps
      obtain ⟨l', sole', plays'⟩ := sole.of_mem_chronicle plays keeps' met
      obtain ⟨object, activated, click, hears⟩ := id answers
      rw [click] at heard
      exact ⟨x, answers, .inr ⟨left, object, activated, sole'.isLinkOn_of_click plays'.1 heard⟩⟩
    · exact ⟨x, answers, .inl since⟩
  · have settled := List.mem_map_of_mem (f := Prod.snd) hx
    rw [map_snd_trail] at settled
    exact mem_settling settled

/-- Without clicks on it that wait, a playback that has not loaded a graph holds nothing of it. -/
theorem without_of_load (loads : p.load g = .ok p₀)
    (unheard : ∀ object ∈ p.queued, ¬ g.isLinkOn object) : p.without g = p := by
  have loaded : p.loaded.filter (·.graph.carrier != g.carrier) = p.loaded := by
    rw [List.filter_eq_self]
    intro x hx
    have other := (List.filter_eq_nil_iff.1 (load_eq_ok loads).1) x hx
    simpa using other
  have queued : p.queued.filter (!g.isLinkOn ·) = p.queued := by
    rw [List.filter_eq_self]
    intro object waits
    simpa using unheard object waits
  rw [without, loaded, queued]

/-- **A graph that was just loaded has no past**, unless it is a link and a click on its object
waits.  It begins as it is made, whatever it was when it was loaded before, and what becomes of it
and what it dispatches comes of the impacts that it meets from then on.  A click that comes to it
in a tick answers an activation since the loading, or one before it that waits on its object; the
latter in the first tick only, and not behind a reset. -/
theorem newcomer_law {later : List Command} (reached : (({} : Playback).performAll past).1 = p)
    (loads : p.load g = .ok p₀) (keeps : .unload g.carrier ∉ later) :
    Newcomer (({} : Playback).chronicle past) g p p₀ later := by
  obtain ⟨-, new, made, -⟩ := load_eq_ok loads
  obtain ⟨program, playable, -⟩ := Loaded.ofGraph_eq_ok made
  obtain ⟨l, made, sole, plays⟩ := exists_sole_of_load loads playable
  refine ⟨⟨l, made, ?_⟩, ?_, fun clean => ?_⟩
  · obtain ⟨ms, told, done⟩ := p₀.performAll_eq later
    obtain ⟨ms', told', unloaded⟩ := p₀.chronicle_eq_trail later
    have same : ms = ms' := by rw [← map_snd_trail p₀ ms, ← told, told', map_snd_trail]
    rw [done, told]
    exact sole.after_impacts fun h => keeps (unloaded _ (same ▸ h))
  · rintro earlier position? rest rfl
    exact sole.tickSince reached loads plays (fun h => keeps (List.mem_append_left _ h)) position?
  · refine without_of_load loads fun object waits => ?_
    rw [← reached, queued_performAll] at waits
    obtain ⟨x, waiting, activated⟩ := List.mem_filterMap.1 waits
    exact clean x waiting object activated

/-- The link on the door is activated, and taken away before the next tick. -/
def doorLeft (door : Graph) : List Command :=
  [.load door, .apply [.link doorTarget .activate], .unload door.carrier]

/-- The link on the door is loaded while a click on the door waits. -/
theorem doorLink_newcomer :
    ∃ compiled c' p₀, Compilation.compile { names := .empty } Compilation.plainConfig doorScene
        (.link doorLink) (some "door") = (.ok compiled, c') ∧
      (({} : Playback).performAll (doorLeft compiled.graph)).1.load compiled.graph = .ok p₀ ∧
      Newcomer (({} : Playback).chronicle (doorLeft compiled.graph)) compiled.graph
        (({} : Playback).performAll (doorLeft compiled.graph)).1 p₀
        [.tick doorScene.position?] := by
  have plays : Compilation.playsAs { names := .empty } Compilation.plainConfig doorScene
      (.link doorLink) (some "door") (fun door _ =>
        ((({} : Playback).performAll (doorLeft door)).1.load door).isOk) := by
    decide +kernel
  obtain ⟨compiled, c', _, compiles, -, loads⟩ := Compilation.exists_of_playsAs plays
  cases loaded : (({} : Playback).performAll (doorLeft compiled.graph)).1.load compiled.graph with
  | error fault =>
    rw [loaded] at loads
    cases loads
  | ok p₀ => exact ⟨compiled, c', p₀, compiles, loaded, newcomer_law rfl loaded (by simp)⟩

/-- In its first tick the link on the door hears the click on the one before it, and resets the
scene.  Had there been none before it, it would do nothing. -/
theorem reloaded_door_hears :
    ∃ compiled c', Compilation.compile { names := .empty } Compilation.plainConfig doorScene
        (.link doorLink) (some "door") = (.ok compiled, c') ∧
      (({} : Playback).performAll
          (doorLeft compiled.graph ++ [.load compiled.graph, .tick doorScene.position?])).2.map
        (fun e => (e.carrier, e.action)) = [(compiled.graph.carrier, .reset)] ∧
      (({} : Playback).performAll [.load compiled.graph, .tick doorScene.position?]).2 = [] := by
  have plays : Compilation.playsAs { names := .empty } Compilation.plainConfig doorScene
      (.link doorLink) (some "door") (fun door _ =>
        (({} : Playback).performAll
            (doorLeft door ++ [.load door, .tick doorScene.position?])).2.map
          (fun e => (e.carrier, e.action)) = [(door.carrier, .reset)] ∧
        (({} : Playback).performAll [.load door, .tick doorScene.position?]).2 = []) := by
    decide +kernel
  obtain ⟨compiled, c', _, compiles, -, heard⟩ := Compilation.exists_of_playsAs plays
  obtain ⟨late, fresh⟩ := of_decide_eq_true heard
  exact ⟨compiled, c', compiles, late, fresh⟩

end SceneLogic.Playback
