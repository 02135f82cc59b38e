/-
One graph among those that are loaded.

Other graphs and actions act on a loaded graph in few ways: it is evaluated, clicked, changed as a
timeline, enabled or disabled, or restored.  `Sole.happen` says so: whatever happens, the only
graph of a carrier meets the impact that the moment has on it (`Playback.impact?`) and nothing
else, and dispatches what this brings about.  So facts about one graph in all of playback are
facts about a graph under impacts.
-/
import Mathlib.Data.List.Basic
import Mathlib.Data.List.Induction
import SceneLogic.Proofs.Playback.Chronicle
namespace SceneLogic

-- Graphs are compared here with all that they keep, so the quanta of a unit are kept closed.
attribute [local irreducible] quantaPerUnit quantaLimit

/-- What can happen to a loaded graph. -/
inductive Impact where
  | evaluate (position? : String → Option (Triple Number))
  | click
  | change (c : TimelineChange)
  | enable (enabled : Bool)
  | restore

namespace Loaded

/-- A loaded graph after an impact, if there is one, and the nodes to dispatch. -/
def meet (l : Loaded) : Option Impact → Loaded × List String
  | none => (l, [])
  | some (.evaluate position?) => l.evaluate position?
  | some .click => l.click
  | some (.change c) => (l.changeTimeline c, [])
  | some (.enable enabled) => (l.withEnabled enabled, [])
  | some .restore => (l.restored, [])

/-- Two loaded graphs play the same graph. -/
def Plays (l : Loaded) (g : Graph) (program : Program) : Prop :=
  l.graph = g ∧ l.program = program

variable {l : Loaded} {g : Graph} {program : Program}

theorem plays_fire (h : l.Plays g program) (activeTicks : Number) (remainEnabled : Bool) :
    (l.fire activeTicks remainEnabled).Plays g program := by
  rw [fire]
  cases remainEnabled <;> exact h

theorem plays_countDown (h : l.Plays g program) : l.countDown.Plays g program := by
  simp only [countDown]
  split <;> exact h

theorem plays_evaluate (h : l.Plays g program) (position? : String → Option (Triple Number)) :
    (l.evaluate position?).1.Plays g program := by
  rw [evaluate]
  split
  · rw [advance]
    split
    · exact h
    · dsimp only
      split <;> exact h
  · split
    · exact plays_countDown h
    · simp only [sense]
      split
      · exact h
      · split
        · exact h
        · exact plays_fire (by exact h) _ _
  · split
    · exact plays_countDown h
    · exact h

theorem plays_click (h : l.Plays g program) : l.click.1.Plays g program := by
  rw [click]
  split
  · split
    · simp only [countClick]
      split
      · exact h
      · split
        · exact h
        · exact plays_fire (by exact h) _ _
    · exact h
  · exact h

theorem plays_changeTimeline (h : l.Plays g program) (c : TimelineChange) :
    (l.changeTimeline c).Plays g program := by
  unfold changeTimeline
  split
  · exact h
  · exact h
  · exact h
  · split <;> exact h

/-- No impact makes a graph play another. -/
theorem plays_meet (h : l.Plays g program) (impact? : Option Impact) :
    (l.meet impact?).1.Plays g program := by
  unfold meet
  split
  · exact h
  · exact plays_evaluate h _
  · exact plays_click h
  · exact plays_changeTimeline h _
  · exact h
  · exact h

/-- Only links hear clicks. -/
theorem click_of_not_link (deaf : ∀ P, program ≠ .link P) (h : l.Plays g program) :
    l.click = (l, []) := by
  rw [click, h.2]
  cases program with
  | link P => exact absurd rfl (deaf P)
  | timeline P => rfl
  | region P => rfl

theorem ofGraph_eq_ok (h : ofGraph g = .ok l) : ∃ program, g.program = .ok program ∧
    l = { graph := g, program, holder := g.initialHolder, memory := {} } := by
  rw [ofGraph] at h
  cases made : g.program with
  | error fault =>
    rw [made] at h
    cases h
  | ok program =>
    rw [made] at h
    cases h
    exact ⟨program, rfl, rfl⟩

theorem graph_ofGraph (h : ofGraph g = .ok l) : l.graph = g := by
  obtain ⟨program, -, rfl⟩ := ofGraph_eq_ok h
  rfl

end Loaded

/-! ### Changing the first item -/

theorem changeFirst_cons {α : Type} (test : α → Bool) (change : α → α) (x : α) (xs : List α) :
    Playback.changeFirst test change (x :: xs) =
      if test x then change x :: xs else x :: Playback.changeFirst test change xs :=
  rfl

/-- Changing the first item that satisfies a test, seen through a filter that the change keeps. -/
theorem filter_changeFirst {α : Type} {test keep : α → Bool} {change : α → α} {xs : List α}
    (same : ∀ x, xs.find? test = some x → keep (change x) = keep x) :
    (Playback.changeFirst test change xs).filter keep =
      if (xs.find? test).any keep then Playback.changeFirst test change (xs.filter keep)
      else xs.filter keep := by
  induction xs with
  | nil => rfl
  | cons x xs ih =>
    by_cases h : test x
    · -- This item is the one to be changed, and it is kept as it was before.
      rw [List.find?_cons_of_pos h] at same ⊢
      rw [changeFirst_cons, if_pos h, List.filter_cons, same x rfl, Option.any_some,
        List.filter_cons]
      by_cases k : keep x
      · simp only [k, if_true]
        rw [changeFirst_cons, if_pos h]
      · simp only [k, Bool.false_eq_true, if_false]
    · rw [List.find?_cons_of_neg h] at same ⊢
      rw [changeFirst_cons, if_neg h, List.filter_cons, List.filter_cons, ih same]
      by_cases k : keep x
      · simp only [k, if_true]
        rw [changeFirst_cons, if_neg h]
        split <;> rfl
      · simp only [k, Bool.false_eq_true, if_false]

/-- Changing an item to itself changes nothing. -/
theorem changeFirst_self {α : Type} {test : α → Bool} {x : α} {xs : List α}
    (found : xs.find? test = some x) : Playback.changeFirst test (fun _ => x) xs = xs := by
  induction xs with
  | nil => rfl
  | cons y ys ih =>
    rw [changeFirst_cons]
    by_cases h : test y
    · rw [List.find?_cons_of_pos h] at found
      rw [if_pos h, Option.some_inj.1 found]
    · rw [List.find?_cons_of_neg h] at found
      rw [if_neg h, ih found]

theorem flatMap_filter {α β : Type} (f : α → List β) (keep : α → Bool) (test : β → Bool)
    (agree : ∀ x, ∀ y ∈ f x, test y = keep x) (xs : List α) :
    (xs.flatMap f).filter test = (xs.filter keep).flatMap f := by
  induction xs with
  | nil => rfl
  | cons x xs ih =>
    rw [List.flatMap_cons, List.filter_append, ih, List.filter_cons]
    by_cases k : keep x
    · -- All that comes of a kept item passes the test, and nothing of another one.
      have all : (f x).filter test = f x :=
        List.filter_eq_self.2 fun y hy => (agree x y hy).trans k
      rw [if_pos k, all, List.flatMap_cons]
    · have none : (f x).filter test = [] :=
        List.filter_eq_nil_iff.2 fun y hy h => k ((agree x y hy).symm.trans h)
      rw [if_neg k, none, List.nil_append]

/-! ### The only graph of a carrier -/

namespace Playback

/-- A loaded graph is the only one of a carrier. -/
def Sole (p : Playback) (carrier : String) (l : Loaded) : Prop :=
  p.loaded.filter (·.graph.carrier == carrier) = [l]

/-- What addresses a kind and a source reaches the graph of a carrier. -/
def reaches (p : Playback) (kind : Graph.Kind) (source carrier : String) : Bool :=
  (p.find? kind source).any (·.graph.carrier == carrier)

/-- The impact of a moment on the graph of a carrier. -/
def impact? (p : Playback) (carrier : String) : Moment → Option Impact
  | .evaluate position? => some (.evaluate position?)
  | .deliver object => if p.reaches .link object carrier then some .click else none
  | .effect (.timeline target c) =>
    if p.reaches .timeline target.name carrier then some (.change c) else none
  | .effect (.event target enable) =>
    if p.reaches .region target.name carrier then some (.enable enable) else none
  | .effect (.link target .enable) =>
    if p.reaches .link target.name carrier then some (.enable true) else none
  | .effect (.link target .disable) =>
    if p.reaches .link target.name carrier then some (.enable false) else none
  | .reset => some .restore
  | _ => none

/-- The nodes of a carrier that are dispatched in a history, with their actions. -/
def dispatches (carrier : String) (history : List (Playback × Moment)) : List (String × Action) :=
  ((events history).filter (·.carrier == carrier)).map fun e => (e.node, e.action)

end Playback

/-- The actions of those nodes of a graph that have one, with the nodes. -/
def Graph.actionsOf (g : Graph) (nodes : List String) : List (String × Action) :=
  nodes.filterMap fun node => (g.action? node).map fun action => (node, action)

theorem Graph.actionsOf_map {α : Type} {g : Graph} {xs : List α} {node : α → String}
    {a : α → Action} (h : ∀ x ∈ xs, g.action? (node x) = some (a x)) :
    g.actionsOf (xs.map node) = xs.map fun x => (node x, a x) := by
  rw [Graph.actionsOf, List.filterMap_map, List.filterMap_eq_map_iff_forall_eq_some]
  intro x hx
  rw [Function.comp_apply, h x hx]
  rfl

/-- Nodes that carry some actions dispatch these. -/
theorem Graph.map_actionsOf {g : Graph} {nodes : List String} {actions : List Action}
    (carried : nodes.map g.action? = actions.map some) :
    (g.actionsOf nodes).map Prod.snd = actions := by
  have second : (fun node => Option.map Prod.snd ((g.action? node).map fun a => (node, a))) =
      id ∘ g.action? := by
    funext node
    rw [Option.map_map, Function.comp_apply, id]
    cases g.action? node <;> rfl
  rw [Graph.actionsOf, List.map_filterMap, second, ← List.filterMap_map, carried,
    List.filterMap_map]
  exact List.filterMap_some

namespace Playback

theorem dispatches_append (carrier : String) (h h' : List (Playback × Moment)) :
    dispatches carrier (h ++ h') = dispatches carrier h ++ dispatches carrier h' := by
  rw [dispatches, events_append, List.filter_append, List.map_append]
  rfl

theorem carrier_eventsOf {tick : Nat} {g : Graph} {nodes : List String} {e : Event}
    (h : e ∈ eventsOf tick g nodes) : e.carrier = g.carrier := by
  obtain ⟨node, -, some⟩ := List.mem_filterMap.1 h
  obtain ⟨action, -, rfl⟩ := Option.map_eq_some_iff.1 some
  rfl

theorem map_eventsOf (tick : Nat) (g : Graph) (nodes : List String) :
    (eventsOf tick g nodes).map (fun e => (e.node, e.action)) = g.actionsOf nodes := by
  rw [eventsOf, List.map_filterMap, Graph.actionsOf]
  congr 1
  funext node
  cases g.action? node <;> rfl

/-- The events of a graph are those of its carrier. -/
theorem filter_eventsOf (tick : Nat) (g : Graph) (nodes : List String) (carrier : String) :
    (eventsOf tick g nodes).filter (·.carrier == carrier) =
      if g.carrier == carrier then eventsOf tick g nodes else [] := by
  split
  · next same =>
    rw [List.filter_eq_self]
    intro e he
    rw [carrier_eventsOf he]
    exact same
  · next other =>
    rw [List.filter_eq_nil_iff]
    intro e he
    rw [carrier_eventsOf he]
    exact other

variable {p : Playback} {carrier : String} {l : Loaded}

/-- The only graph of a carrier is the one that others see. -/
theorem Sole.state? (sole : p.Sole carrier l) : p.state? carrier = some l.holder := by
  rw [Playback.state?, ← List.head?_filter, sole]
  rfl

theorem Sole.isRunning (sole : p.Sole carrier l) :
    p.isRunning carrier = decide (l.holder.status = .start) := by
  rw [Playback.isRunning, sole.state?]
  rfl

theorem Sole.isEnabled (sole : p.Sole carrier l) :
    p.isEnabled carrier = decide (l.holder.enabled = some true) := by
  rw [Playback.isEnabled, sole.state?]
  rfl

/-- Whatever reaches the carrier of the only graph addresses that graph. -/
theorem Sole.find? (sole : p.Sole carrier l) {kind : Graph.Kind} {source : String}
    (reaches : p.reaches kind source carrier) : p.find? kind source = some l := by
  obtain ⟨x, found, same⟩ := (Option.any_eq_true _ _).1 reaches
  have mem : x ∈ p.loaded.filter (·.graph.carrier == carrier) :=
    List.mem_filter.2 ⟨List.mem_of_find?_eq_some found, same⟩
  rw [sole] at mem
  rw [found, List.mem_singleton.1 mem]

/-- Changing a graph that is addressed changes the only one of a carrier if it is reached. -/
theorem Sole.change (sole : p.Sole carrier l) (kind : Graph.Kind) (source : String)
    {f : Loaded → Loaded}
    (keeps : ∀ x, p.find? kind source = some x → (f x).graph.carrier = x.graph.carrier) :
    (p.change kind source f).Sole carrier (if p.reaches kind source carrier then f l else l) := by
  show (changeFirst _ f p.loaded).filter _ = _
  rw [filter_changeFirst fun x hx => congrArg (· == carrier) (keeps x hx), sole]
  by_cases h : p.reaches kind source carrier
  · have addressed : isAddressed kind source l :=
      List.find?_some (Sole.find? sole h)
    rw [if_pos h]
    rw [reaches, Playback.find?] at h
    rw [if_pos h, changeFirst_cons, if_pos addressed]
  · rw [if_neg h]
    rw [reaches, Playback.find?] at h
    rw [if_neg h]

/-- A graph is loaded behind the others, none of which is of its carrier. -/
theorem load_eq_ok {p' : Playback} {g : Graph} (h : p.load g = .ok p') :
    p.loaded.filter (·.graph.carrier == g.carrier) = [] ∧
      ∃ new, Loaded.ofGraph g = .ok new ∧ p' = { p with loaded := p.loaded ++ [new] } := by
  rw [load] at h
  split at h
  · cases h
  · next free =>
    constructor
    · rw [List.filter_eq_nil_iff]
      intro x hx taken
      exact free (List.any_eq_true.2 ⟨x, hx, taken⟩)
    · cases made : Loaded.ofGraph g with
      | error fault =>
        rw [made] at h
        cases h
      | ok new =>
        rw [made] at h
        cases h
        exact ⟨new, rfl, rfl⟩

theorem Sole.tryLoad (sole : p.Sole carrier l) (g : Graph) : (p.tryLoad g).Sole carrier l := by
  rw [Playback.tryLoad]
  split
  · next p' h =>
    obtain ⟨free, new, made, rfl⟩ := load_eq_ok h
    -- The carrier is taken, so what is loaded is of another one.
    have other : (new.graph.carrier == carrier) = false := by
      rw [Loaded.graph_ofGraph made, Bool.eq_false_iff]
      intro same
      rw [beq_iff_eq.1 same, sole] at free
      cases free
    show (p.loaded ++ [new]).filter _ = _
    rw [List.filter_append, sole, List.filter_cons, other]
    rfl
  · exact sole

theorem Sole.unload (sole : p.Sole carrier l) {other : String} (ne : other ≠ carrier) :
    (p.unload other).Sole carrier l := by
  show (p.loaded.filter _).filter _ = _
  rw [List.filter_filter, ← sole]
  refine List.filter_congr fun x _ => ?_
  by_cases same : x.graph.carrier = carrier
  · rw [same, BEq.rfl, Bool.true_and, bne_iff_ne]
    exact ne.symm
  · rw [beq_false_of_ne same, Bool.false_and]

/-- Whatever happens to every loaded graph happens to the only one of a carrier. -/
theorem Sole.map (sole : p.Sole carrier l) {f : Loaded → Loaded}
    (keeps : ∀ x, (f x).graph = x.graph) :
    (p.loaded.map f).filter (·.graph.carrier == carrier) = [f l] := by
  have same : ((·.graph.carrier == carrier) ∘ f) = (·.graph.carrier == carrier) := by
    funext x
    rw [Function.comp_apply, keeps]
  rw [List.filter_map, same, sole]
  rfl

theorem dispatches_singleton (carrier : String) (p : Playback) (m : Moment) :
    dispatches carrier [(p, m)] =
      ((p.happen m).2.filter (·.carrier == carrier)).map fun e => (e.node, e.action) := by
  rw [dispatches, events, List.flatMap_singleton]

theorem Sole.evaluate (sole : p.Sole carrier l) (position? : String → Option (Triple Number)) :
    (p.happen (.evaluate position?)).1.Sole carrier (l.evaluate position?).1 ∧
      dispatches carrier [(p, .evaluate position?)] =
        l.graph.actionsOf (l.evaluate position?).2 := by
  refine ⟨sole.map fun x => (Loaded.plays_evaluate ⟨rfl, rfl⟩ position?).1, ?_⟩
  -- Of the events of all graphs, those of the carrier are the ones of its only graph.
  have own : (p.happen (.evaluate position?)).2.filter (·.carrier == carrier) =
      eventsOf (p.ticks + 1) l.graph (l.evaluate position?).2 := by
    show (List.flatMap _ p.loaded).filter _ = _
    rw [flatMap_filter _ (·.graph.carrier == carrier) _ ?_ p.loaded, sole, List.flatMap_singleton]
    intro x e he
    rw [carrier_eventsOf he]
  rw [dispatches_singleton, own, map_eventsOf]

theorem Sole.deliver (sole : p.Sole carrier l) (object : String) :
    (p.happen (.deliver object)).1.Sole carrier
        (if p.reaches .link object carrier then l.click.1 else l) ∧
      dispatches carrier [(p, .deliver object)] =
        if p.reaches .link object carrier then l.graph.actionsOf l.click.2 else [] := by
  rw [dispatches_singleton]
  show (p.deliver object).1.Sole _ _ ∧ ((p.deliver object).2.filter _).map _ = _
  rw [Playback.deliver]
  cases found : p.find? .link object with
  | none =>
    have out : ¬ p.reaches .link object carrier := by
      rw [reaches, found]
      exact Bool.false_ne_true
    rw [if_neg out, if_neg out]
    exact ⟨sole, rfl⟩
  | some x =>
    have changed := sole.change .link object (f := fun _ => x.click.1) fun y hy => by
      rw [found] at hy
      cases hy
      rw [(Loaded.plays_click ⟨rfl, rfl⟩).1]
    have reached : p.reaches .link object carrier = (x.graph.carrier == carrier) := by
      rw [reaches, found]
      rfl
    dsimp only
    rw [filter_eventsOf, ← reached]
    by_cases h : p.reaches .link object carrier
    · -- The link that hears the click is the only graph of the carrier.
      have same := sole.find? h
      rw [found] at same
      cases same
      rw [if_pos h] at changed ⊢
      rw [if_pos h, if_pos h, map_eventsOf]
      exact ⟨changed, rfl⟩
    · rw [if_neg h] at changed ⊢
      rw [if_neg h, if_neg h]
      exact ⟨changed, rfl⟩

/-- An impact that dispatches nothing, met if a graph is reached. -/
theorem Sole.meets {reached : Bool} {impact : Impact}
    (met : p.Sole carrier (if reached then (l.meet (some impact)).1 else l))
    (silent : (l.meet (some impact)).2 = []) :
    p.Sole carrier (l.meet (if reached then some impact else none)).1 ∧
      (l.meet (if reached then some impact else none)).2 = [] := by
  cases reached
  · exact ⟨met, rfl⟩
  · exact ⟨met, silent⟩

theorem Sole.effect (sole : p.Sole carrier l) (action : Action) :
    (p.applyOne action).Sole carrier (l.meet (p.impact? carrier (.effect action))).1 ∧
      (l.meet (p.impact? carrier (.effect action))).2 = [] := by
  -- A link is looked for before it is changed, but without one there is nothing to reach.
  have linked : ∀ (target : Target) (b : Bool),
      (if (p.find? .link target.name).isSome then p.change .link target.name (·.withEnabled b)
        else p).Sole carrier
          (if p.reaches .link target.name carrier then l.withEnabled b else l) := by
    intro target b
    split
    · exact sole.change .link target.name fun _ _ => rfl
    · next missing =>
      have out : ¬ p.reaches .link target.name carrier := by
        intro h
        rw [sole.find? h] at missing
        exact missing rfl
      rw [if_neg out]
      exact sole
  cases action with
  | timeline target c =>
    exact Sole.meets (sole.change .timeline target.name (f := (·.changeTimeline c))
      fun _ _ => by rw [(Loaded.plays_changeTimeline ⟨rfl, rfl⟩ c).1]) rfl
  | event target enable =>
    exact Sole.meets (sole.change .region target.name (f := (·.withEnabled enable))
      fun _ _ => rfl) rfl
  | link target c =>
    cases c with
    | enable => exact Sole.meets (linked target true) rfl
    | disable => exact Sole.meets (linked target false) rfl
    | activate =>
      refine ⟨?_, rfl⟩
      rw [applyOne]
      split <;> exact sole
  | move | visibility | sound | group | reset => exact ⟨sole, rfl⟩

/-- Only an evaluation evaluates a graph. -/
theorem impact?_ne_evaluate {m : Moment} (evaluation : m.isEvaluation = false)
    (position? : String → Option (Triple Number)) :
    p.impact? carrier m ≠ some (.evaluate position?) := by
  intro h
  unfold impact? at h
  split at h
  · cases evaluation
  all_goals first | cases h | (split at h <;> cases h)

/-- **The impact of a moment.**  Whatever happens, short of unloading it, the only graph of a
carrier meets the impact that this has on it, and dispatches what the impact brings about. -/
theorem Sole.happen (sole : p.Sole carrier l) {m : Moment} (keeps : m ≠ .unload carrier) :
    (p.happen m).1.Sole carrier (l.meet (p.impact? carrier m)).1 ∧
      dispatches carrier [(p, m)] = l.graph.actionsOf (l.meet (p.impact? carrier m)).2 := by
  cases m with
  | load g => exact ⟨sole.tryLoad g, rfl⟩
  | unload other => exact ⟨sole.unload fun same => keeps (same ▸ rfl), rfl⟩
  | evaluate position? => exact sole.evaluate position?
  | deliver object =>
    have delivered := sole.deliver object
    rw [impact?]
    split <;> next h =>
      simp only [h, if_true, Bool.false_eq_true, if_false] at delivered
      exact delivered
  | effect action =>
    obtain ⟨changed, silent⟩ := sole.effect action
    rw [silent]
    exact ⟨changed, rfl⟩
  | reset => exact ⟨sole.map fun _ => rfl, rfl⟩

/-- A graph that was loaded is the only one of its carrier, and plays its program. -/
theorem exists_sole_of_load {p₀ : Playback} {g : Graph} {program : Program}
    (h : p.load g = .ok p₀) (made : g.program = .ok program) :
    ∃ l, Loaded.ofGraph g = .ok l ∧ p₀.Sole g.carrier l ∧ l.Plays g program := by
  obtain ⟨free, l, loaded, rfl⟩ := load_eq_ok h
  refine ⟨l, loaded, ?_, ?_⟩
  · show (p.loaded ++ [l]).filter _ = _
    rw [List.filter_append, free, List.filter_cons, Loaded.graph_ofGraph loaded, BEq.rfl]
    rfl
  · obtain ⟨program', made', rfl⟩ := Loaded.ofGraph_eq_ok loaded
    cases made.symm.trans made'
    exact ⟨rfl, rfl⟩

/-- Whatever reaches the only graph of a carrier addresses its kind. -/
theorem Sole.kind_of_reaches (sole : p.Sole carrier l) {kind : Graph.Kind} {source : String}
    (reaches : p.reaches kind source carrier) : l.graph.kind = kind := by
  have addressed : isAddressed kind source l := List.find?_some (sole.find? reaches)
  exact beq_iff_eq.1 (Bool.and_eq_true_iff.1 addressed).1

/-- Short of an evaluation, a click or a reset, nothing changes about a graph that is no timeline
but whether it is enabled. -/
theorem Sole.meet_of_other (sole : p.Sole carrier l) (untimed : l.graph.kind ≠ .timeline)
    {m : Moment} (evaluation : m.isEvaluation = false) (click : ∀ object, m ≠ .deliver object)
    (reset : m.isReset = false) :
    ∃ enabled, l.meet (p.impact? carrier m) =
      ({ l with holder := { l.holder with enabled } }, []) := by
  have same : ∃ enabled, (l, ([] : List String)) =
      ({ l with holder := { l.holder with enabled } }, []) := ⟨l.holder.enabled, rfl⟩
  cases m with
  | load | unload => exact same
  | evaluate position? => cases evaluation
  | deliver object => exact absurd rfl (click object)
  | effect action =>
    cases action with
    | timeline target c =>
      have out : ¬ p.reaches .timeline target.name carrier := fun h =>
        untimed (sole.kind_of_reaches h)
      rw [impact?, if_neg out]
      exact same
    | event target enable =>
      rw [impact?]
      split
      · exact ⟨some enable, rfl⟩
      · exact same
    | link target c =>
      cases c with
      | enable =>
        rw [impact?]
        split
        · exact ⟨some true, rfl⟩
        · exact same
      | disable =>
        rw [impact?]
        split
        · exact ⟨some false, rfl⟩
        · exact same
      | activate => exact same
    | move | visibility | sound | group | reset => exact same
  | reset => cases reset

/-! ### Runs -/

/-- What is true of the only graph of a carrier and of the history so far, and is kept so by every
moment that is no cut, is true after a trail without cuts. -/
theorem Sole.run {g : Graph} {program : Program} {cut : Playback × Moment → Bool}
    {I : Loaded → List (Playback × Moment) → Prop}
    (step : ∀ (q : Playback) (l : Loaded) (m : Moment) (history : List (Playback × Moment)),
      q.Sole carrier l → l.Plays g program → m ≠ .unload carrier → ¬ cut (q, m) →
        I l history → I (l.meet (q.impact? carrier m)).1 (history ++ [(q, m)]))
    (sole : p.Sole carrier l) (plays : l.Plays g program) (start : I l []) {ms : List Moment}
    (keeps : .unload carrier ∉ ms) (uncut : ∀ x ∈ p.trail ms, ¬ cut x) :
    ∃ l', (p.after ms).Sole carrier l' ∧ l'.Plays g program ∧ I l' (p.trail ms) := by
  induction ms using List.reverseRecOn with
  | nil => exact ⟨l, sole, plays, start⟩
  | append_singleton ms m ih =>
    -- The last moment meets the playback that the others leave.
    have whole : p.trail (ms ++ [m]) = p.trail ms ++ [(p.after ms, m)] := trail_append p ms [m]
    rw [whole] at uncut ⊢
    rw [after_append]
    obtain ⟨l', sole', plays', holds⟩ := ih (fun h => keeps (List.mem_append_left _ h))
      fun x hx => uncut x (List.mem_append_left _ hx)
    have own : m ≠ .unload carrier := by
      rintro rfl
      exact keeps (List.mem_append_right _ (List.mem_singleton_self _))
    have forth : ¬ cut (p.after ms, m) :=
      uncut _ (List.mem_append_right _ (List.mem_singleton_self _))
    exact ⟨_, (sole'.happen own).1, Loaded.plays_meet plays' _,
      step _ l' m _ sole' plays' own forth holds⟩

/-- The only graph of a carrier remains the only one and plays on until it is unloaded. -/
theorem Sole.after (sole : p.Sole carrier l) {g : Graph} {program : Program}
    (plays : l.Plays g program) {ms : List Moment} (keeps : .unload carrier ∉ ms) :
    ∃ l', (p.after ms).Sole carrier l' ∧ l'.Plays g program := by
  obtain ⟨l', sole', plays', -⟩ := sole.run (I := fun _ _ => True)
    (fun _ _ _ _ _ _ _ _ _ => trivial) plays trivial keeps fun _ _ => Bool.false_ne_true
  exact ⟨l', sole', plays'⟩

/-- What is kept by every moment that is no cut is true of the graph that a moment meets, if there
is no cut before it. -/
theorem Sole.met {g : Graph} {program : Program} (cut : Playback × Moment → Bool)
    {I : Loaded → List (Playback × Moment) → Prop}
    (step : ∀ (q : Playback) (l : Loaded) (m : Moment) (history : List (Playback × Moment)),
      q.Sole carrier l → l.Plays g program → m ≠ .unload carrier → ¬ cut (q, m) →
        I l history → I (l.meet (q.impact? carrier m)).1 (history ++ [(q, m)]))
    (sole : p.Sole carrier l) (plays : l.Plays g program) (start : I l []) {ms : List Moment}
    (keeps : .unload carrier ∉ ms) {part later : List (Playback × Moment)}
    {x : Playback × Moment} (split : p.trail ms = part ++ x :: later)
    (uncut : ∀ y ∈ part, ¬ cut y) :
    ∃ l' ms', x.1.Sole carrier l' ∧ l'.Plays g program ∧ I l' part ∧ x.2 ≠ .unload carrier ∧
      later = (x.1.happen x.2).1.trail ms' ∧ .unload carrier ∉ ms' := by
  obtain ⟨ms₁, ms₂, rfl, rfl, rest⟩ := trail_eq_append split
  obtain ⟨l', sole', plays', holds⟩ :=
    sole.run step plays start (fun h => keeps (List.mem_append_left _ h)) uncut
  cases ms₂ with
  | nil => cases rest
  | cons m ms' =>
    obtain ⟨rfl, rfl⟩ := List.cons.inj rest
    refine ⟨l', ms', sole', plays', holds, ?_, rfl, ?_⟩
    · rintro rfl
      exact keeps (List.mem_append_right _ List.mem_cons_self)
    · intro h
      exact keeps (List.mem_append_right _ (List.mem_cons_of_mem _ h))

/-- A stretch in the chronicle of a loaded graph is a trail that starts with the graph as every
cut, and the loading, leaves it. -/
theorem exists_trail_of_stretch {p₀ : Playback} {g : Graph} {program : Program}
    {commands : List Command} {cut : Playback × Moment → Bool}
    {before part rest : List (Playback × Moment)} {fresh : Loaded → Prop}
    (load : p.load g = .ok p₀) (made : g.program = .ok program) (named : g.carrier = carrier)
    (keeps : .unload carrier ∉ commands)
    (stretch : Stretch cut (p₀.chronicle commands) before part rest)
    (loaded : ∀ l, Loaded.ofGraph g = .ok l → fresh l)
    (afresh : ∀ (q : Playback) (l : Loaded) (m : Moment), q.Sole carrier l →
      l.Plays g program → cut (q, m) → fresh (l.meet (q.impact? carrier m)).1) :
    ∃ (q : Playback) (ms ms' : List Moment) (l : Loaded), part = q.trail ms ∧
      rest = (q.after ms).trail ms' ∧ .unload carrier ∉ ms ++ ms' ∧ q.Sole carrier l ∧
      l.Plays g program ∧ fresh l := by
  subst named
  obtain ⟨l₀, made₀, sole₀, plays₀⟩ := exists_sole_of_load load made
  obtain ⟨ms, whole, unloaded⟩ := p₀.chronicle_eq_trail commands
  have split := stretch.split
  rw [whole, List.append_assoc] at split
  obtain ⟨ms₁, later, rfl, rfl, others⟩ := trail_eq_append split
  obtain ⟨ms₂, ms₃, rfl, rfl, rfl⟩ := trail_eq_append others.symm
  have out : .unload g.carrier ∉ ms₁ ++ (ms₂ ++ ms₃) := fun h => keeps (unloaded _ h)
  have later : .unload g.carrier ∉ ms₂ ++ ms₃ := fun h => out (List.mem_append_right _ h)
  refine ⟨p₀.after ms₁, ms₂, ms₃, ?_⟩
  -- The stretch begins with the history or behind a last moment before it, which is a cut.
  rcases ms₁.eq_nil_or_concat' with rfl | ⟨earlier, m, rfl⟩
  · exact ⟨l₀, rfl, rfl, later, sole₀, plays₀, loaded l₀ made₀⟩
  · have out₁ : .unload g.carrier ∉ earlier := fun h =>
      out (List.mem_append_left _ (List.mem_append_left _ h))
    have own : m ≠ .unload g.carrier := fun h =>
      out (List.mem_append_left _ (List.mem_append_right _ (h ▸ List.mem_singleton_self _)))
    obtain ⟨l, sole, plays⟩ := sole₀.after plays₀ out₁
    have begins : cut (p₀.after earlier, m) := by
      refine stretch.begins _ ?_
      rw [trail_append]
      exact List.getLast?_concat
    refine ⟨(l.meet _).1, rfl, rfl, later, ?_, Loaded.plays_meet plays _,
      afresh _ l m sole plays begins⟩
    rw [after_append]
    exact (sole.happen own).1

end Playback

end SceneLogic
