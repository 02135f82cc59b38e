/-
The order in which graphs are loaded.

It decides in which order a tick evaluates them, and with that in which order effects are applied
and clicks are queued.  But an effect meets the one graph that it is addressed to, and all clicks on
an object are alike; so as long as no graph is addressed from two sides in one tick, each graph
meets the same impacts (`Alike.perform`), and by `Sole.after_meetAll` goes through the same states
and dispatches the same: `load_order_does_not_matter`.
-/
import Mathlib.Data.List.Perm.Basic
import SceneLogic.Proofs.Playback.Bystander
import SceneLogic.Proofs.Playback.Queue
import SceneLogic.Proofs.Playback.Stories
namespace SceneLogic

/-- A tick is to be carried out. -/
def Command.isTick : Command → Bool
  | tick _ => true
  | _ => false

namespace Playback

/-! ### Events by carrier -/

/-- The events of every carrier are the same, in the same order. -/
def SameByCarrier (es es' : List Event) : Prop :=
  ∀ carrier, es'.filter (·.carrier == carrier) = es.filter (·.carrier == carrier)

theorem SameByCarrier.append {es₁ es₂ es₁' es₂' : List Event} (first : SameByCarrier es₁ es₁')
    (later : SameByCarrier es₂ es₂') : SameByCarrier (es₁ ++ es₂) (es₁' ++ es₂') := by
  intro carrier
  rw [List.filter_append, List.filter_append, first carrier, later carrier]

theorem SameByCarrier.perm {es es' : List Event} (same : SameByCarrier es es') : es.Perm es' := by
  rw [List.perm_iff_count]
  intro e
  have own : ∀ es : List Event, (es.filter (·.carrier == e.carrier)).count e = es.count e :=
    fun es => List.count_filter BEq.rfl
  rw [← own es, ← own es', same]

/-- Events that are singled out are in the same order if they are of one carrier. -/
theorem SameByCarrier.filter {es es' : List Event} (same : SameByCarrier es es')
    {test : Event → Bool}
    (single : ∀ e ∈ es, ∀ e' ∈ es, test e → test e' → e.carrier = e'.carrier) :
    es'.filter test = es.filter test := by
  by_cases out : ∀ e ∈ es, ¬ test e
  · rw [List.filter_eq_nil_iff.2 out,
      List.filter_eq_nil_iff.2 fun e he => out e (same.perm.mem_iff.2 he)]
  · -- All events that pass are of the carrier of one of them, and these are in the same order.
    obtain ⟨e, he, pass⟩ : ∃ e ∈ es, test e := by
      by_contra none
      exact out fun e he pass => none ⟨e, he, pass⟩
    have only : ∀ part : List Event, (∀ x ∈ part, x ∈ es) →
        part.filter test = (part.filter (·.carrier == e.carrier)).filter test := by
      intro part sub
      rw [List.filter_filter]
      refine List.filter_congr fun x hx => ?_
      cases passes : test x with
      | false => rfl
      | true => rw [single x (sub x hx) e he passes pass, BEq.rfl, Bool.and_self]
    rw [only es fun x hx => hx, only es' fun x hx => same.perm.mem_iff.2 hx, same]

/-- No graph is addressed by events of two carriers. -/
def Undisputed (gs : List Graph) (es : List Event) : Prop :=
  ∀ g ∈ gs, ∀ e ∈ es, ∀ e' ∈ es,
    e.action.addresses g → e'.action.addresses g → e.carrier = e'.carrier

instance (gs : List Graph) (es : List Event) : Decidable (Undisputed gs es) :=
  inferInstanceAs (Decidable (∀ g ∈ gs, ∀ e ∈ es, ∀ e' ∈ es,
    e.action.addresses g → e'.action.addresses g → e.carrier = e'.carrier))

variable {p p' : Playback}

/-! ### Playbacks that differ in order only -/

/-- Two playbacks have the same graphs in the same states and the same clicks to come, in whatever
order. -/
structure Alike (p p' : Playback) : Prop where
  graphs : p.graphs.Perm p'.graphs
  each : ∀ g ∈ p.graphs, ∃ l, p.Sole g.carrier l ∧ p'.Sole g.carrier l
  queued : p.queued.Perm p'.queued
  ticks : p'.ticks = p.ticks

/-- Moments that have the same impacts on every graph have the same events of each, and leave the
same, if they do so of the queue and the ticks. -/
theorem Alike.after (alike : p.Alike p') (distinct : p.Distinct) {ms ms' : List Moment}
    (other : ∀ m ∈ ms, m.isLoading = false) (other' : ∀ m ∈ ms', m.isLoading = false)
    (impacts : ∀ g ∈ p.graphs, ms'.filterMap (p.impact? g.carrier) =
      ms.filterMap (p.impact? g.carrier))
    (queued : (p.after ms).queued.Perm (p'.after ms').queued)
    (ticks : ms'.countP Moment.isEvaluation = ms.countP Moment.isEvaluation) :
    (p.after ms).Alike (p'.after ms') ∧
      SameByCarrier (events (p.trail ms)) (events (p'.trail ms')) := by
  have distinct' := distinct.of_perm alike.graphs
  have story : ∀ g ∈ p.graphs, (∃ l, (p.after ms).Sole g.carrier l ∧
      (p'.after ms').Sole g.carrier l) ∧
      (events (p'.trail ms')).filter (·.carrier == g.carrier) =
        (events (p.trail ms)).filter (·.carrier == g.carrier) := by
    intro g mem
    obtain ⟨l, sole, sole'⟩ := alike.each g mem
    obtain ⟨last, told⟩ := sole.after_meetAll distinct other
    obtain ⟨last', told'⟩ := sole'.after_meetAll distinct' other'
    have same : p'.impact? g.carrier = p.impact? g.carrier :=
      funext (distinct.impact?_congr alike.graphs g.carrier)
    rw [same, impacts g mem, alike.ticks] at last' told'
    exact ⟨⟨_, last, last'⟩, told'.trans told.symm⟩
  constructor
  · refine ⟨?_, ?_, queued, ?_⟩
    · rw [p.graphs_after other, p'.graphs_after other']
      exact alike.graphs
    · rw [p.graphs_after other]
      exact fun g mem => (story g mem).1
    · rw [ticks_after, ticks_after, alike.ticks, ticks]
  · intro carrier
    by_cases loaded : ∃ g ∈ p.graphs, g.carrier = carrier
    · obtain ⟨g, mem, rfl⟩ := loaded
      exact (story g mem).2
    · -- Nothing else dispatches anything.
      rw [List.filter_eq_nil_iff.2, List.filter_eq_nil_iff.2]
      · intro e he same
        obtain ⟨g, mem, own⟩ := carrier_of_mem_events other he
        exact loaded ⟨g, mem, own.trans (beq_iff_eq.1 same)⟩
      · intro e he same
        obtain ⟨g, mem, own⟩ := carrier_of_mem_events other' he
        exact loaded ⟨g, alike.graphs.mem_iff.2 mem, own.trans (beq_iff_eq.1 same)⟩

/-! ### Applying actions -/

theorem activated?_congr (same : p.graphs.Perm p'.graphs) (a : Action) :
    p'.activated? a = p.activated? a := by
  have found : ∀ source, (p'.find? .link source).isSome = (p.find? .link source).isSome := by
    intro source
    rw [Bool.eq_iff_iff, isSome_find?_iff, isSome_find?_iff]
    simp only [same.mem_iff]
  simp only [activated?, found]

theorem queued_apply (p : Playback) (actions : List Action) : (p.apply actions).queued =
    if .reset ∈ actions then [] else p.queued ++ actions.filterMap p.activated? := by
  have folded : ∀ q : Playback, q.graphs = p.graphs →
      (actions.foldl applyOne q).queued = q.queued ++ actions.filterMap p.activated? := by
    induction actions with
    | nil => exact fun q _ => (List.append_nil _).symm
    | cons a actions ih =>
      intro q same
      -- Which links are loaded does not change on the way.
      have graphs : (q.applyOne a).graphs = p.graphs :=
        (q.graphs_happen (m := .effect a) rfl).trans same
      have here : q.activated? a = p.activated? a := activated?_congr (.of_eq same.symm) a
      have first : (q.applyOne a).queued = q.queued ++ (p.activated? a).toList := by
        rw [applyOne_eq, here]
      rw [List.foldl_cons, ih _ graphs, first, List.append_assoc]
      cases activated : p.activated? a with
      | none => rw [List.filterMap_cons_none activated, Option.toList_none, List.nil_append]
      | some object => rw [List.filterMap_cons_some activated]; rfl
  rw [apply]
  split
  · rfl
  · exact folded p rfl

/-- The impacts that the settling of some actions has on a graph come from the actions that are
addressed to it. -/
theorem Distinct.impacts_settling (distinct : p.Distinct) {g : Graph} (mem : g ∈ p.graphs)
    {actions actions' : List Action} (perm : actions.Perm actions')
    (same : actions'.filter (·.addresses g) = actions.filter (·.addresses g)) :
    (settling actions').filterMap (p.impact? g.carrier) =
      (settling actions).filterMap (p.impact? g.carrier) := by
  have addressed : ∀ as : List Action, as.filterMap (p.impact? g.carrier ∘ .effect) =
      (as.filter (·.addresses g)).filterMap (p.impact? g.carrier ∘ .effect) := by
    intro as
    rw [List.filterMap_filter]
    refine List.filterMap_congr fun a _ => ?_
    split
    · rfl
    · next away =>
      -- An action that is not addressed to the graph has no impact on it.
      refine Option.eq_none_iff_forall_ne_some.2 fun i met => away ?_
      exact distinct.addresses_of_impact? mem met
  simp only [settling, List.filterMap_append, List.filterMap_map, perm.mem_iff]
  rw [addressed actions', same, ← addressed actions]

theorem Alike.apply (alike : p.Alike p') (distinct : p.Distinct) {actions actions' : List Action}
    (perm : actions.Perm actions')
    (same : ∀ g ∈ p.graphs,
      actions'.filter (·.addresses g) = actions.filter (·.addresses g)) :
    (p.apply actions).Alike (p'.apply actions') := by
  have queued : (p.apply actions).queued.Perm (p'.apply actions').queued := by
    rw [queued_apply, queued_apply, funext (activated?_congr alike.graphs)]
    simp only [perm.mem_iff]
    split
    · exact .nil
    · exact alike.queued.append (perm.filterMap _)
  have evaluations : ∀ as, (settling as).countP Moment.isEvaluation = 0 := by
    intro as
    rw [List.countP_eq_zero]
    intro m hm
    obtain ⟨a, rfl⟩ | rfl := mem_settling hm <;> exact Bool.false_ne_true
  rw [(p.apply_eq actions).1, (p'.apply_eq actions').1] at queued ⊢
  refine (alike.after distinct (fun m hm => isLoading_settling hm)
    (fun m hm => isLoading_settling hm) (fun g mem => ?_) queued ?_).1
  · exact distinct.impacts_settling mem perm (same g mem)
  · rw [evaluations, evaluations]

/-- What is dispatched has the same effects, in whatever order, if no graph is addressed from two
sides. -/
theorem Alike.apply_events (alike : p.Alike p') (distinct : p.Distinct) {es es' : List Event}
    (same : SameByCarrier es es') (undisputed : Undisputed p.graphs es) :
    (p.apply (es.map Event.action)).Alike (p'.apply (es'.map Event.action)) := by
  refine alike.apply distinct (same.perm.map _) fun g mem => ?_
  rw [List.filter_map, List.filter_map]
  exact congrArg _ (same.filter (undisputed g mem))

/-! ### Commands -/

theorem queued_after_deliver (p : Playback) (objects : List String) :
    (p.after (objects.map .deliver)).queued = p.queued := by
  induction objects generalizing p with
  | nil => rfl
  | cons object rest ih =>
    show ((p.happen (.deliver object)).1.after _).queued = _
    rw [ih, queued_happen]
    exact List.append_nil _

theorem impact?_deliver {carrier object : String} {i : Impact}
    (met : p.impact? carrier (.deliver object) = some i) : i = .click := by
  rw [impact?] at met
  split at met
  · exact (Option.some_inj.1 met).symm
  · cases met

/-- Clicks in another order have the same impacts. -/
theorem impacts_deliver {objects objects' : List String} (perm : objects.Perm objects')
    (carrier : String) :
    (objects'.map .deliver).filterMap (p.impact? carrier) =
      (objects.map .deliver).filterMap (p.impact? carrier) := by
  have clicks : ∀ os : List String, ∀ i ∈ (os.map .deliver).filterMap (p.impact? carrier),
      i = .click := by
    intro os i mem
    obtain ⟨m, hm, met⟩ := List.mem_filterMap.1 mem
    obtain ⟨object, -, rfl⟩ := List.mem_map.1 hm
    exact impact?_deliver met
  -- So only their number matters.
  rw [List.eq_replicate_of_mem (clicks objects), List.eq_replicate_of_mem (clicks objects'),
    ((perm.map _).filterMap _).length_eq]

/-- The moments of a tick before its effects are applied. -/
def responding (p : Playback) (position? : String → Option (Triple Number)) : List Moment :=
  .evaluate position? :: p.queued.map .deliver

theorem respond_eq (p : Playback) (position? : String → Option (Triple Number)) :
    p.respond position? =
      (p.after (p.responding position?), events (p.trail (p.responding position?))) := by
  have delivered := deliverAll_eq (p.happen (.evaluate position?)).1 p.queued
  have whole : p.respond position? =
      (((p.happen (.evaluate position?)).1.deliverAll p.queued).1,
        (p.happen (.evaluate position?)).2 ++
          ((p.happen (.evaluate position?)).1.deliverAll p.queued).2) := rfl
  rw [whole, delivered]
  rfl

theorem isLoading_responding {position? : String → Option (Triple Number)} {m : Moment}
    (h : m ∈ p.responding position?) : m.isLoading = false := by
  rcases List.mem_cons.1 h with rfl | h
  · rfl
  · obtain ⟨object, -, rfl⟩ := List.mem_map.1 h
    rfl

theorem graphs_respond (p : Playback) (position? : String → Option (Triple Number)) :
    (p.respond position?).1.graphs = p.graphs := by
  rw [respond_eq]
  exact p.graphs_after fun m hm => isLoading_responding hm

theorem Alike.respond (alike : p.Alike p') (distinct : p.Distinct)
    (position? : String → Option (Triple Number)) :
    (p.respond position?).1.Alike (p'.respond position?).1 ∧
      SameByCarrier (p.respond position?).2 (p'.respond position?).2 := by
  have emptied : ∀ q : Playback, (q.after (q.responding position?)).queued = [] :=
    fun q => queued_after_deliver (q.happen (.evaluate position?)).1 q.queued
  have once : ∀ q : Playback, (q.responding position?).countP Moment.isEvaluation = 1 := by
    intro q
    have clicks : (q.queued.map Moment.deliver).countP Moment.isEvaluation = 0 := by
      rw [List.countP_map, List.countP_eq_zero]
      exact fun _ _ => Bool.false_ne_true
    rw [responding, List.countP_cons, clicks]
    rfl
  rw [respond_eq, respond_eq]
  refine alike.after distinct (fun m hm => isLoading_responding hm)
    (fun m hm => isLoading_responding hm) (fun g _ => ?_) ?_ ?_
  · have evaluated : p.impact? g.carrier (.evaluate position?) = some (.evaluate position?) := rfl
    have clicks := impacts_deliver (p := p) alike.queued g.carrier
    rw [responding, responding, List.filterMap_cons_some evaluated,
      List.filterMap_cons_some evaluated, clicks]
  · rw [emptied, emptied]
  · rw [once, once]

theorem Alike.deliver (alike : p.Alike p') (distinct : p.Distinct) (object : String) :
    (p.deliver object).1.Alike (p'.deliver object).1 ∧
      SameByCarrier (p.deliver object).2 (p'.deliver object).2 := by
  have single : ∀ q : Playback,
      q.deliver object = (q.after [.deliver object], events (q.trail [.deliver object])) :=
    fun q => Prod.ext rfl (List.append_nil _).symm
  have other : ∀ m ∈ [Moment.deliver object], m.isLoading = false := by
    intro m hm
    rw [List.mem_singleton.1 hm]
    rfl
  rw [single, single]
  refine alike.after distinct other other (fun _ _ => rfl) ?_ rfl
  have queued := p.queued_after_deliver [object]
  have queued' := p'.queued_after_deliver [object]
  rw [List.map_singleton] at queued queued'
  rw [queued, queued']
  exact alike.queued

/-- A click comes to one link, which dispatches all that comes of it. -/
theorem undisputed_deliver (p : Playback) (gs : List Graph) (object : String) :
    Undisputed gs (p.deliver object).2 := by
  rw [deliver_eq, clickEvents]
  split
  · intro g _ e he e' he' _ _
    rw [carrier_eventsOf he, carrier_eventsOf he']
  · rintro g - e ⟨⟩

/-- In no tick of a run is a graph addressed by events of two carriers. -/
def Independent (p : Playback) : List Command → Prop
  | [] => True
  | c :: cs =>
    (c.isTick → Undisputed p.graphs (p.perform c).2) ∧ (p.perform c).1.Independent cs

instance Independent.decidable : (p : Playback) → (cs : List Command) →
    Decidable (p.Independent cs)
  | _, [] => isTrue trivial
  | p, c :: cs =>
    have := Independent.decidable (p.perform c).1 cs
    inferInstanceAs (Decidable ((c.isTick → Undisputed p.graphs (p.perform c).2) ∧
      (p.perform c).1.Independent cs))

theorem Alike.reset (alike : p.Alike p') : p.reset.Alike p'.reset := by
  have graphs : ∀ q : Playback, q.reset.graphs = q.graphs := fun q =>
    q.graphs_happen (m := .reset) rfl
  refine ⟨?_, ?_, .nil, alike.ticks⟩
  · rw [graphs, graphs]
    exact alike.graphs
  · rw [graphs]
    intro g mem
    obtain ⟨l, sole, sole'⟩ := alike.each g mem
    exact ⟨_, sole.map fun _ => rfl, sole'.map fun _ => rfl⟩

/-- **A command keeps playbacks alike**, if no graph is addressed from two sides in it. -/
theorem Alike.perform (alike : p.Alike p') (distinct : p.Distinct) {c : Command}
    (plain : c.isLoading = false)
    (undisputed : c.isTick → Undisputed p.graphs (p.perform c).2) :
    (p.perform c).1.Alike (p'.perform c).1 ∧ SameByCarrier (p.perform c).2 (p'.perform c).2 := by
  cases c with
  | load | unload => cases plain
  | tick position? =>
    obtain ⟨responds, same⟩ := alike.respond distinct position?
    have graphs := p.graphs_respond position?
    rw [perform_tick, perform_tick]
    refine ⟨responds.apply_events (distinct.congr graphs) same ?_, same⟩
    rw [graphs]
    exact undisputed rfl
  | click object =>
    obtain ⟨delivered, same⟩ := alike.deliver distinct object
    have graphs : (p.deliver object).1.graphs = p.graphs :=
      p.graphs_happen (m := .deliver object) rfl
    rw [perform_click, perform_click]
    exact ⟨delivered.apply_events (distinct.congr graphs) same (undisputed_deliver _ _ _), same⟩
  | apply actions =>
    exact ⟨alike.apply distinct (.refl _) fun _ _ => rfl, fun _ => rfl⟩
  | reset => exact ⟨alike.reset, fun _ => rfl⟩

theorem Alike.performAll (alike : p.Alike p') (distinct : p.Distinct) {cs : List Command}
    (plain : ∀ c ∈ cs, c.isLoading = false) (independent : p.Independent cs) :
    (p.performAll cs).1.Alike (p'.performAll cs).1 ∧
      SameByCarrier (p.performAll cs).2 (p'.performAll cs).2 := by
  induction cs generalizing p p' with
  | nil => exact ⟨alike, fun _ => rfl⟩
  | cons c cs ih =>
    have here := plain c List.mem_cons_self
    obtain ⟨undisputed, independent⟩ := independent
    obtain ⟨step, same⟩ := alike.perform distinct here undisputed
    obtain ⟨last, later⟩ := ih step (distinct.congr (p.graphs_perform here))
      (fun x hx => plain x (List.mem_cons_of_mem c hx)) independent
    exact ⟨last, same.append later⟩

theorem Independent.of_isPrefix {past cs : List Command} (independent : p.Independent cs)
    (part : past <+: cs) : p.Independent past := by
  induction past generalizing p cs with
  | nil => trivial
  | cons c past ih =>
    obtain ⟨rest, rfl⟩ := part
    exact ⟨independent.1, ih independent.2 ⟨rest, rfl⟩⟩

/-! ### Loading in another order -/

/-- Graphs that are loaded in two orders are alike. -/
theorem alike_loadAll {gs gs' : List Graph} (order : gs'.Perm gs)
    (loads : ({} : Playback).loadAll gs = .ok p) :
    ∃ p', ({} : Playback).loadAll gs' = .ok p' ∧ p.Alike p' := by
  obtain ⟨carriers, -, new, all, made⟩ := loadAll_eq_ok.1 loads
  -- What is loaded in the other order is what is loaded in this one, reordered.
  obtain ⟨new', all', same⟩ := List.perm_comp_forall₂ order all
  have carriers' : (gs'.map Graph.carrier).Nodup := (order.map _).nodup_iff.2 carriers
  have loads' : ({} : Playback).loadAll gs' = .ok { loaded := new' } :=
    loadAll_eq_ok.2 ⟨carriers', fun _ _ => List.not_mem_nil, new', all', rfl⟩
  refine ⟨_, loads', ?_⟩
  have loaded : p.loaded.Perm new' := by
    rw [made]
    exact same.symm
  have graphs := graphs_loadAll loads
  have graphs' := graphs_loadAll loads'
  refine ⟨?_, ?_, ?_, ?_⟩
  · rw [graphs, graphs']
    exact order.symm
  · intro g mem
    obtain ⟨l, here, rfl⟩ := List.mem_map.1 mem
    rw [← graphs] at carriers
    rw [← graphs'] at carriers'
    exact ⟨l, sole_of_nodup carriers here, sole_of_nodup carriers' (loaded.mem_iff.1 here)⟩
  · rw [made]
  · rw [made]

/-- **The order of loading does not matter** for graphs that are told apart, unless some graph is
addressed from two sides in one tick: at every point of a run each graph is in the same state in
either order, to what it keeps to itself, and has dispatched the same in the same ticks. -/
theorem load_order_does_not_matter {gs gs' : List Graph} (order : gs'.Perm gs)
    (playable : ∀ g ∈ gs, g.Playable) (carriers : (gs.map Graph.carrier).Nodup)
    (addresses : (gs.map Graph.address).Nodup) :
    ∃ p p', ({} : Playback).loadAll gs = .ok p ∧ ({} : Playback).loadAll gs' = .ok p' ∧
      ∀ commands, (∀ c ∈ commands, c.isLoading = false) → p.Independent commands →
        ∀ past, past <+: commands → ∀ g ∈ gs,
          (∃ l, l.graph = g ∧ (p.performAll past).1.Sole g.carrier l ∧
            (p'.performAll past).1.Sole g.carrier l) ∧
          (p'.performAll past).2.filter (·.carrier == g.carrier) =
            (p.performAll past).2.filter (·.carrier == g.carrier) := by
  obtain ⟨p, loads⟩ := exists_loadAll playable carriers
  obtain ⟨p', loads', alike⟩ := alike_loadAll order loads
  have graphs := graphs_loadAll loads
  have distinct : p.Distinct := ⟨graphs ▸ carriers, graphs ▸ addresses⟩
  refine ⟨p, p', loads, loads', fun commands plain independent past part g mem => ?_⟩
  have plain : ∀ c ∈ past, c.isLoading = false := fun c hc => plain c (part.subset hc)
  obtain ⟨last, same⟩ := alike.performAll distinct plain (independent.of_isPrefix part)
  have still := p.graphs_performAll plain
  rw [← graphs, ← still] at mem
  obtain ⟨l, sole, sole'⟩ := last.each g mem
  refine ⟨⟨l, ?_, sole, sole'⟩, same g.carrier⟩
  obtain ⟨loaded, own⟩ := sole.mem
  exact (distinct.congr still).eq_of_carrier (List.mem_map_of_mem loaded) mem own

/-- Evenings with a door that is clicked at will, disabled, and all begun again. -/
def doorEvenings : List Command :=
  [.tick doorScene.position?, .click "door", .tick doorScene.position?,
    .tick doorScene.position?, .apply [.link doorTarget .disable],
    .tick doorScene.position?, .reset, .tick doorScene.position?]

/-- The door may be loaded before the evening that asks for clicks on it, or behind it. -/
theorem doorLink_in_either_order :
    ∃ door evening c c' p p',
      Compilation.compile { names := .empty } Compilation.plainConfig doorScene
        (.link doorLink) (some "door") = (.ok door, c) ∧
      Compilation.compile { names := .empty } Compilation.plainConfig doorScene
        (.timeline eveningTimeline) none = (.ok evening, c') ∧
      ({} : Playback).loadAll [door.graph, evening.graph] = .ok p ∧
      ({} : Playback).loadAll [evening.graph, door.graph] = .ok p' ∧
      p.Independent doorEvenings ∧
      ∀ past, past <+: doorEvenings → ∀ g ∈ [door.graph, evening.graph],
        (∃ l, l.graph = g ∧ (p.performAll past).1.Sole g.carrier l ∧
          (p'.performAll past).1.Sole g.carrier l) ∧
        (p'.performAll past).2.filter (·.carrier == g.carrier) =
          (p.performAll past).2.filter (·.carrier == g.carrier) := by
  have plays : Compilation.playsAs { names := .empty } Compilation.plainConfig doorScene
      (.link doorLink) (some "door") (fun door _ =>
        Compilation.playsAs { names := .empty } Compilation.plainConfig doorScene
          (.timeline eveningTimeline) none (fun evening _ =>
            ([door, evening].map Graph.carrier).Nodup ∧ ([door, evening].map Graph.address).Nodup ∧
              (({} : Playback).loadAll [door, evening]).toOption.any
                (·.Independent doorEvenings))) := by
    decide +kernel
  obtain ⟨door, c, _, compiles, -, plays⟩ := Compilation.exists_of_playsAs plays
  obtain ⟨evening, c', _, compiles', -, check⟩ := Compilation.exists_of_playsAs plays
  obtain ⟨carriers, addresses, independent⟩ := of_decide_eq_true check
  have playable : ∀ g ∈ [door.graph, evening.graph], g.Playable := by
    simp only [List.forall_mem_cons, List.not_mem_nil, false_implies, implies_true, and_true]
    exact ⟨playable_of_compile compiles, playable_of_compile compiles'⟩
  obtain ⟨p, p', loads, loads', same⟩ :=
    load_order_does_not_matter (.swap door.graph evening.graph []) playable carriers addresses
  rw [loads] at independent
  have independent := of_decide_eq_true independent
  exact ⟨door, evening, c, c', p, p', compiles, compiles', loads, loads', independent,
    same doorEvenings (by simp [doorEvenings, Command.isLoading]) independent⟩

end Playback

end SceneLogic
