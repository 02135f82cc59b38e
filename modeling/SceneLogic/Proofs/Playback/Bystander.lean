/-
Graphs whose actions are for the host alone do not interfere.

A graph that only moves, shows and sounds things dispatches nothing that another graph could notice,
and what is addressed to it reaches no other.  So taking it out of a playback, together with the
clicks that are queued for it, commutes with every command (`Knows.perform_without`): with the
graph or without it, all others go through the same states and dispatch the same
(`bystander_does_not_interfere`).
-/
import Mathlib.Data.List.Find
import SceneLogic.Proofs.Link.Clicks
import SceneLogic.Proofs.Playback.Runs
namespace SceneLogic

/-- An action changes the scene alone, which is up to the host. -/
def Action.isForHost : Action → Bool
  | move .. | visibility .. | sound .. | group .. => true
  | _ => false

namespace Graph

/-- All that a graph dispatches is for the host. -/
def IsBystander (g : Graph) : Prop :=
  ∀ node ∈ g.nodes, ∀ action ∈ node.role.action?, action.isForHost

instance (g : Graph) : Decidable g.IsBystander :=
  inferInstanceAs (Decidable (∀ node ∈ g.nodes, ∀ action ∈ node.role.action?, action.isForHost))

/-- A graph is that of the link on an object. -/
def isLinkOn (g : Graph) (object : String) : Bool := g.address = (.link, object)

/-- Two graphs share neither their carrier nor their address. -/
def Apart (g g' : Graph) : Prop := g.carrier ≠ g'.carrier ∧ g.address ≠ g'.address

instance (g g' : Graph) : Decidable (g.Apart g') :=
  inferInstanceAs (Decidable (g.carrier ≠ g'.carrier ∧ g.address ≠ g'.address))

theorem IsBystander.action {g : Graph} (h : g.IsBystander) {id : String} {a : Action}
    (found : g.action? id = some a) : a.isForHost := by
  rw [action?_eq] at found
  obtain ⟨node, at_id, dispatched⟩ := Option.bind_eq_some_iff.1 found
  exact h node (List.mem_of_find?_eq_some at_id) a dispatched

end Graph

/-- A command loads or unloads a graph. -/
def Command.concerns (g : Graph) : Command → Bool
  | load g' => g' = g
  | unload carrier => carrier = g.carrier
  | _ => false

/-- The change of the first item and a filter commute, if the filter separates what passes the test
from the rest. -/
theorem filter_changeFirst_comm {α : Type} {test keep : α → Bool} {change : α → α} {xs : List α}
    (same : ∀ x, keep (change x) = keep x)
    (separate : (∀ x ∈ xs, ¬ keep x → ¬ test x) ∨ ∀ x ∈ xs, keep x → ¬ test x) :
    (Playback.changeFirst test change xs).filter keep =
      Playback.changeFirst test change (xs.filter keep) := by
  rw [filter_changeFirst fun x _ => same x]
  split
  · rfl
  · next out =>
    refine (changeFirst_of_forall fun x hx pass => ?_).symm
    obtain ⟨mem, kept⟩ := List.mem_filter.1 hx
    rcases separate with dropped | left
    · -- The first item to pass would be kept.
      cases found : xs.find? test with
      | none => exact List.find?_eq_none.1 found x mem pass
      | some y =>
        rw [found] at out
        exact dropped y (List.mem_of_find?_eq_some found) out (List.find?_some found)
    · exact left x mem kept pass

namespace Playback

/-- The playback without a graph, and without the clicks that are queued for it. -/
def without (g : Graph) (p : Playback) : Playback where
  loaded := p.loaded.filter (·.graph.carrier != g.carrier)
  queued := p.queued.filter (!g.isLinkOn ·)
  ticks := p.ticks

/-- The events of all graphs but one. -/
def eventsWithout (g : Graph) (events : List Event) : List Event :=
  events.filter (·.carrier != g.carrier)

theorem eventsWithout_append (g : Graph) (events events' : List Event) :
    eventsWithout g (events ++ events') = eventsWithout g events ++ eventsWithout g events' :=
  List.filter_append ..

/-- All that a graph dispatches among some events is for the host. -/
def Quiet (g : Graph) (events : List Event) : Prop :=
  ∀ e ∈ events, e.carrier = g.carrier → e.action.isForHost

/-- No loaded graph can be taken for a certain graph, but that graph itself. -/
def Knows (p : Playback) (g : Graph) : Prop := ∀ g' ∈ p.graphs, g' = g ∨ g'.Apart g

variable {p : Playback} {g : Graph}

theorem Knows.kept (knows : p.Knows g) {l : Loaded} (mem : l ∈ p.loaded)
    (kept : l.graph.carrier != g.carrier) : l.graph.address ≠ g.address := by
  rcases knows _ (List.mem_map_of_mem mem) with same | apart
  · rw [same] at kept
    exact absurd rfl (bne_iff_ne.1 kept)
  · exact apart.2

theorem Knows.dropped (knows : p.Knows g) {l : Loaded} (mem : l ∈ p.loaded)
    (dropped : ¬ (l.graph.carrier != g.carrier)) : l.graph = g := by
  rcases knows _ (List.mem_map_of_mem mem) with same | apart
  · exact same
  · exact absurd (bne_iff_ne.2 apart.1) dropped

theorem Knows.congr (knows : p.Knows g) {p' : Playback} (same : p'.repertoire = p.repertoire) :
    p'.Knows g := by
  rw [Knows, graphs_eq, same, ← graphs_eq]
  exact knows

theorem Knows.perform (knows : p.Knows g) {c : Command}
    (apart : ∀ g', c = .load g' → g' = g ∨ g'.Apart g) : (p.perform c).1.Knows g := by
  cases loading : c.isLoading with
  | false => exact knows.congr (p.repertoire_perform loading)
  | true =>
    cases c with
    | load g' =>
      show (p.tryLoad g').Knows g
      rw [tryLoad_eq]
      intro x hx
      obtain ⟨l, mem, rfl⟩ := List.mem_map.1 hx
      rcases List.mem_append.1 mem with old | new
      · exact knows _ (List.mem_map_of_mem old)
      · rw [graph_newcomer (Option.mem_toList.1 new)]
        exact apart g' rfl
    | unload carrier =>
      intro x hx
      refine knows x ?_
      exact (List.filter_sublist.map _).subset hx
    | tick | click | apply | reset => cases loading

/-- Changing what is at an address commutes with taking a graph out. -/
theorem Knows.filter_change (knows : p.Knows g) {test : Loaded → Bool}
    {address : Option (Graph.Kind × String)} {f : Loaded → Loaded}
    (at_address : ∀ l, test l ↔ address = some l.graph.address)
    (keeps : ∀ l, (f l).graph = l.graph) :
    (changeFirst test f p.loaded).filter (·.graph.carrier != g.carrier) =
      changeFirst test f (p.loaded.filter (·.graph.carrier != g.carrier)) := by
  refine filter_changeFirst_comm (fun l => by rw [keeps]) ?_
  -- The change comes to the graph that is taken out, or to none but others.
  by_cases own : address = some g.address
  · refine .inr fun l mem kept pass => knows.kept mem kept ?_
    rw [← Option.some_inj, ← own, (at_address l).1 pass]
  · refine .inl fun l mem out pass => own ?_
    rw [← knows.dropped mem out]
    exact (at_address l).1 pass

/-- Who is found at an address is found without a graph, too, unless it is this graph. -/
theorem Knows.find?_without (knows : p.Knows g) {kind : Graph.Kind} {source : String} :
    (p.without g).find? kind source =
      if g.address = (kind, source) then none else p.find? kind source := by
  rw [find?, find?]
  show (p.loaded.filter _).find? _ = _
  split
  · next own =>
    rw [List.find?_eq_none]
    intro l hl pass
    obtain ⟨mem, kept⟩ := List.mem_filter.1 hl
    exact knows.kept mem kept ((isAddressed_iff.1 pass).trans own.symm)
  · next other =>
    rw [List.find?_filter]
    refine List.find?_congr fun l mem => ?_
    by_cases kept : l.graph.carrier != g.carrier
    · simp [kept]
    · have out : ¬ isAddressed kind source l := by
        rw [isAddressed_iff, knows.dropped mem kept]
        exact other
      simp [kept, out]

theorem Knows.activated?_without (knows : p.Knows g) (a : Action) :
    ((p.without g).activated? a).toList =
      (p.activated? a).toList.filter (!g.isLinkOn ·) := by
  unfold activated?
  split
  · next target =>
    rw [knows.find?_without]
    by_cases own : g.address = (.link, target.name)
    · rw [if_pos own]
      cases p.find? .link target.name <;> simp [Graph.isLinkOn, own]
    · rw [if_neg own]
      cases p.find? .link target.name <;> simp [Graph.isLinkOn, own]
  · rfl

theorem Knows.applyOne_without (knows : p.Knows g) (a : Action) :
    (p.without g).applyOne a = (p.applyOne a).without g := by
  rw [applyOne_eq, applyOne_eq, knows.activated?_without]
  have addressed : ∀ l : Loaded, a.addresses l.graph ↔ a.address? = some l.graph.address :=
    fun l => Action.addresses_iff
  have changed := knows.filter_change (f := (·.affected a)) addressed
    fun l => (Loaded.plays_affected ⟨rfl, rfl⟩ a).1
  simp only [without, changed, List.filter_append]

theorem Knows.applyOne (knows : p.Knows g) (a : Action) : (p.applyOne a).Knows g :=
  knows.congr (p.repertoire_happen (m := .effect a) rfl)

theorem reset_without (g : Graph) (p : Playback) : (p.reset).without g = (p.without g).reset := by
  have same : ((·.graph.carrier != g.carrier) ∘ Loaded.restored) =
      (·.graph.carrier != g.carrier) := rfl
  simp only [without, reset, List.filter_map, same, List.filter_nil]

/-- An action for the host changes nothing in a playback. -/
theorem applyOne_of_isForHost {a : Action} (host : a.isForHost) (p : Playback) :
    p.applyOne a = p := by
  cases a with
  | move | visibility | sound | group => rfl
  | link | timeline | event | reset => cases host

/-- What is dispatched for the host need not be applied. -/
theorem apply_eventsWithout {events : List Event} (quiet : Quiet g events) (p : Playback) :
    p.apply ((eventsWithout g events).map Event.action) = p.apply (events.map Event.action) := by
  have folded : ∀ q : Playback, ((eventsWithout g events).map Event.action).foldl applyOne q =
      (events.map Event.action).foldl applyOne q := by
    induction events with
    | nil => exact fun _ => rfl
    | cons e events ih =>
      intro q
      have rest := ih fun e' he' => quiet e' (List.mem_cons_of_mem e he')
      rw [List.map_cons, List.foldl_cons, ← rest]
      by_cases own : e.carrier = g.carrier
      · have out : eventsWithout g (e :: events) = eventsWithout g events :=
          List.filter_cons_of_neg (by simp [own])
        rw [out, applyOne_of_isForHost (quiet e List.mem_cons_self own)]
      · have kept : eventsWithout g (e :: events) = e :: eventsWithout g events :=
          List.filter_cons_of_pos (by simp [own])
        rw [kept, List.map_cons, List.foldl_cons]
  have resets : .reset ∈ (eventsWithout g events).map Event.action ↔
      .reset ∈ events.map Event.action := by
    rw [List.mem_map, List.mem_map]
    constructor
    · rintro ⟨e, he, reset⟩
      exact ⟨e, List.mem_of_mem_filter he, reset⟩
    · rintro ⟨e, he, reset⟩
      refine ⟨e, List.mem_filter.2 ⟨he, bne_iff_ne.2 fun own => ?_⟩, reset⟩
      -- A reset is not for the host.
      have host := quiet e he own
      rw [reset] at host
      cases host
  simp only [apply, folded, resets]

theorem Knows.apply_without (knows : p.Knows g) (actions : List Action) :
    (p.without g).apply actions = (p.apply actions).without g := by
  have folded : ∀ q : Playback, q.Knows g →
      actions.foldl Playback.applyOne (q.without g) =
        (actions.foldl Playback.applyOne q).without g := by
    induction actions with
    | nil => exact fun _ _ => rfl
    | cons a actions ih =>
      intro q knows
      rw [List.foldl_cons, knows.applyOne_without, ih _ (knows.applyOne a), List.foldl_cons]
  simp only [apply, folded p knows]
  split
  · exact (reset_without g _).symm
  · rfl

/-! ### Commands -/

theorem eventsWithout_eventsOf (tick : Nat) (g g' : Graph) (nodes : List String) :
    eventsWithout g (eventsOf tick g' nodes) =
      if g'.carrier = g.carrier then [] else eventsOf tick g' nodes := by
  split
  · next own =>
    rw [eventsWithout, List.filter_eq_nil_iff]
    intro e he
    simp [carrier_eventsOf he, own]
  · next other =>
    rw [eventsWithout, List.filter_eq_self]
    intro e he
    simp [carrier_eventsOf he, other]

theorem isForHost_of_mem_eventsOf (host : g.IsBystander) {tick : Nat} {nodes : List String}
    {e : Event} (h : e ∈ eventsOf tick g nodes) : e.action.isForHost := by
  obtain ⟨node, -, some⟩ := List.mem_filterMap.1 h
  obtain ⟨action, found, rfl⟩ := Option.map_eq_some_iff.1 some
  exact host.action found

theorem Quiet.append {events events' : List Event} (h : Quiet g events) (h' : Quiet g events') :
    Quiet g (events ++ events') := by
  intro e he
  rcases List.mem_append.1 he with he | he
  · exact h e he
  · exact h' e he

theorem Knows.quiet_eventsOf (knows : p.Knows g) (host : g.IsBystander) {l : Loaded}
    (mem : l ∈ p.loaded) (tick : Nat) (nodes : List String) :
    Quiet g (eventsOf tick l.graph nodes) := by
  intro e he own
  rw [carrier_eventsOf he] at own
  rw [knows.dropped mem (by simp [own])] at he
  exact isForHost_of_mem_eventsOf host he

theorem evaluateAll_without (g : Graph) (p : Playback)
    (position? : String → Option (Triple Number)) :
    (p.without g).evaluateAll position? =
      ((p.evaluateAll position?).1.without g, eventsWithout g (p.evaluateAll position?).2) := by
  have same : ((·.graph.carrier != g.carrier) ∘ fun l : Loaded => (l.evaluate position?).1) =
      (·.graph.carrier != g.carrier) := by
    funext l
    rw [Function.comp_apply, (Loaded.plays_evaluate ⟨rfl, rfl⟩ position?).1]
  refine Prod.ext ?_ ?_
  · simp only [without, evaluateAll, List.filter_map, same]
  · refine (flatMap_filter _ (·.graph.carrier != g.carrier) _ ?_ p.loaded).symm
    intro l e he
    rw [carrier_eventsOf he]

theorem Knows.evaluateAll (knows : p.Knows g) (position? : String → Option (Triple Number)) :
    (p.evaluateAll position?).1.Knows g := by
  have same : (p.evaluateAll position?).1.graphs = p.graphs := by
    rw [graphs, graphs, Playback.evaluateAll, List.map_map]
    exact List.map_congr_left fun l _ => (Loaded.plays_evaluate ⟨rfl, rfl⟩ position?).1
  rwa [Knows, same]

theorem Knows.quiet_evaluateAll (knows : p.Knows g) (host : g.IsBystander)
    (position? : String → Option (Triple Number)) : Quiet g (p.evaluateAll position?).2 := by
  intro e he
  obtain ⟨l, mem, he⟩ := List.mem_flatMap.1 he
  exact knows.quiet_eventsOf host mem _ _ e he

theorem Knows.deliver_without (knows : p.Knows g) (object : String) :
    (p.without g).deliver object =
      ((p.deliver object).1.without g, eventsWithout g (p.deliver object).2) := by
  have at_object : ∀ l, isAddressed .link object l ↔ some (.link, object) = some l.graph.address :=
    fun l => by rw [isAddressed_iff, Option.some_inj, eq_comm]
  have changed := knows.filter_change (f := (·.click.1)) at_object
    fun l => (Loaded.plays_click ⟨rfl, rfl⟩).1
  rw [deliver_eq, deliver_eq]
  refine Prod.ext ?_ ?_
  · simp only [without, change, changed]
  · show (p.without g).clickEvents object = eventsWithout g (p.clickEvents object)
    rw [clickEvents, knows.find?_without, clickEvents]
    cases found : p.find? .link object with
    | none =>
      rw [ite_self]
      rfl
    | some l =>
      have mem := List.mem_of_find?_eq_some found
      have at_object : l.graph.address = (.link, object) :=
        isAddressed_iff.1 (List.find?_some found)
      rw [eventsWithout_eventsOf]
      by_cases own : l.graph.carrier = g.carrier
      · -- The link that hears the click is the graph that is taken out.
        have same := knows.dropped mem (by simp [own])
        rw [same] at at_object
        rw [if_pos at_object, if_pos own]
      · have other : g.address ≠ (.link, object) := by
          rw [← at_object]
          exact (knows.kept mem (by simp [own])).symm
        rw [if_neg other, if_neg own]
        rfl

theorem Knows.deliver (knows : p.Knows g) (object : String) : (p.deliver object).1.Knows g :=
  knows.congr (p.repertoire_happen (m := .deliver object) rfl)

theorem Knows.quiet_deliver (knows : p.Knows g) (host : g.IsBystander) (object : String) :
    Quiet g (p.deliver object).2 := by
  rw [deliver_eq, clickEvents]
  cases found : p.find? .link object with
  | none => rintro e ⟨⟩
  | some l => exact knows.quiet_eventsOf host (List.mem_of_find?_eq_some found) _ _

theorem Knows.deliverAll (knows : p.Knows g) (objects : List String) :
    (p.deliverAll objects).1.Knows g := by
  induction objects generalizing p with
  | nil => exact knows
  | cons object rest ih => exact ih (knows.deliver object)

theorem Knows.deliverAll_without (knows : p.Knows g) (objects : List String) :
    (p.without g).deliverAll (objects.filter (!g.isLinkOn ·)) =
      ((p.deliverAll objects).1.without g, eventsWithout g (p.deliverAll objects).2) := by
  induction objects generalizing p with
  | nil => rfl
  | cons object rest ih =>
    have first := knows.deliver_without object
    have others := ih (knows.deliver object)
    simp only [Playback.deliverAll, eventsWithout_append]
    by_cases own : g.address = (.link, object)
    · -- Without the graph there is no link on the object, so the click does nothing.
      have missed : (p.without g).deliver object = (p.without g, []) := by
        rw [Playback.deliver, knows.find?_without, if_pos own]
      rw [missed, Prod.mk.injEq] at first
      rw [List.filter_cons_of_neg (by simp [Graph.isLinkOn, own]), first.1, others, ← first.2,
        List.nil_append]
    · rw [List.filter_cons_of_pos (by simp [Graph.isLinkOn, own])]
      simp only [Playback.deliverAll, first, others]

theorem Knows.quiet_deliverAll (knows : p.Knows g) (host : g.IsBystander)
    (objects : List String) : Quiet g (p.deliverAll objects).2 := by
  induction objects generalizing p with
  | nil => rintro e ⟨⟩
  | cons object rest ih =>
    exact (knows.quiet_deliver host object).append (ih (knows.deliver object))

theorem Knows.respond (knows : p.Knows g) (position? : String → Option (Triple Number)) :
    (p.respond position?).1.Knows g := by
  have begun : Knows { p with ticks := p.ticks + 1, queued := [] } g := knows
  exact (begun.evaluateAll position?).deliverAll p.queued

theorem Knows.quiet_respond (knows : p.Knows g) (host : g.IsBystander)
    (position? : String → Option (Triple Number)) : Quiet g (p.respond position?).2 := by
  have begun : Knows { p with ticks := p.ticks + 1, queued := [] } g := knows
  exact (begun.quiet_evaluateAll host position?).append
    ((begun.evaluateAll position?).quiet_deliverAll host p.queued)

theorem hasLoaded_without {carrier : String} (other : carrier ≠ g.carrier) :
    (p.without g).hasLoaded carrier = p.hasLoaded carrier := by
  rw [Bool.eq_iff_iff, hasLoaded, hasLoaded, List.any_eq_true, List.any_eq_true]
  refine exists_congr fun l => and_congr_left fun same => ?_
  rw [without, List.mem_filter, beq_iff_eq.1 same]
  exact and_iff_left (bne_iff_ne.2 other)

/-- Taking a graph out commutes with loading others. -/
theorem tryLoad_without {g' : Graph} (other : g'.carrier ≠ g.carrier) :
    (p.without g).tryLoad g' = (p.tryLoad g').without g := by
  have new : (p.newcomer? g').toList.filter (·.graph.carrier != g.carrier) =
      (p.newcomer? g').toList := by
    refine List.filter_eq_self.2 fun l mem => bne_iff_ne.2 ?_
    rwa [graph_newcomer (Option.mem_toList.1 mem)]
  rw [tryLoad_eq, tryLoad_eq, newcomer?, hasLoaded_without other, ← newcomer?, without, without,
    List.filter_append, new]

theorem without_tryLoad (g : Graph) (p : Playback) : (p.tryLoad g).without g = p.without g := by
  have out : (p.newcomer? g).toList.filter (·.graph.carrier != g.carrier) = [] := by
    refine List.filter_eq_nil_iff.2 fun l mem => ?_
    rw [graph_newcomer (Option.mem_toList.1 mem), bne_self_eq_false]
    exact Bool.false_ne_true
  rw [tryLoad_eq, without, without, List.filter_append, out, List.append_nil]

theorem unload_without (carrier : String) (g : Graph) (p : Playback) :
    (p.without g).unload carrier = (p.unload carrier).without g := by
  simp only [without, unload, List.filter_filter, Bool.and_comm]

theorem without_unload (g : Graph) (p : Playback) :
    (p.unload g.carrier).without g = p.without g := by
  simp only [without, unload, List.filter_filter, Bool.and_self]

theorem Knows.respond_without (knows : p.Knows g) (position? : String → Option (Triple Number)) :
    (p.without g).respond position? =
      ((p.respond position?).1.without g, eventsWithout g (p.respond position?).2) := by
  have begun : Knows { p with ticks := p.ticks + 1, queued := [] } g := knows
  have evaluated := evaluateAll_without g { p with ticks := p.ticks + 1, queued := [] } position?
  have delivered := (begun.evaluateAll position?).deliverAll_without p.queued
  have start : { p.without g with ticks := (p.without g).ticks + 1, queued := [] } =
    { p with ticks := p.ticks + 1, queued := [] }.without g := rfl
  have clicks : (p.without g).queued = p.queued.filter (!g.isLinkOn ·) := rfl
  simp only [Playback.respond, start, clicks, evaluated, delivered]
  rw [← eventsWithout_append]

/-- Taking a bystander out commutes with every command that does not load or unload it. -/
theorem Knows.perform_without (knows : p.Knows g) (host : g.IsBystander) {c : Command}
    (other : c.concerns g = false) (apart : ∀ g', c = .load g' → g' = g ∨ g'.Apart g) :
    (p.without g).perform c = ((p.perform c).1.without g, eventsWithout g (p.perform c).2) := by
  cases c with
  | load g' =>
    exact Prod.ext (tryLoad_without ((apart g' rfl).resolve_left (of_decide_eq_false other)).1) rfl
  | unload carrier => exact Prod.ext (unload_without carrier g p) rfl
  | tick position? =>
    rw [perform_tick, perform_tick, knows.respond_without,
      apply_eventsWithout (knows.quiet_respond host position?),
      (knows.respond position?).apply_without]
  | click object =>
    rw [perform_click, perform_click, knows.deliver_without,
      apply_eventsWithout (knows.quiet_deliver host object),
      (knows.deliver object).apply_without]
  | apply actions => exact Prod.ext (knows.apply_without actions) rfl
  | reset => exact Prod.ext (reset_without g p).symm rfl

/-- Without a graph nothing shows of its being loaded or unloaded. -/
theorem without_perform {c : Command} (own : c.concerns g) :
    (p.perform c).1.without g = p.without g ∧ (p.perform c).2 = [] := by
  cases c with
  | load g' =>
    obtain rfl : g' = g := of_decide_eq_true own
    exact ⟨without_tryLoad g' p, rfl⟩
  | unload carrier =>
    obtain rfl : carrier = g.carrier := of_decide_eq_true own
    exact ⟨without_unload g p, rfl⟩
  | tick | click | apply | reset => cases own

theorem Knows.performAll_without (knows : p.Knows g) (host : g.IsBystander)
    {commands : List Command} (apart : ∀ g', .load g' ∈ commands → g' = g ∨ g'.Apart g) :
    (p.without g).performAll (commands.filter (!·.concerns g)) =
      ((p.performAll commands).1.without g, eventsWithout g (p.performAll commands).2) := by
  induction commands generalizing p with
  | nil => rfl
  | cons c cs ih =>
    have here : ∀ g', c = .load g' → g' = g ∨ g'.Apart g := fun g' h =>
      apart g' (h ▸ List.mem_cons_self)
    have rest := ih (knows.perform here) fun g' h => apart g' (List.mem_cons_of_mem c h)
    rw [performAll_cons, eventsWithout_append]
    cases own : c.concerns g with
    | true =>
      obtain ⟨still, silent⟩ := without_perform (p := p) own
      rw [List.filter_cons_of_neg (by simp [own]), ← still, rest, silent]
      rfl
    | false =>
      rw [List.filter_cons_of_pos (by simp [own]), performAll_cons,
        knows.perform_without host own here, rest]

/-- **Graphs whose actions are for the host do not interfere.**  Whatever is done to a playback, all
other graphs and their events are as in the playback into which the graph is never loaded; also the
clicks that are queued are the same, except those on the object that it is the link on. -/
theorem bystander_does_not_interfere {commands : List Command} (host : g.IsBystander)
    (apart : ∀ g', .load g' ∈ commands → g' = g ∨ g'.Apart g) :
    ({} : Playback).performAll (commands.filter (!·.concerns g)) =
      ((({} : Playback).performAll commands).1.without g,
        eventsWithout g (({} : Playback).performAll commands).2) :=
  Knows.performAll_without (p := {}) (by rintro g' ⟨⟩) host apart

theorem evening_isIdentifier : Text.isIdentifier "evening" := by decide

/-- An evening that begins with a click on the door. -/
def eveningTimeline : Timeline :=
  (Timeline.empty ⟨"evening", evening_isIdentifier⟩ true).place ⟨0, .link doorTarget .activate⟩

/-- A door is put into the evening and clicked, and then removed. -/
def doorEvening (door evening : Graph) : List Command :=
  [.load evening, .load door, .click "door", .tick doorScene.position?,
    .tick doorScene.position?, .apply [.link doorTarget .disable, .reset],
    .tick doorScene.position?, .unload door.carrier, .tick doorScene.position?]

/-- The second click on the door, which the evening asks for, hides it, and that is all. -/
theorem secondClickLink_does_not_interfere :
    ∃ door evening c c',
      Compilation.compile { names := .empty } Compilation.plainConfig doorScene
        (.link secondClickLink) (some "door") = (.ok door, c) ∧
      Compilation.compile { names := .empty } Compilation.plainConfig doorScene
        (.timeline eveningTimeline) none = (.ok evening, c') ∧
      door.graph.IsBystander ∧ evening.graph.Apart door.graph ∧
      ({} : Playback).performAll ((doorEvening door.graph evening.graph).filter
          (!·.concerns door.graph)) =
        ((({} : Playback).performAll (doorEvening door.graph evening.graph)).1.without door.graph,
          eventsWithout door.graph
            (({} : Playback).performAll (doorEvening door.graph evening.graph)).2) := by
  have plays : Compilation.playsAs { names := .empty } Compilation.plainConfig doorScene
      (.link secondClickLink) (some "door") (fun door _ =>
        Compilation.playsAs { names := .empty } Compilation.plainConfig doorScene
          (.timeline eveningTimeline) none (fun evening _ =>
            door.IsBystander ∧ evening.Apart door)) := by
    decide +kernel
  obtain ⟨door, c, _, compiles, -, plays⟩ := Compilation.exists_of_playsAs plays
  obtain ⟨evening, c', _, compiles', -, check⟩ := Compilation.exists_of_playsAs plays
  obtain ⟨host, apart⟩ := of_decide_eq_true check
  refine ⟨door, evening, c, c', compiles, compiles', host, apart,
    bystander_does_not_interfere host fun g' loads => ?_⟩
  simp only [doorEvening, List.mem_cons, Command.load.injEq, List.not_mem_nil, reduceCtorEq,
    or_false] at loads
  rcases loads with rfl | rfl
  · exact .inr apart
  · exact .inl rfl

end Playback

end SceneLogic
