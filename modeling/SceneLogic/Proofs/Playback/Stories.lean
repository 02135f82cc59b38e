/-
What one graph lives through in a run.

The impacts that a graph meets in a run decide what becomes of it and what it dispatches, with the
ticks of that, whatever else happens in between (`Sole.after_impacts`).  Where graphs are told apart
by carrier and by address, it is the graphs alone that decide which of them a moment has an impact
on, and these do not change unless graphs are loaded or unloaded (`Sole.after_meetAll`).
-/
import SceneLogic.Proofs.Playback.Runs
namespace SceneLogic

/-- A graph is evaluated. -/
def Impact.isEvaluation : Impact → Bool
  | evaluate _ => true
  | _ => false

/-- A graph after some impacts, with the events of these; every evaluation begins a tick. -/
def Loaded.meetAll (l : Loaded) (tick : Nat) : List Impact → Loaded × List Event
  | [] => (l, [])
  | i :: is =>
    let now := if i.isEvaluation then tick + 1 else tick
    let (met, nodes) := l.meet (some i)
    let (last, later) := met.meetAll now is
    (last, Playback.eventsOf now l.graph nodes ++ later)

namespace Playback

variable {p p' : Playback} {carrier : String} {l : Loaded}

/-! ### Graphs that are told apart -/

/-- The loaded graphs are told apart by their carriers as well as by their addresses. -/
structure Distinct (p : Playback) : Prop where
  carriers : (p.graphs.map Graph.carrier).Nodup
  addresses : (p.graphs.map Graph.address).Nodup

theorem Distinct.of_perm (h : p.Distinct) (perm : p.graphs.Perm p'.graphs) : p'.Distinct :=
  ⟨(perm.map _).nodup_iff.1 h.carriers, (perm.map _).nodup_iff.1 h.addresses⟩

theorem Distinct.congr (h : p.Distinct) (same : p'.graphs = p.graphs) : p'.Distinct :=
  h.of_perm (.of_eq same.symm)

theorem Distinct.eq_of_address (h : p.Distinct) {g g' : Graph} (mem : g ∈ p.graphs)
    (mem' : g' ∈ p.graphs) (same : g.address = g'.address) : g = g' :=
  List.inj_on_of_nodup_map h.addresses mem mem' same

theorem Distinct.eq_of_carrier (h : p.Distinct) {g g' : Graph} (mem : g ∈ p.graphs)
    (mem' : g' ∈ p.graphs) (same : g.carrier = g'.carrier) : g = g' :=
  List.inj_on_of_nodup_map h.carriers mem mem' same

theorem isSome_find?_iff {kind : Graph.Kind} {source : String} :
    (p.find? kind source).isSome ↔ ∃ g ∈ p.graphs, g.address = (kind, source) := by
  rw [find?, List.find?_isSome]
  constructor
  · rintro ⟨l, mem, addressed⟩
    exact ⟨l.graph, List.mem_map_of_mem mem, isAddressed_iff.1 addressed⟩
  · rintro ⟨g, mem, address⟩
    obtain ⟨l, loaded, rfl⟩ := List.mem_map.1 mem
    exact ⟨l, loaded, isAddressed_iff.2 address⟩

/-- The graphs alone decide which of them is reached. -/
theorem Distinct.reaches_iff (h : p.Distinct) {kind : Graph.Kind} {source : String} :
    p.reaches kind source carrier ↔
      ∃ g ∈ p.graphs, g.address = (kind, source) ∧ g.carrier = carrier := by
  rw [reaches, Option.any_eq_true]
  constructor
  · rintro ⟨l, found, same⟩
    exact ⟨l.graph, List.mem_map_of_mem (List.mem_of_find?_eq_some found),
      isAddressed_iff.1 (List.find?_some found), beq_iff_eq.1 same⟩
  · rintro ⟨g, mem, address, rfl⟩
    obtain ⟨l, found⟩ := Option.isSome_iff_exists.1 (isSome_find?_iff.2 ⟨g, mem, address⟩)
    -- The graph that is found has the address, and no two graphs share theirs.
    have loaded : l.graph ∈ p.graphs := List.mem_map_of_mem (List.mem_of_find?_eq_some found)
    have addressed := isAddressed_iff.1 (List.find?_some found)
    rw [h.eq_of_address mem loaded (address.trans addressed.symm)]
    exact ⟨l, found, BEq.rfl⟩

theorem Distinct.impact?_congr (h : p.Distinct) (same : p.graphs.Perm p'.graphs)
    (carrier : String) (m : Moment) : p'.impact? carrier m = p.impact? carrier m := by
  have reached : ∀ kind source, p'.reaches kind source carrier = p.reaches kind source carrier := by
    intro kind source
    rw [Bool.eq_iff_iff, (h.of_perm same).reaches_iff, h.reaches_iff]
    simp only [same.mem_iff]
  simp only [impact?, reached]

/-- The impact of an action comes from its being addressed to the graph. -/
theorem Distinct.addresses_of_impact? (h : p.Distinct) {g : Graph} (mem : g ∈ p.graphs)
    {a : Action} {i : Impact} (met : p.impact? g.carrier (.effect a) = some i) :
    a.addresses g := by
  have addressed : ∀ {kind : Graph.Kind} {source : String},
      a.address? = some (kind, source) → p.reaches kind source g.carrier →
        a.addresses g := by
    intro kind source address reached
    obtain ⟨g', mem', address', same⟩ := h.reaches_iff.1 reached
    rw [Action.addresses_iff, address, ← address', h.eq_of_carrier mem' mem same]
  cases a with
  | timeline target c =>
    rw [impact?] at met
    split at met
    · next reached => exact addressed rfl reached
    · cases met
  | event target enable =>
    rw [impact?] at met
    split at met
    · next reached => exact addressed rfl reached
    · cases met
  | link target c =>
    cases c with
    | enable | disable =>
      rw [impact?] at met
      split at met
      · next reached => exact addressed rfl reached
      · cases met
    | activate => cases met
  | move | visibility | sound | group | reset => cases met

theorem graphs_happen (p : Playback) {m : Moment} (other : m.isLoading = false) :
    (p.happen m).1.graphs = p.graphs := by
  rw [graphs_eq, p.repertoire_happen other, ← graphs_eq]

theorem graphs_after (p : Playback) {ms : List Moment} (other : ∀ m ∈ ms, m.isLoading = false) :
    (p.after ms).graphs = p.graphs := by
  rw [graphs_eq, p.repertoire_after other, ← graphs_eq]

/-! ### Ticks -/

theorem ticks_happen (p : Playback) (m : Moment) :
    (p.happen m).1.ticks = if m.isEvaluation then p.ticks + 1 else p.ticks := by
  cases m with
  | load g =>
    show (p.tryLoad g).ticks = p.ticks
    rw [tryLoad_eq]
  | unload | evaluate | reset => rfl
  | deliver object =>
    show (p.deliver object).1.ticks = p.ticks
    rw [deliver_eq]
    rfl
  | effect a =>
    show (p.applyOne a).ticks = p.ticks
    rw [applyOne_eq]

theorem ticks_after (p : Playback) (ms : List Moment) :
    (p.after ms).ticks = p.ticks + ms.countP Moment.isEvaluation := by
  induction ms generalizing p with
  | nil => rfl
  | cons m ms ih =>
    show ((p.happen m).1.after ms).ticks = _
    rw [ih, ticks_happen, List.countP_cons]
    split <;> omega

theorem tick_eventsOf {tick : Nat} {g : Graph} {nodes : List String} {e : Event}
    (h : e ∈ eventsOf tick g nodes) : e.tick = tick := by
  obtain ⟨node, -, some⟩ := List.mem_filterMap.1 h
  obtain ⟨action, -, rfl⟩ := Option.map_eq_some_iff.1 some
  rfl

/-- What happens is dispatched by a graph that is loaded, in the tick that has begun. -/
theorem exists_of_mem_happen {m : Moment} {e : Event} (h : e ∈ (p.happen m).2) :
    ∃ l ∈ p.loaded, ∃ nodes, e ∈ eventsOf (p.happen m).1.ticks l.graph nodes := by
  rw [ticks_happen]
  cases m with
  | evaluate position? =>
    obtain ⟨l, mem, h⟩ := List.mem_flatMap.1 h
    exact ⟨l, mem, _, h⟩
  | deliver object =>
    have delivered : e ∈ (p.deliver object).2 := h
    rw [deliver_eq, clickEvents] at delivered
    split at delivered
    · next l found => exact ⟨l, List.mem_of_find?_eq_some found, _, delivered⟩
    · cases delivered
  | load | unload | effect | reset => cases h

theorem tick_of_mem_happen {m : Moment} {e : Event} (h : e ∈ (p.happen m).2) :
    e.tick = (p.happen m).1.ticks := by
  obtain ⟨l, -, nodes, dispatched⟩ := exists_of_mem_happen h
  exact tick_eventsOf dispatched

theorem carrier_of_mem_happen {m : Moment} {e : Event} (h : e ∈ (p.happen m).2) :
    ∃ g ∈ p.graphs, g.carrier = e.carrier := by
  obtain ⟨l, mem, nodes, dispatched⟩ := exists_of_mem_happen h
  exact ⟨l.graph, List.mem_map_of_mem mem, (carrier_eventsOf dispatched).symm⟩

theorem carrier_of_mem_events {ms : List Moment} (other : ∀ m ∈ ms, m.isLoading = false)
    {e : Event} (h : e ∈ events (p.trail ms)) : ∃ g ∈ p.graphs, g.carrier = e.carrier := by
  induction ms generalizing p with
  | nil => cases h
  | cons m ms ih =>
    rcases List.mem_append.1 h with first | later
    · exact carrier_of_mem_happen first
    · rw [← p.graphs_happen (other m List.mem_cons_self)]
      exact ih (fun x hx => other x (List.mem_cons_of_mem m hx)) later

/-- Events of one tick and one carrier are told apart by nodes and actions. -/
theorem eq_of_map_eq (tick : Nat) (carrier : String) {es es' : List Event}
    (same : es.map (fun e => (e.node, e.action)) = es'.map fun e => (e.node, e.action))
    (known : ∀ e ∈ es, e.tick = tick ∧ e.carrier = carrier)
    (known' : ∀ e ∈ es', e.tick = tick ∧ e.carrier = carrier) : es = es' := by
  have rebuilt : ∀ es : List Event, (∀ e ∈ es, e.tick = tick ∧ e.carrier = carrier) →
      (es.map fun e => (e.node, e.action)).map (fun x => ⟨tick, carrier, x.1, x.2⟩) = es := by
    intro es known
    rw [List.map_map]
    refine (List.map_congr_left fun e he => ?_).trans (List.map_id es)
    obtain ⟨rfl, rfl⟩ := known e he
    rfl
  rw [← rebuilt es known, same, rebuilt es' known']

/-! ### Stories -/

theorem Sole.mem (sole : p.Sole carrier l) : l ∈ p.loaded ∧ l.graph.carrier = carrier := by
  have mem : l ∈ p.loaded.filter (·.graph.carrier == carrier) := by
    rw [sole]
    exact List.mem_singleton_self l
  rw [List.mem_filter, beq_iff_eq] at mem
  exact mem

theorem Sole.filter_happen (sole : p.Sole carrier l) {m : Moment} (keeps : m ≠ .unload carrier) :
    (p.happen m).2.filter (·.carrier == carrier) =
      eventsOf (p.happen m).1.ticks l.graph (l.meet (p.impact? carrier m)).2 := by
  -- Nodes and actions are those of the impact, and the tick and the carrier are known.
  have dispatched := (sole.happen keeps).2
  rw [dispatches_singleton, ← map_eventsOf (p.happen m).1.ticks] at dispatched
  refine eq_of_map_eq (p.happen m).1.ticks carrier dispatched (fun e he => ?_) fun e he => ?_
  · obtain ⟨mem, same⟩ := List.mem_filter.1 he
    exact ⟨tick_of_mem_happen mem, beq_iff_eq.1 same⟩
  · exact ⟨tick_eventsOf he, (carrier_eventsOf he).trans sole.mem.2⟩

/-- The impacts that a history has on the graph of a carrier. -/
def impacts (carrier : String) (history : List (Playback × Moment)) : List Impact :=
  history.filterMap fun x => x.1.impact? carrier x.2

theorem impacts_trail_cons (p : Playback) (carrier : String) (m : Moment) (ms : List Moment) :
    impacts carrier (p.trail (m :: ms)) =
      (p.impact? carrier m).toList ++ impacts carrier ((p.happen m).1.trail ms) := by
  rw [trail, impacts, List.filterMap_cons]
  cases p.impact? carrier m <;> rfl

/-- **The impacts that a graph meets decide what becomes of it** and what it dispatches, until it
is unloaded. -/
theorem Sole.after_impacts (sole : p.Sole carrier l) {ms : List Moment}
    (keeps : .unload carrier ∉ ms) :
    (p.after ms).Sole carrier (l.meetAll p.ticks (impacts carrier (p.trail ms))).1 ∧
      (events (p.trail ms)).filter (·.carrier == carrier) =
        (l.meetAll p.ticks (impacts carrier (p.trail ms))).2 := by
  -- By induction on the moments; the first one leaves the graph after its impact as the only one
  -- of the carrier.
  induction ms generalizing p l with
  | nil => exact ⟨sole, rfl⟩
  | cons m ms ih =>
    have own : m ≠ .unload carrier := by
      rintro rfl
      exact keeps List.mem_cons_self
    have later := ih (sole.happen own).1 fun h => keeps (List.mem_cons_of_mem m h)
    have whole : events (p.trail (m :: ms)) = (p.happen m).2 ++ events ((p.happen m).1.trail ms) :=
      rfl
    rw [whole, List.filter_append, sole.filter_happen own, impacts_trail_cons]
    show ((p.happen m).1.after ms).Sole carrier _ ∧ _
    have ticks := p.ticks_happen m
    cases met : p.impact? carrier m with
    | none =>
      -- An evaluation has an impact on every graph, so no tick begins here.
      have still : m.isEvaluation = false := by
        cases m with
        | evaluate position? => cases met
        | _ => rfl
      rw [met, ticks, if_neg (by rw [still]; exact Bool.false_ne_true)] at later
      exact later
    | some i =>
      have begins : m.isEvaluation = i.isEvaluation := by
        cases i with
        | evaluate position? =>
          by_contra ne
          exact impact?_ne_evaluate ((Bool.eq_false_or_eq_true _).resolve_left ne) position? met
        | _ =>
          cases m with
          | evaluate position? => cases met
          | _ => rfl
      rw [met, ticks, begins] at later
      rw [Option.toList_some, List.singleton_append, Loaded.meetAll, ticks, begins]
      exact ⟨later.1, by rw [later.2]⟩

/-- While graphs are told apart and stay, they alone decide which impacts a moment has. -/
theorem Distinct.impacts_trail (distinct : p.Distinct) {ms : List Moment}
    (other : ∀ m ∈ ms, m.isLoading = false) :
    impacts carrier (p.trail ms) = ms.filterMap (p.impact? carrier) := by
  induction ms generalizing p with
  | nil => rfl
  | cons m ms ih =>
    have graphs := p.graphs_happen (other m List.mem_cons_self)
    have same : (p.happen m).1.impact? carrier = p.impact? carrier :=
      funext (distinct.impact?_congr (.of_eq graphs.symm) carrier)
    have later := ih (distinct.congr graphs) fun x hx => other x (List.mem_cons_of_mem m hx)
    rw [same] at later
    rw [impacts_trail_cons, later, List.filterMap_cons]
    cases p.impact? carrier m <;> rfl

/-- The impacts on a graph among graphs that are told apart and stay can be told beforehand. -/
theorem Sole.after_meetAll (distinct : p.Distinct) (sole : p.Sole carrier l) {ms : List Moment}
    (other : ∀ m ∈ ms, m.isLoading = false) :
    (p.after ms).Sole carrier (l.meetAll p.ticks (ms.filterMap (p.impact? carrier))).1 ∧
      (events (p.trail ms)).filter (·.carrier == carrier) =
        (l.meetAll p.ticks (ms.filterMap (p.impact? carrier))).2 := by
  have keeps : .unload carrier ∉ ms := by
    intro unloads
    cases other _ unloads
  rw [← distinct.impacts_trail other]
  exact sole.after_impacts keeps

end Playback

end SceneLogic
