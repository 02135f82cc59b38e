/-
Holds cover what is dispatched.

A trigger that stopped before its actions did could fire again into them.  It does not: its hold is
the greatest of the ticks of its actions, and so is the hold of each list of a link, although ticks
are taken of the longest span in one place and the greatest of ticks in another
(`Graph.HoldsFor`, `Compilation.holdsFor`).  In playback the holder of whatever is dispatched runs
from then on, with no fewer ticks to count down than the action takes
(`Playback.holds_cover_actions`).
-/
import SceneLogic.Proofs.Number.Ticks
import SceneLogic.Proofs.Trigger.Turns
namespace SceneLogic

attribute [local irreducible] quantaPerUnit quantaLimit

/-- The ticks for which an action runs. -/
def Action.ticks (rate : Number) (action : Action) : Number := action.span.ticks rate

/-! ### Holds in graphs -/

/-- The holds in the graph of a record are the greatest of the ticks of the actions they are for: in
that of a trigger of all its actions, in that of a link list by list and, in its activate node, of
all lists.  A timeline holds nothing. -/
def Graph.HoldsFor (g : Graph) (rate : Number) : Record → Prop
  | .timeline _ => True
  | .region t => ∃ id sustainTicks activeTicks,
      g.nodesOf .activate = [⟨id, .activate sustainTicks activeTicks⟩] ∧
      activeTicks.IsGreatestOf (t.actions.map (Action.ticks rate))
  | .link l => ∃ id object reset bindings id' activeTicks,
      g.nodesOf .click = [⟨id, .click object reset bindings⟩] ∧
      List.Forall₂ (fun b e => Blueprint.Dispatches g b e ∧
        b.activeTicks.IsGreatestOf (e.2.map (Action.ticks rate))) bindings l.lists.entries ∧
      g.nodesOf .activate = [⟨id', .activate 0 activeTicks⟩] ∧
      activeTicks.IsGreatestOf (bindings.map ClickBinding.activeTicks)

namespace Blueprint

variable {config : Config} {x : Scalar} (rate : config.ticksPerSecond = .scalar x)
  (pos : 0 < x.quanta)
include rate pos

theorem holdTicks_isGreatestOf (actions : List Action) :
    (holdTicks config actions).IsGreatestOf (actions.map (Action.ticks config.ticksPerSecond)) := by
  have greatest := Span.isGreatestOf_longest pos (actions.map Action.span)
  rw [List.map_map, ← rate] at greatest
  exact greatest

variable (carrier : String) (kind : Graph.Kind) (source script : String)

/-- The longest hold is for the longest of the longest actions. -/
theorem longestHold_isGreatestOf (first : Nat) (lists : List (ClickCount × List Action)) :
    (longestHold (bindings config carrier first lists)).IsGreatestOf
      ((bindings config carrier first lists).map ClickBinding.activeTicks) := by
  let longest (e : ClickCount × List Action) : Span := .longest (e.2.map Action.span)
  have held : (bindings config carrier first lists).map ClickBinding.activeTicks =
      (lists.map longest).map (Span.ticks (.scalar x)) := by
    rw [← List.forall₂_eq_eq_eq, List.forall₂_map_left_iff, List.map_map, List.forall₂_map_right_iff]
    refine (bindings_hold config carrier first lists).imp fun b e hold => ?_
    rw [hold.2, holdTicks, rate]
    rfl
  have greatest := Span.isGreatestOf_foldl_max pos (lists.map longest)
  rw [← held, List.foldl_map] at greatest
  exact greatest

theorem region_holdsFor (t : RegionTrigger) (tracked : List String) :
    ((region config t tracked).graph carrier kind source script).HoldsFor config.ticksPerSecond
      (.region t) :=
  ⟨_, _, _, region_nodesOf_activate config t tracked carrier kind source script,
    holdTicks_isGreatestOf rate pos t.actions⟩

theorem link_holdsFor (l : ClickLink) (object : String) :
    ((link config carrier l object).graph carrier kind source script).HoldsFor
      config.ticksPerSecond (.link l) := by
  have bound := link_bindings config carrier l object kind source script
  refine ⟨_, _, _, _, _, _, link_nodesOf_click config carrier l object kind source script, ?_,
    link_nodesOf_activate config carrier l object kind source script,
    longestHold_isGreatestOf rate pos carrier 0 _⟩
  refine bound.imp fun b e parts => ⟨parts.1, ?_⟩
  rw [parts.2]
  exact holdTicks_isGreatestOf rate pos e.2

end Blueprint

/-- The graph of a record that compiles holds for its actions. -/
theorem Compilation.holdsFor {c c' : Compilation} {config : Config} {scene : Scene}
    {record : Record} {object : Option String} {compiled : Compiled} {x : Scalar}
    (rate : config.ticksPerSecond = .scalar x) (pos : 0 < x.quanta)
    (compiles : c.compile config scene record object = (.ok compiled, c')) :
    compiled.graph.HoldsFor config.ticksPerSecond record := by
  cases record with
  | timeline t => trivial
  | region t =>
    obtain ⟨carrier, script, tracked, -, graph⟩ := compile_region compiles
    rw [graph]
    exact Blueprint.region_holdsFor rate pos carrier .region _ script t tracked
  | link l =>
    obtain ⟨target, script, -, graph⟩ := compile_link compiles
    rw [graph]
    exact Blueprint.link_holdsFor rate pos _ .link _ script l target.name

/-! ### Holds in playback -/

/-- A hold for the ticks of a span covers those of a shorter one. -/
theorem Span.ticks_le_hold {x : Scalar} (pos : 0 < x.quanta) {s t : Span}
    (le : s.seconds ≤ t.seconds) :
    (s.ticks (.scalar x)).le ((1 : Number).max (t.ticks (.scalar x))) := by
  have fewer := ticks_mono pos le
  obtain ⟨_, _, -, place, -⟩ := Number.le_iff.1 fewer
  exact Number.le_trans fewer (Number.le_max_right Number.rank_one place)

namespace Playback

/-- **Holds cover what is dispatched.**  At every valid tick rate the holds in the graph of a
trigger or a link that compiles are the greatest of the ticks of the actions they are for; in all of
playback, the holder of what is dispatched runs and holds for the ticks of each of its actions.  The
ticks are those of the formula, which gives more for more seconds. -/
theorem holds_cover_actions {c c' : Compilation} {config : Config} {scene : Scene} {record : Record}
    {object : Option String} {compiled : Compiled}
    (valid : config.ticksPerSecond.isWhole ∧ Number.lt 0 config.ticksPerSecond)
    (compiles : c.compile config scene record object = (.ok compiled, c'))
    (untimed : ∀ t, record ≠ .timeline t) :
    compiled.graph.HoldsFor config.ticksPerSecond record ∧
    (∀ {p p₀ : Playback} {commands : List Command} {before rest : List (Playback × Moment)}
      {x : Playback × Moment}, p.load compiled.graph = .ok p₀ →
      .unload compiled.graph.carrier ∉ commands → p₀.chronicle commands = before ++ x :: rest →
      ∃ l, (x.1.happen x.2).1.Sole compiled.graph.carrier l ∧
        ∀ d ∈ dispatches compiled.graph.carrier [x], l.holder.status = .start ∧
          (d.2.ticks config.ticksPerSecond).le l.memory.active) ∧
    TickLaw config.ticksPerSecond := by
  obtain ⟨rate, scalar, pos⟩ := Number.exists_scalar_of_rate valid
  refine ⟨Compilation.holdsFor scalar pos compiles, ?_, scalar ▸ tickLaw pos⟩
  intro p p₀ commands before rest x loads keeps split
  obtain ⟨P, trigger, -⟩ := Compilation.isTrigger compiles untimed
  obtain ⟨l, ms, sole, plays, -, own, -, -⟩ :=
    trigger.meets (I := fun _ => True) loads keeps (fun _ _ => trivial)
      (fun _ _ _ _ _ => trivial) split
  obtain ⟨q, m⟩ := x
  obtain ⟨sole', dispatched⟩ := sole.happen own
  refine ⟨_, sole', fun d mem => ?_⟩
  by_cases start : starts compiled.graph.carrier (q, m)
  · obtain ⟨ticks, _, -, -, fires, running, active, -⟩ := sole.fired plays trigger own start
    obtain ⟨actions, carried, rfl⟩ := trigger.holds _ _ fires
    refine ⟨running, ?_⟩
    -- What is dispatched is one of the actions, so it takes no longer than the longest of them.
    rw [plays.1] at dispatched
    have listed : d.2 ∈ actions := by
      rw [← Graph.map_actionsOf carried, ← dispatched]
      exact List.mem_map_of_mem mem
    rw [active, Blueprint.holdTicks, scalar]
    exact Span.ticks_le_hold pos (Span.le_longest (List.mem_map_of_mem listed))
  · rw [sole.silent plays trigger own start] at mem
    cases mem

/-- Three tenths of a second. -/
def shortSpan : Span := (Span.ofNumber? ((⟨3, -1⟩ : Decimal).toNumber false)).getD 0

theorem isProper_any : ClickCount.isProper .any := rfl

/-- A link that hides the door slowly and is disabled at once. -/
def hidingLink : ClickLink where
  enabled := true
  remainEnabled := true
  enabledColor := ClickLink.standardEnabledColor
  selectedColor := ClickLink.standardSelectedColor
  lists := ClickLists.empty.bind .any isProper_any
    [.visibility doorTarget false shortSpan, .link doorTarget .disable]
  reset := none
  reset_bound := by rintro n ⟨⟩

/-- Ten ticks in a second, and no check of scripts. -/
def tenTicks : Config := { Compilation.plainConfig with ticksPerSecond := 10 }

/-- The first moment of a history dispatches some actions. -/
def beginsWith (carrier : String) (actions : List Action) : List (Playback × Moment) → Bool
  | x :: _ => (dispatches carrier [x]).map Prod.snd == actions
  | [] => false

/-- A click on the door makes its link hold for three ticks, as long as the door takes to go. -/
theorem hidingLink_holds_cover_actions :
    ∃ compiled c' p₀ x rest l,
      Compilation.compile { names := .empty } tenTicks doorScene (.link hidingLink) (some "door") =
        (.ok compiled, c') ∧
      compiled.graph.HoldsFor 10 (.link hidingLink) ∧
      ({} : Playback).load compiled.graph = .ok p₀ ∧ p₀.chronicle [.click "door"] = x :: rest ∧
      (dispatches compiled.graph.carrier [x]).map Prod.snd =
        [.visibility doorTarget false shortSpan, .link doorTarget .disable] ∧
      (x.1.happen x.2).1.Sole compiled.graph.carrier l ∧ l.holder.status = .start ∧
      Number.le 3 l.memory.active ∧ TickLaw 10 := by
  have plays : Compilation.playsAs { names := .empty } tenTicks doorScene (.link hidingLink)
      (some "door") (fun g p => beginsWith g.carrier
        [.visibility doorTarget false shortSpan, .link doorTarget .disable]
        (p.chronicle [.click "door"])) := by
    decide +kernel
  obtain ⟨compiled, c', p₀, compiles, loads, check⟩ := Compilation.exists_of_playsAs plays
  have valid : tenTicks.ticksPerSecond.isWhole ∧ Number.lt 0 tenTicks.ticksPerSecond := by
    decide +kernel
  obtain ⟨graph, covers, law⟩ := holds_cover_actions valid compiles (by rintro t ⟨⟩)
  cases history : p₀.chronicle [.click "door"] with
  | nil =>
    rw [history] at check
    cases check
  | cons x rest =>
    rw [history] at check
    have fired := eq_of_beq check
    have split : p₀.chronicle [.click "door"] = [] ++ x :: rest := history
    obtain ⟨l, sole, lasts⟩ := covers loads (by simp) split
    obtain ⟨d, dispatched, hides⟩ : ∃ d ∈ dispatches compiled.graph.carrier [x],
        d.2 = .visibility doorTarget false shortSpan :=
      List.mem_map.1 (fired ▸ List.mem_cons_self)
    obtain ⟨running, hold⟩ := lasts d dispatched
    have ticks : Action.ticks tenTicks.ticksPerSecond (.visibility doorTarget false shortSpan) = 3 := by
      decide +kernel
    rw [hides, ticks] at hold
    exact ⟨compiled, c', p₀, x, rest, l, compiles, graph, loads, history, fired, sole, running, hold,
      law⟩

end Playback

end SceneLogic
