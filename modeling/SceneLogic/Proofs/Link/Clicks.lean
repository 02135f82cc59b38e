/-
What a click on a link comes to.

A click is counted by a link that is enabled and not active, and no other click changes anything.
The counter starts from zero again at the reset of the link, so the number of a counted click is
known from how many were counted before it (`advanceClicks_ofNat`), and the link dispatches the
list that is chosen for this number.  `link_click_law` says so of a compiled link in all of
playback, from its loading or the last reset on.
-/
import SceneLogic.Proofs.Compile.Dispatches
import SceneLogic.Proofs.Link.Lists
import SceneLogic.Proofs.Number.Whole
import SceneLogic.Proofs.Playback.Impact
namespace SceneLogic

attribute [local irreducible] quantaPerUnit quantaLimit

/-! ### Numbers of clicks -/

/-- The number of the `k`-th click, counted from one, with a reset. -/
def clickNumber (reset : Int) (k : Nat) : Nat :=
  if reset ≤ 0 then k else (k - 1) % reset.toNat + 1

/-- The count kept after `k` clicks. -/
def keptCount (reset : Int) (k : Nat) : Nat := if reset ≤ 0 then k else k % reset.toNat

theorem keptCount_le (reset : Int) (k : Nat) : keptCount reset k ≤ k := by
  rw [keptCount]
  split
  · exact Nat.le_refl k
  · exact Nat.mod_le k _

theorem keptCount_zero (reset : Int) : keptCount reset 0 = 0 :=
  Nat.le_zero.1 (keptCount_le reset 0)

theorem clickNumber_succ (reset : Int) (k : Nat) :
    clickNumber reset (k + 1) = keptCount reset k + 1 := by
  rw [clickNumber, keptCount]
  split <;> rfl

/-- The count kept is the number of the click, unless that is the reset. -/
theorem keptCount_succ (reset : Int) (k : Nat) :
    keptCount reset (k + 1) =
      if (clickNumber reset (k + 1) : Int) = reset then 0 else clickNumber reset (k + 1) := by
  rw [clickNumber_succ]
  unfold keptCount
  by_cases never : reset ≤ 0
  · have other : ¬ ((k + 1 : Nat) : Int) = reset := by omega
    simp only [if_pos never]
    rw [if_neg other]
  · -- The remainder of the next number is one more, unless that completes the reset.
    have pos : 0 < reset.toNat := by omega
    have lt := Nat.mod_lt k pos
    simp only [if_neg never]
    rw [← Nat.mod_add_mod]
    by_cases last : k % reset.toNat + 1 = reset.toNat
    · rw [if_pos (by omega), last, Nat.mod_self]
    · rw [if_neg (by omega), Nat.mod_eq_of_lt (by omega)]

/-- Counting a click from the count kept after `k` of them. -/
theorem advanceClicks_ofNat {reset : Number} {r : Int}
    (whole : reset.rank = some (r * quantaPerUnit)) {k : Nat} (lt : k < 2 ^ 53) :
    advanceClicks (.ofNat (keptCount r k)) reset =
      ⟨.ofNat (clickNumber r (k + 1)), .ofNat (keptCount r (k + 1))⟩ := by
  have unit := natCast_quantaPerUnit_pos
  have le := keptCount_le r k
  have next := Number.ofNat_add_one (n := keptCount r k) (by omega)
  have rank := Number.rank_ofNat (n := clickNumber r (k + 1)) (by rw [clickNumber_succ]; omega)
  -- No number of a click is below zero, so the ranks alone tell whether the counter wraps.
  have wraps : (Number.le 0 reset ∧ (Number.ofNat (clickNumber r (k + 1))).same reset) ↔
      (clickNumber r (k + 1) : Int) = r := by
    rw [Number.le_of_rank Number.rank_zero whole, Number.same_of_rank rank whole,
      decide_eq_true_eq, decide_eq_true_eq]
    push_cast
    rw [Int.mul_eq_mul_right_iff (by omega)]
    constructor
    · rintro ⟨-, same⟩
      exact same
    · intro same
      exact ⟨Int.mul_nonneg (by omega) (by omega), same⟩
  rw [advanceClicks, next, ← clickNumber_succ, keptCount_succ]
  simp only [wraps]
  split <;> rfl

/-! ### The reset of a link -/

namespace ClickLink

/-- The reset of a link as an integer, negative if its counter never wraps. -/
def resetCount (l : ClickLink) : Int := l.resetNumber.units

theorem rank_resetNumber (l : ClickLink) :
    l.resetNumber.rank = some (l.resetCount * quantaPerUnit) := by
  have unit : (quantaPerUnit : Int) ≠ 0 := natCast_quantaPerUnit_pos.ne'
  rw [resetCount, resetNumber]
  cases h : l.reset with
  | none =>
    show (-1 : Number).rank = some ((-1 : Number).units * quantaPerUnit)
    obtain ⟨x, minus, quanta⟩ := Number.neg_one_eq_scalar
    rw [minus]
    show some x.quanta = some (x.quanta / quantaPerUnit * quantaPerUnit)
    rw [quanta, Int.ediv_mul_cancel (Int.dvd_neg.2 (Int.dvd_refl _))]
  | some n =>
    have proper : ClickCount.isCount n := l.lists.proper _ (List.mem_map_of_mem (l.mem_of_reset h))
    have whole : (quantaPerUnit : Int) ∣ n.quanta := by
      have dvd := Nat.dvd_of_mod_eq_zero (beq_iff_eq.1 (Bool.and_eq_true_iff.1 proper).1)
      exact Int.natCast_dvd.2 dvd
    show some n.quanta = some (n.quanta / quantaPerUnit * quantaPerUnit)
    rw [Int.ediv_mul_cancel whole]

theorem forClick_ne_nil_of_rank (l : ClickLink) {n : Scalar} (h : l.reset = some n)
    {click : Number} (rank : click.rank = some n.quanta) : l.lists.forClick click ≠ [] := by
  have hit : ClickCount.isOf click (.exactly n) := by
    show (Number.scalar n).same click
    rw [Number.same_of_rank rfl rank]
    exact decide_eq_true rfl
  rw [ClickLists.forClick_of_mem (l.mem_of_reset h) hit]
  exact l.reset_bound n h

/-- At its reset a link has actions to dispatch. -/
theorem forClick_ne_nil (l : ClickLink) {k : Nat} (le : k ≤ 2 ^ 53)
    (last : (k : Int) = l.resetCount) : l.lists.forClick (.ofNat k) ≠ [] := by
  have unit := natCast_quantaPerUnit_pos
  have whole := l.rank_resetNumber
  rw [resetNumber] at whole
  cases h : l.reset with
  | none =>
    -- Without a reset the number is below zero, and no click has it.
    rw [h] at whole
    obtain ⟨x, minus, quanta⟩ := Number.neg_one_eq_scalar
    dsimp only at whole
    rw [minus] at whole
    have negative : x.quanta = l.resetCount * quantaPerUnit := Option.some_inj.1 whole
    have := Int.mul_nonneg (Int.natCast_nonneg k) (Int.le_of_lt unit)
    rw [last] at this
    omega
  | some n =>
    rw [h] at whole
    have count : n.quanta = l.resetCount * quantaPerUnit := Option.some_inj.1 whole
    refine l.forClick_ne_nil_of_rank h ?_
    rw [Number.rank_ofNat le, count, ← last]
    push_cast
    rfl

end ClickLink

/-! ### Clicks on a loaded link -/

namespace Loaded

variable {l : Loaded} {P : LinkProgram}

theorem click_of_takesClicks (link : l.program = .link P) (takes : l.takesClicks) :
    l.click = l.countClick P := by
  rw [click, link]
  exact if_pos takes

theorem click_of_not_takesClicks (takes : ¬ l.takesClicks) : l.click = (l, []) := by
  rw [click]
  split
  · exact if_neg takes
  · rfl

/-- The nodes that a link dispatches for a number. -/
def nodesFor (P : LinkProgram) (click : Number) : List String :=
  ((ClickBinding.forClick? P.bindings click).map ClickBinding.dispatch).getD []

/-- What counting a click does: the count kept is the next one, the nodes for the number of the
click are dispatched, and the link becomes active if there are any, and else is as it was. -/
theorem countClick_spec (l : Loaded) (P : LinkProgram) :
    (l.countClick P).1.holder.clicks =
        some (advanceClicks (l.holder.clicks.getD 0) P.reset).count ∧
      (l.countClick P).2 =
        nodesFor P (advanceClicks (l.holder.clicks.getD 0) P.reset).click ∧
      ((l.countClick P).2 = [] → (l.countClick P).1.holder.status = l.holder.status ∧
        (l.countClick P).1.holder.enabled = l.holder.enabled) ∧
      ((l.countClick P).2 ≠ [] → (l.countClick P).1.holder.status = .start) := by
  simp only [countClick, nodesFor]
  cases ClickBinding.forClick? P.bindings
      (advanceClicks (l.holder.clicks.getD 0) P.reset).click with
  | none => exact ⟨rfl, rfl, fun _ => ⟨rfl, rfl⟩, fun fired => absurd rfl fired⟩
  | some b =>
    dsimp only
    by_cases empty : b.dispatch = []
    · rw [if_pos empty]
      exact ⟨rfl, empty.symm, fun _ => ⟨rfl, rfl⟩, fun fired => absurd rfl fired⟩
    · rw [if_neg empty]
      rw [fire]
      cases P.remainEnabled <;> exact ⟨rfl, rfl, fun silent => absurd silent empty, fun _ => rfl⟩

theorem clicks_countDown (l : Loaded) : l.countDown.holder.clicks = l.holder.clicks := by
  simp only [countDown]
  split <;> rfl

/-- A tick leaves the count of a link alone. -/
theorem clicks_evaluate (link : l.program = .link P)
    (position? : String → Option (Triple Number)) :
    (l.evaluate position?).1.holder.clicks = l.holder.clicks ∧ (l.evaluate position?).2 = [] := by
  rw [evaluate, link]
  dsimp only
  split
  · exact ⟨clicks_countDown l, rfl⟩
  · exact ⟨rfl, rfl⟩

end Loaded

/-! ### Clicks in playback -/

namespace Playback

/-- A click on an object is counted by the link of a carrier. -/
def countsClick (carrier : String) (x : Playback × Moment) : Bool :=
  match x.2 with
  | .deliver object =>
    x.1.reaches .link object carrier && (x.1.isEnabled carrier && !x.1.isRunning carrier)
  | _ => false

/-- The clicks of a history that are counted by the link of a carrier. -/
def clicksCounted (carrier : String) (history : List (Playback × Moment)) : Nat :=
  history.countP (countsClick carrier)

variable {q : Playback} {carrier : String} {l : Loaded} {m : Moment} {g : Graph}
variable {P : LinkProgram}

theorem Sole.takesClicks (sole : q.Sole carrier l) :
    (q.isEnabled carrier && !q.isRunning carrier) = l.takesClicks := by
  rw [sole.isEnabled, sole.isRunning, Loaded.takesClicks]
  cases l.holder.status <;> rfl

/-- Only a click that is counted changes the count, to the next one. -/
theorem Sole.count_step (sole : q.Sole carrier l) (plays : l.Plays g (.link P))
    (untimed : g.kind ≠ .timeline) (reset : m.isReset = false) :
    (l.meet (q.impact? carrier m)).1.holder.clicks =
      if countsClick carrier (q, m) then
        some (advanceClicks (l.holder.clicks.getD 0) P.reset).count
      else l.holder.clicks := by
  cases m with
  | evaluate position? => exact (Loaded.clicks_evaluate plays.2 position?).1
  | deliver object =>
    have counted : countsClick carrier (q, .deliver object) =
        (q.reaches .link object carrier && l.takesClicks) := by
      rw [← sole.takesClicks]
      rfl
    rw [counted, impact?]
    by_cases reached : q.reaches .link object carrier
    · rw [reached, Bool.true_and, if_pos rfl]
      show l.click.1.holder.clicks = _
      by_cases takes : l.takesClicks
      · rw [if_pos takes, Loaded.click_of_takesClicks plays.2 takes]
        exact (Loaded.countClick_spec l P).1
      · rw [if_neg takes, Loaded.click_of_not_takesClicks takes]
    · rw [if_neg reached, Bool.eq_false_iff.2 reached]
      rfl
  | reset => cases reset
  | load g => rfl
  | unload other => rfl
  | effect action =>
    obtain ⟨enabled, met⟩ := sole.meet_of_other (m := .effect action)
      (fun kind => untimed (plays.1 ▸ kind)) rfl (by rintro object ⟨⟩) rfl
    rw [met]
    rfl

/-- The count kept of a link is known from the clicks that it counted. -/
theorem Sole.count_run (sole : q.Sole carrier l) (plays : l.Plays g (.link P))
    (untimed : g.kind ≠ .timeline) {r : Int} (whole : P.reset.rank = some (r * quantaPerUnit))
    (kept : l.holder.clicks = some (.ofNat (keptCount r 0))) {ms : List Moment}
    (keeps : .unload carrier ∉ ms) (uncut : ∀ x ∈ q.trail ms, ¬ x.2.isReset)
    (bound : clicksCounted carrier (q.trail ms) ≤ 2 ^ 53) :
    ∃ l', (q.after ms).Sole carrier l' ∧ l'.Plays g (.link P) ∧
      l'.holder.clicks = some (.ofNat (keptCount r (clicksCounted carrier (q.trail ms)))) := by
  -- The bound is on all clicks, so it is assumed anew of every history on the way.
  refine (sole.run
    (I := fun l' h => clicksCounted carrier h ≤ 2 ^ 53 →
      l'.holder.clicks = some (.ofNat (keptCount r (clicksCounted carrier h))))
    (fun q l' m h sole' plays' _ forth so_far bound => ?_) plays (fun _ => kept) keeps uncut).imp
      fun l' run => ⟨run.1, run.2.1, run.2.2 bound⟩
  have step := sole'.count_step plays' untimed (Bool.not_eq_true _ ▸ forth)
  have more : clicksCounted carrier (h ++ [(q, m)]) =
      clicksCounted carrier h + if countsClick carrier (q, m) then 1 else 0 := by
    rw [clicksCounted, List.countP_append, List.countP_singleton]
    rfl
  rw [more] at bound ⊢
  by_cases counted : countsClick carrier (q, m)
  · rw [if_pos counted] at step bound ⊢
    rw [step, so_far (by omega), Option.getD_some, advanceClicks_ofNat whole (by omega)]
  · rw [if_neg counted] at step bound ⊢
    rw [step]
    exact so_far bound

/-- A click on an object that reaches the link of a carrier, if its number, should it be counted,
leaves a count to keep and chooses some actions. -/
structure ClickLaw (q : Playback) (object carrier : String) (kept : Number)
    (actions : List Action) : Prop where
  /-- The click makes a difference exactly if the link is enabled and not active. -/
  counted : (q.happen (.deliver object)).1.state? carrier ≠ q.state? carrier ↔
    q.isEnabled carrier ∧ ¬ q.isRunning carrier
  /-- Else nothing at all changes, and nothing is dispatched. -/
  ignored : ¬ (q.isEnabled carrier ∧ ¬ q.isRunning carrier) →
    q.happen (.deliver object) = (q, [])
  /-- A click that is counted dispatches the actions, in order. -/
  dispatched : q.isEnabled carrier → ¬ q.isRunning carrier →
    (dispatches carrier [(q, .deliver object)]).map Prod.snd = actions
  /-- It leaves its count, or zero. -/
  keeps : q.isEnabled carrier → ¬ q.isRunning carrier →
    ((q.happen (.deliver object)).1.state? carrier).bind Holder.clicks = some kept
  /-- Without actions the link does not become active and stays enabled. -/
  silent : q.isEnabled carrier → ¬ q.isRunning carrier → actions = [] →
    ((q.happen (.deliver object)).1.state? carrier).map (fun h => (h.status, h.enabled)) =
      (q.state? carrier).map fun h => (h.status, h.enabled)
  /-- A direct click tells whether it dispatched anything. -/
  told : (q.click object).1 ↔ (q.click object).2.2.events ≠ []

/-- A click that is not counted changes nothing. -/
theorem Sole.happen_ignored (sole : q.Sole carrier l) {object : String}
    (reached : q.reaches .link object carrier) (ignored : l.click = (l, [])) :
    q.happen (.deliver object) = (q, []) := by
  have found := sole.find? reached
  show q.deliver object = (q, [])
  rw [Playback.deliver, found]
  dsimp only
  rw [ignored]
  have same : q.change .link object (fun _ => l) = q := by
    rw [Playback.change, changeFirst_self found]
  rw [same]
  rfl

/-- A click that reaches a link tells whether it has nodes to dispatch. -/
theorem Sole.click_of_reaches (sole : q.Sole carrier l) {object : String}
    (reached : q.reaches .link object carrier) :
    (q.click object).1 = !l.click.2.isEmpty ∧
      (q.click object).2.2.events = eventsOf q.ticks l.graph l.click.2 := by
  have found := sole.find? reached
  rw [Playback.click, found]
  dsimp only
  rw [Playback.deliver, found]
  exact ⟨rfl, rfl⟩

theorem Sole.takesClicks_iff (sole : q.Sole carrier l) :
    (q.isEnabled carrier ∧ ¬ q.isRunning carrier) ↔ l.takesClicks := by
  rw [← sole.takesClicks, Bool.and_eq_true_iff, Bool.not_eq_true, Bool.not_eq_true']

/-- The click law of a link that does not take clicks. -/
theorem Sole.clickLaw_ignored (sole : q.Sole carrier l) {object : String}
    (reached : q.reaches .link object carrier) (closed : ¬ l.takesClicks) (kept : Number)
    (actions : List Action) : q.ClickLaw object carrier kept actions := by
  have out : ¬ (q.isEnabled carrier ∧ ¬ q.isRunning carrier) :=
    fun h => closed (sole.takesClicks_iff.1 h)
  have ignored := sole.happen_ignored reached (Loaded.click_of_not_takesClicks closed)
  obtain ⟨told, events⟩ := sole.click_of_reaches reached
  refine ⟨?_, fun _ => ignored, fun enabled stopped => absurd ⟨enabled, stopped⟩ out,
    fun enabled stopped => absurd ⟨enabled, stopped⟩ out,
    fun enabled stopped => absurd ⟨enabled, stopped⟩ out, ?_⟩
  · constructor
    · intro changed
      rw [ignored] at changed
      exact absurd rfl changed
    · intro counted
      exact absurd counted out
  · rw [told, events, Loaded.click_of_not_takesClicks closed]
    constructor
    · intro fired
      cases fired
    · intro some
      exact absurd rfl some

/-- The click law of a link that takes clicks, if its count changes or something is dispatched. -/
theorem Sole.clickLaw_counted (sole : q.Sole carrier l) (plays : l.Plays g (.link P))
    {object : String} (reached : q.reaches .link object carrier) (takes : l.takesClicks)
    {number kept : Number} {actions : List Action}
    (next : advanceClicks (l.holder.clicks.getD 0) P.reset = ⟨number, kept⟩)
    (carried : (Loaded.nodesFor P number).map g.action? = actions.map some)
    (changes : actions = [] → l.holder.clicks ≠ some kept) :
    q.ClickLaw object carrier kept actions := by
  obtain ⟨sole', nodes⟩ := sole.deliver object
  rw [if_pos reached] at sole' nodes
  obtain ⟨told, events⟩ := sole.click_of_reaches reached
  have clicked := Loaded.click_of_takesClicks plays.2 takes
  obtain ⟨clicks, ids, still, active⟩ := l.countClick_spec P
  rw [← clicked, next] at clicks ids
  rw [← clicked] at still active
  dsimp only at clicks ids
  have counted := sole.takesClicks_iff.2 takes
  have stopped : l.holder.status = .stop := of_decide_eq_true (Bool.and_eq_true_iff.1 takes).2
  -- Every node that the link dispatches for the click carries an action.
  have empty : l.click.2 = [] ↔ actions = [] := by
    rw [ids, ← List.map_eq_nil_iff (f := g.action?), carried, List.map_eq_nil_iff]
  have sent : (l.graph.actionsOf l.click.2).map Prod.snd = actions := by
    rw [ids, plays.1]
    exact Graph.map_actionsOf carried
  refine ⟨?_, fun out => absurd counted out, ?_, ?_, ?_, ?_⟩
  · refine ⟨fun _ => counted, ?_⟩
    intro _ same
    rw [sole'.state?, sole.state?] at same
    have same := Option.some_inj.1 same
    by_cases none : actions = []
    · -- Without actions the count tells the two apart, and else the status does.
      refine changes none ?_
      rw [← same, clicks]
    · have started := active fun h => none (empty.1 h)
      rw [same, stopped] at started
      cases started
  · intro _ _
    rw [nodes, sent]
  · intro _ _
    rw [sole'.state?]
    exact clicks
  · intro _ _ none
    obtain ⟨status, enabled⟩ := still (empty.2 none)
    rw [sole'.state?, sole.state?, Option.map_some, Option.map_some, status, enabled]
  · have none : eventsOf q.ticks l.graph l.click.2 = [] ↔ l.click.2 = [] := by
      rw [empty, ← sent, ← map_eventsOf q.ticks, List.map_map, List.map_eq_nil_iff]
    rw [told, events, Ne, none, Bool.not_eq_true', List.isEmpty_eq_false_iff]

/-- The click law of a link that has counted `k` clicks. -/
theorem Sole.clickLaw_of_kept (sole : q.Sole carrier l) (plays : l.Plays g (.link P))
    {object : String} (reached : q.reaches .link object carrier) {r : Int}
    (whole : P.reset.rank = some (r * quantaPerUnit)) {lists : ClickLists}
    (carried : ∀ click,
      (Loaded.nodesFor P click).map g.action? = (lists.forClick click).map some)
    (nonempty : ∀ k : Nat, k ≤ 2 ^ 53 → (k : Int) = r → lists.forClick (.ofNat k) ≠ []) {k : Nat}
    (kept : l.holder.clicks = some (.ofNat (keptCount r k))) (bound : k < 2 ^ 53) :
    q.ClickLaw object carrier (.ofNat (keptCount r (k + 1)))
      (lists.forClick (.ofNat (clickNumber r (k + 1)))) := by
  by_cases takes : l.takesClicks
  · refine sole.clickLaw_counted plays reached takes ?_ (carried _) fun none same => ?_
    · rw [kept, Option.getD_some]
      exact advanceClicks_ofNat whole bound
    · -- The count kept stays the same only at a reset to one, where there are actions.
      have le : clickNumber r (k + 1) ≤ 2 ^ 53 := by
        have := keptCount_le r k
        rw [clickNumber_succ]
        omega
      rw [kept, keptCount_succ] at same
      split at same
      · next last => exact nonempty _ le last none
      · have equal := Number.ofNat_inj ((keptCount_le r k).trans (Nat.le_of_lt bound)) le
          (Option.some_inj.1 same)
        rw [clickNumber_succ] at equal
        omega
  · exact sole.clickLaw_ignored reached takes _ _

/-- **The click law.**  From its loading or the last reset on, a compiled link counts a click that
reaches it exactly if it is enabled and not active.  The `k`-th click that it counts has the number
`k`, or `(k - 1) mod r + 1` with a reset `r`, and dispatches the list of the record for that number,
in order; the count kept is the number, or zero at the reset. -/
theorem link_click_law {c c' : Compilation} {config : Config} {scene : Scene} {l : ClickLink}
    {object : Option String} {compiled : Compiled} {p p₀ q : Playback} {commands : List Command}
    {target : String} {before part rest : List (Playback × Moment)}
    (compiles : c.compile config scene (.link l) object = (.ok compiled, c'))
    (loads : p.load compiled.graph = .ok p₀)
    (keeps : .unload compiled.graph.carrier ∉ commands)
    (stretch : Stretch (·.2.isReset) (p₀.chronicle commands) before part
      ((q, .deliver target) :: rest))
    (reached : q.reaches .link target compiled.graph.carrier)
    (bound : clicksCounted compiled.graph.carrier part + 1 < 2 ^ 53) :
    q.ClickLaw target compiled.graph.carrier
      (.ofNat (keptCount l.resetCount (clicksCounted compiled.graph.carrier part + 1)))
      (l.lists.forClick
        (.ofNat (clickNumber l.resetCount (clicksCounted compiled.graph.carrier part + 1)))) := by
  obtain ⟨named, script, -, graph⟩ := Compilation.compile_link compiles
  have carrier : compiled.graph.carrier = linkCarrier named.name := congrArg Graph.carrier graph
  rw [carrier] at keeps reached bound ⊢
  rw [graph] at loads carrier
  have loaded : ∀ L, Loaded.ofGraph ((Blueprint.link config (linkCarrier named.name) l
      named.name).graph (linkCarrier named.name) .link named.name script) = .ok L →
      L.holder.clicks = some (.ofNat (keptCount l.resetCount 0)) := by
    intro L made
    obtain ⟨_, -, rfl⟩ := Loaded.ofGraph_eq_ok made
    rw [keptCount_zero]
    rfl
  obtain ⟨q₀, ms, ms', L, rfl, others, keeps, sole, plays, kept⟩ :=
    exists_trail_of_stretch loads
      (Blueprint.link_program config (linkCarrier named.name) l named.name named.name script)
      carrier keeps stretch loaded fun q L m _ plays reset => by
        cases Moment.isReset_iff.1 reset
        show L.restored.holder.clicks = _
        rw [Loaded.restored, plays.1, keptCount_zero]
        rfl
  have keeps₁ : .unload (linkCarrier named.name) ∉ ms := fun h =>
    keeps (List.mem_append_left _ h)
  obtain ⟨L', sole', plays', kept'⟩ := sole.count_run plays (by rintro ⟨⟩) l.rank_resetNumber kept
    keeps₁ stretch.uncut (by omega)
  -- The click meets the playback that the stretch leaves.
  have here : q = q₀.after ms := by
    cases ms' with
    | nil => cases others
    | cons m ms' =>
      obtain ⟨first, -⟩ := List.cons.inj others
      exact (Prod.mk.inj first).1
  rw [← here] at sole'
  exact sole'.clickLaw_of_kept plays' reached l.rank_resetNumber
    (Blueprint.forClick_dispatch (Blueprint.link_bindings_dispatch config (linkCarrier named.name) l
      named.name .link named.name script))
    (fun _ => l.forClick_ne_nil) kept' (by omega)

/-- A link that hides its door on every second click. -/
def secondClickLink : ClickLink where
  enabled := true
  remainEnabled := true
  enabledColor := ClickLink.standardEnabledColor
  selectedColor := ClickLink.standardSelectedColor
  lists := ClickLists.empty.bind (.exactly 2) isProper_two [.visibility doorTarget false 0]
  reset := (2 : Number).toScalar?
  reset_bound := by decide +kernel

/-- Two clicks in a row. -/
def doorClicks : List Command := [.click "door", .click "door"]

/-- A history begins with a moment that is not a reset and goes on with a click on the door that is
the second to be counted. -/
def clicksTwice (carrier : String) : List (Playback × Moment) → Bool
  | first :: (q, .deliver object) :: _ =>
    [first].all (fun x => !x.2.isReset) &&
      (object == "door" && (q.reaches .link "door" carrier && clicksCounted carrier [first] == 1))
  | _ => false

/-- The second of these is the second to be counted. -/
theorem secondClickLink_click_law :
    ∃ compiled c' p₀ q part rest,
      Compilation.compile { names := .empty } Compilation.plainConfig doorScene
        (.link secondClickLink) (some "door") = (.ok compiled, c') ∧
      ({} : Playback).load compiled.graph = .ok p₀ ∧
      p₀.chronicle doorClicks = part ++ (q, .deliver "door") :: rest ∧
      clicksCounted compiled.graph.carrier part = 1 ∧
      q.ClickLaw "door" compiled.graph.carrier
        (.ofNat (keptCount secondClickLink.resetCount
          (clicksCounted compiled.graph.carrier part + 1)))
        (secondClickLink.lists.forClick (.ofNat (clickNumber secondClickLink.resetCount
          (clicksCounted compiled.graph.carrier part + 1)))) := by
  have plays : Compilation.playsAs { names := .empty } Compilation.plainConfig doorScene
      (.link secondClickLink) (some "door") (fun g p =>
        clicksTwice g.carrier (p.chronicle doorClicks)) := by
    decide +kernel
  obtain ⟨compiled, c', p₀, compiles, loads, check⟩ := Compilation.exists_of_playsAs plays
  unfold clicksTwice at check
  split at check
  · next first q object rest history =>
    obtain ⟨uncut, check⟩ := Bool.and_eq_true_iff.1 check
    obtain ⟨door, check⟩ := Bool.and_eq_true_iff.1 check
    obtain ⟨reached, counted⟩ := Bool.and_eq_true_iff.1 check
    cases beq_iff_eq.1 door
    have counted := beq_iff_eq.1 counted
    have stretch : Stretch (·.2.isReset) (p₀.chronicle doorClicks) [] [first]
        ((q, .deliver "door") :: rest) := .of_all history uncut
    have keeps : .unload compiled.graph.carrier ∉ doorClicks := by
      simp [doorClicks]
    exact ⟨compiled, c', p₀, q, [first], rest, compiles, loads, history, counted,
      link_click_law compiles loads keeps stretch reached (by rw [counted]; decide)⟩
  · cases check

end Playback

end SceneLogic
