/-
How long a firing holds.

A trigger or a link runs exactly as long as its hold lasts, whether it fired in the evaluation of a
tick, by a click after it or between two ticks, because every hold is counted down by evaluations
alone (`Turn.holds`, `Turn.holdsOn_tick`, `Turn.holdsOn_wait`).  `hold_law` says so of a compiled
trigger or link in all of playback: each of its states is steady, and from a firing on it runs and
takes no notice of anything but its ticks until the last tick of the hold ends it.  A hold of more
than 2⁵³ ticks is followed for fewer than these, as its counter cannot be told to come down by ones
(`Number.Remains`).
-/
import SceneLogic.Proofs.Region.Firing
import SceneLogic.Proofs.Trigger.Turns
namespace SceneLogic

attribute [local irreducible] quantaPerUnit quantaLimit

namespace Loaded

variable {l l' : Loaded} {P : Program} {i : Option Impact} {nodes : List String}

/-! ### Running and holding -/

/-- It runs exactly as long as something is left of its hold. -/
def Holds (l : Loaded) : Prop := l.holder.status = .start ↔ Number.lt 0 l.memory.active

theorem zero_lt_hold {ticks : Number} {r : Int} (place : ticks.rank = some r) :
    Number.lt 0 ((1 : Number).max ticks) :=
  Number.lt_of_lt_of_le Number.zero_lt_one (Number.le_max_left Number.rank_one place)

theorem Turn.holds (turn : Turn P l i l' nodes) (initial : l.graph.initialHolder.status = .stop)
    (numbers : ∀ nodes ticks, P.Fires nodes ticks → ∃ r, ticks.rank = some r)
    (holds : l.Holds) : l'.Holds := by
  cases turn with
  | rest _ noted =>
    obtain ⟨status, active, -⟩ := noted.frame
    rw [Holds, status, active]
    exact holds
  | count started =>
    -- What is left is a number, and so there is some of it exactly if the hold is not over.
    obtain ⟨_, r, -, place, -⟩ := Number.lt_iff.1 (holds.1 started)
    have own : l.memory.active.le l.memory.active :=
      Number.le_iff.2 ⟨r, r, place, place, Int.le_refl r⟩
    obtain ⟨_, s, -, place', -⟩ := Number.le_iff.1 (Number.sub_one_mono own)
    rw [Holds, countDown_status, countDown_active, started, Number.zero_lt_iff place']
    split
    · next ends => exact iff_of_false (by rintro ⟨⟩) (fun more => more ends)
    · next more => exact iff_of_true rfl more
  | fire _ _ _ _ fires =>
    obtain ⟨r, place⟩ := numbers _ _ fires
    rw [Holds, fire_status, fire_active]
    exact iff_of_true rfl (zero_lt_hold place)
  | switch => exact holds
  | restore =>
    rw [Holds, restored, initial]
    exact iff_of_false (by rintro ⟨⟩) Number.not_zero_lt_zero

/-! ### Counters -/

/-- Something was sensed in fewer ticks in a row than are to be sustained. -/
def Sustains (p : RegionProgram) (l : Loaded) : Prop :=
  Number.le 0 l.memory.held ∧ l.memory.held.lt ((1 : Number).max p.sustainTicks)

section Sustains

variable {p : RegionProgram} {r : Int} (place : p.sustainTicks.rank = some r)
include place

theorem sustains_zero (none : l.memory.held = 0) : l.Sustains p := by
  rw [Sustains, none]
  exact ⟨Number.zero_le_zero, zero_lt_hold place⟩

theorem Noted.sustains (noted : Noted (.region p) l l') (sustains : l.Sustains p) :
    l'.Sustains p := by
  cases noted with
  | nothing => exact sustains
  | unsensed => exact sustains_zero place rfl
  | sensed region short =>
    cases region
    exact ⟨Number.zero_le_add_one sustains.1,
      Number.lt_of_lt_of_le short (Number.le_max_right Number.rank_one place)⟩
  | clicked link => cases link

theorem Turn.sustains (turn : Turn (.region p) l i l' nodes) (sustains : l.Sustains p) :
    l'.Sustains p := by
  cases turn with
  | rest _ noted => exact noted.sustains place sustains
  | count =>
    rw [Sustains, countDown_held]
    exact sustains
  | fire _ _ noted =>
    rw [Sustains, fire_held]
    exact noted.sustains place sustains
  | switch => exact sustains
  | restore => exact sustains_zero place rfl

end Sustains

/-- A link has counted so many clicks, fewer than its reset if it has one. -/
def Counts (p : LinkProgram) (l : Loaded) : Prop :=
  ∃ k : Nat, l.holder.clicks = some (.ofNat k) ∧ k ≤ 2 ^ 53 ∧
    (Number.le 1 p.reset → (Number.ofNat k).lt p.reset)

theorem wrapsAt {reset : Number} {r : Int} (whole : reset.rank = some (r * quantaPerUnit)) {k : Nat}
    (le : k ≤ 2 ^ 53) :
    (Number.le 1 reset → (Number.ofNat k).lt reset) ↔ (1 ≤ r → (k : Int) < r) := by
  have unit := natCast_quantaPerUnit_pos
  have one : Number.le 1 reset ↔ 1 ≤ r := by
    have scaled : (1 : Int) * quantaPerUnit ≤ r * quantaPerUnit ↔ 1 ≤ r :=
      Int.mul_le_mul_iff_of_pos_right unit
    rw [Number.le_of_rank Number.rank_one whole, decide_eq_true_eq, ← scaled, Int.one_mul]
  have count : (Number.ofNat k).lt reset ↔ (k : Int) < r := by
    rw [Number.lt_of_rank (Number.rank_ofNat le) whole, decide_eq_true_eq]
    push_cast
    rw [Int.mul_lt_mul_right unit]
  rw [one, count]

/-- The counter goes no further than the numbers that are told apart from the next one. -/
theorem advanceClicks_last (reset : Number) :
    (advanceClicks (.ofNat (2 ^ 53)) reset).count = .ofNat 0 ∨
      (advanceClicks (.ofNat (2 ^ 53)) reset).count = .ofNat (2 ^ 53) := by
  rw [advanceClicks, Number.last_add_one]
  dsimp only
  split
  · exact .inl rfl
  · exact .inr rfl

theorem Noted.counts {p : LinkProgram} {r : Int} (noted : Noted (.link p) l l')
    (whole : p.reset.rank = some (r * quantaPerUnit)) (counts : l.Counts p) : l'.Counts p := by
  cases noted with
  | nothing => exact counts
  | unsensed => exact counts
  | sensed region => cases region
  | clicked link =>
    cases link
    obtain ⟨k, clicks, le, below⟩ := counts
    have below := (wrapsAt whole le).1 below
    rw [Counts, clicks, Option.getD_some]
    rcases Nat.lt_or_eq_of_le le with lt | rfl
    · -- The count is the one kept after as many clicks, so the next one is known.
      have kept : keptCount r k = k := by
        rw [keptCount]
        split
        · rfl
        · exact Nat.mod_eq_of_lt (by omega)
      have next := congrArg ClickAdvance.count (advanceClicks_ofNat whole lt)
      rw [kept] at next
      have le' : keptCount r (k + 1) ≤ 2 ^ 53 := (keptCount_le r (k + 1)).trans lt
      refine ⟨_, congrArg some next, le', (wrapsAt whole le').2 fun pos => ?_⟩
      rw [keptCount, if_neg (by omega)]
      have := Nat.mod_lt (k + 1) (y := r.toNat) (by omega)
      omega
    · rcases advanceClicks_last p.reset with wrapped | stuck
      · refine ⟨0, congrArg some wrapped, Nat.zero_le _, (wrapsAt whole (Nat.zero_le _)).2 ?_⟩
        intro pos
        omega
      · exact ⟨_, congrArg some stuck, le, (wrapsAt whole le).2 below⟩

theorem Turn.counts {p : LinkProgram} {r : Int} (turn : Turn (.link p) l i l' nodes)
    (whole : p.reset.rank = some (r * quantaPerUnit))
    (initial : l.graph.initialHolder.clicks = some 0) (counts : l.Counts p) : l'.Counts p := by
  cases turn with
  | rest _ noted => exact noted.counts whole counts
  | count =>
    rw [Counts, clicks_countDown]
    exact counts
  | fire _ _ noted =>
    rw [Counts, fire_clicks]
    exact noted.counts whole counts
  | switch => exact counts
  | restore =>
    refine ⟨0, initial, Nat.zero_le _, (wrapsAt whole (Nat.zero_le _)).2 ?_⟩
    intro pos
    omega

/-! ### Steady states -/

/-- A trigger or a link runs while it holds, and its counters stay below where they end. -/
structure Steady (P : Program) (l : Loaded) : Prop where
  holds : l.Holds
  sustains : ∀ p, P = .region p → l.Sustains p
  counts : ∀ p, P = .link p → l.Counts p

variable {config : Config} {g : Graph}

theorem rank_of_isFinite {ticks : Number} (finite : ticks.isFinite) : ∃ r, ticks.rank = some r := by
  obtain ⟨q, value⟩ := Number.isFinite_iff.1 finite
  exact ⟨q, Number.rank_of_quanta? value⟩

theorem steady_ofGraph (trigger : g.IsTrigger config P)
    (finite : ∀ ticks ∈ P.tickCounts, ticks.isFinite) (made : ofGraph g = .ok l) :
    l.Steady P := by
  obtain ⟨P', -, rfl⟩ := ofGraph_eq_ok made
  refine ⟨?_, ?_, ?_⟩
  · rw [Holds, trigger.stopped]
    exact iff_of_false (by rintro ⟨⟩) Number.not_zero_lt_zero
  · rintro p rfl
    obtain ⟨r, place⟩ := rank_of_isFinite (finite _ List.mem_cons_self)
    exact sustains_zero place rfl
  · intro p link
    obtain ⟨zero, r, whole⟩ := trigger.counts p link
    refine ⟨0, zero, Nat.zero_le _, (wrapsAt whole (Nat.zero_le _)).2 ?_⟩
    intro pos
    omega

theorem Turn.steady (turn : Turn P l i l' nodes) (plays : l.Plays g P)
    (trigger : g.IsTrigger config P) (finite : ∀ ticks ∈ P.tickCounts, ticks.isFinite)
    (steady : l.Steady P) : l'.Steady P := by
  refine ⟨turn.holds (plays.1 ▸ trigger.stopped) ?_ steady.holds, ?_, ?_⟩
  · intro nodes ticks fires
    exact rank_of_isFinite (finite ticks fires.mem_tickCounts)
  · rintro p rfl
    obtain ⟨r, place⟩ := rank_of_isFinite (finite _ List.mem_cons_self)
    exact turn.sustains place (steady.sustains p rfl)
  · rintro p rfl
    obtain ⟨zero, r, wraps⟩ := trigger.counts p rfl
    exact turn.counts wraps (plays.1 ▸ zero) (steady.counts p rfl)

/-! ### Counting a hold down -/

/-- Of a hold of `n` ticks, `t` of which are over, the others are left, if they can be told. -/
def HoldsOn (n t : Nat) (l : Loaded) : Prop :=
  t < n → n ≤ 2 ^ 53 ∨ t < 2 ^ 53 →
    l.holder.status = .start ∧ Number.Remains n (n - t) l.memory.active

variable {n t : Nat}

/-- A tick in a hold does nothing but count, and ends the hold if it is the last. -/
theorem Turn.holdsOn_tick {position? : String → Option (Triple Number)}
    (turn : Turn P l (some (.evaluate position?)) l' nodes) (holdsOn : l.HoldsOn n t)
    (lt : t < n) (told : n ≤ 2 ^ 53 ∨ t + 1 < 2 ^ 53) :
    l'.holder.status = (if t + 1 = n then .stop else .start) ∧ l'.HoldsOn n (t + 1) := by
  obtain ⟨started, remains⟩ := holdsOn lt (told.imp_right Nat.lt_of_succ_lt)
  cases turn with
  | rest idle =>
    rw [idle position? rfl] at started
    cases started
  | fire stopped =>
    rw [stopped] at started
    cases started
  | count =>
    obtain ⟨k, left⟩ : ∃ k, n - t = k + 1 := ⟨n - t - 1, by omega⟩
    rw [left] at remains
    have rest : Number.Remains n k (l.memory.active.sub 1) := remains.sub_one (by omega)
    have last : (l.memory.active.sub 1).le 0 ↔ t + 1 = n :=
      (rest.le_zero_iff (by omega)).trans (by omega)
    have status : l.countDown.holder.status = if t + 1 = n then .stop else .start := by
      rw [countDown_status, started]
      simp only [last]
    refine ⟨status, fun more _ => ?_⟩
    have others : n - (t + 1) = k := by omega
    rw [status, if_neg (by omega), countDown_active, others]
    exact ⟨rfl, rest⟩

/-- Nothing but a tick or a reset makes a difference to a hold. -/
theorem Turn.holdsOn_wait (turn : Turn P l i l' nodes)
    (evaluation : ∀ position?, i ≠ some (.evaluate position?)) (reset : i ≠ some .restore)
    (holdsOn : l.HoldsOn n t) : l'.HoldsOn n t := by
  intro lt told
  obtain ⟨started, remains⟩ := holdsOn lt told
  cases turn with
  | rest _ noted =>
    obtain ⟨status, active, -⟩ := noted.frame
    exact ⟨status.trans started, active ▸ remains⟩
  | count => exact absurd rfl (evaluation _)
  | fire stopped =>
    rw [stopped] at started
    cases started
  | switch => exact ⟨started, remains⟩
  | restore => exact absurd rfl reset

end Loaded

/-! ### Holds in playback -/

namespace Playback

variable {q : Playback} {carrier : String} {l : Loaded} {m : Moment} {g : Graph} {P : Program}
variable {config : Config} {n : Nat} {h : List (Playback × Moment)}

theorem ticksEvaluated_other {x : Playback × Moment} (other : x.2.isEvaluation = false) :
    ticksEvaluated (h ++ [x]) = ticksEvaluated h := by
  rw [ticksEvaluated, filter_append_other other, ticksEvaluated]

theorem ticksEvaluated_le (h : List (Playback × Moment)) (x : Playback × Moment) :
    ticksEvaluated h ≤ ticksEvaluated (h ++ [x]) := by
  rw [ticksEvaluated, ticksEvaluated, List.filter_append, List.length_append]
  exact Nat.le_add_right _ _

/-- A hold goes on through the next moment. -/
theorem Sole.holdsOn_step (sole : q.Sole carrier l) (plays : l.Plays g P)
    (trigger : g.IsTrigger config P) (reset : m.isReset = false)
    (holdsOn : l.HoldsOn n (ticksEvaluated h)) :
    (l.meet (q.impact? carrier m)).1.HoldsOn n (ticksEvaluated (h ++ [(q, m)])) := by
  have turn := sole.turn (m := m) plays trigger
  cases evaluation : m.isEvaluation with
  | false =>
    rw [ticksEvaluated_other evaluation]
    refine turn.holdsOn_wait (fun position? => impact?_ne_evaluate evaluation position?) ?_ holdsOn
    intro restore
    rw [impact?_eq_restore restore] at reset
    cases reset
  | true =>
    rw [ticksEvaluated_append evaluation]
    cases m with
    | evaluate position? =>
      intro more told
      exact (turn.holdsOn_tick holdsOn (by omega) told).2 more told
    | _ => cases evaluation

/-- A moment in a hold, which may be the one to end it. -/
structure Held (carrier : String) (ends : Bool) (x : Playback × Moment) : Prop where
  running : x.1.isRunning carrier
  /-- Right after it the carrier still runs, unless the hold ends. -/
  goes_on : (x.1.happen x.2).1.isRunning carrier = !ends
  /-- Nothing is fired. -/
  silent : dispatches carrier [x] = []
  /-- A click that comes now changes nothing, whether it was queued or is a direct one. -/
  rejects : ∀ object, x.1.reaches .link object carrier →
    x.1.happen (.deliver object) = (x.1, []) ∧
      (x.1.click object).1 = false ∧ (x.1.click object).2.1 = x.1

/-- A click on a link that does not take clicks changes nothing. -/
theorem Sole.rejects (sole : q.Sole carrier l) (closed : ¬ l.takesClicks) {object : String}
    (reached : q.reaches .link object carrier) :
    q.happen (.deliver object) = (q, []) ∧
      (q.click object).1 = false ∧ (q.click object).2.1 = q := by
  have ignored := Loaded.click_of_not_takesClicks closed
  have delivered := sole.happen_ignored reached ignored
  refine ⟨delivered, ?_, ?_⟩
  · rw [(sole.click_of_reaches reached).1, ignored]
    rfl
  · have found := sole.find? reached
    have same : q.deliver object = (q, []) := delivered
    rw [Playback.click, found]
    dsimp only
    rw [same]
    rfl

theorem Sole.held (sole : q.Sole carrier l) (plays : l.Plays g P) (trigger : g.IsTrigger config P)
    (own : m ≠ .unload carrier) (reset : m.isReset = false)
    (holdsOn : l.HoldsOn n (ticksEvaluated h)) (lt : ticksEvaluated h < n)
    (told : n ≤ 2 ^ 53 ∨ ticksEvaluated (h ++ [(q, m)]) < 2 ^ 53) :
    Held carrier (decide (ticksEvaluated (h ++ [(q, m)]) = n)) (q, m) := by
  obtain ⟨started, -⟩ := holdsOn lt (told.imp_right (Nat.lt_of_le_of_lt (ticksEvaluated_le h _)))
  have sole' := (sole.happen own).1
  have running : q.isRunning carrier := by
    rw [sole.isRunning, started]
    rfl
  have closed : ¬ l.takesClicks := by
    rw [Loaded.takesClicks, started]
    simp
  refine ⟨running, ?_, sole.silent plays trigger own ?_, fun object => sole.rejects closed⟩
  · rw [sole'.isRunning]
    have turn := sole.turn (m := m) plays trigger
    cases evaluation : m.isEvaluation with
    | false =>
      have on := sole.holdsOn_step (m := m) plays trigger reset holdsOn
      rw [ticksEvaluated_other evaluation] at on told ⊢
      rw [(on lt told).1, decide_eq_false (Nat.ne_of_lt lt)]
      rfl
    | true =>
      rw [ticksEvaluated_append evaluation] at told ⊢
      cases m with
      | evaluate position? =>
        rw [(turn.holdsOn_tick holdsOn lt told).1]
        by_cases last : ticksEvaluated h + 1 = n <;> simp [last]
      | _ => cases evaluation
  · rw [starts, running]
    exact Bool.false_ne_true

/-- **How long a firing holds.**  A compiled trigger or link with finite tick counts is steady in
every state that a moment meets or leaves.  From a firing on it is held, until as many ticks have
been evaluated as the actions fired take, and at least one: the last of them ends the hold.  Of a
hold of more than 2⁵³ ticks, fewer than these are followed. -/
theorem hold_law {c c' : Compilation} {config : Config} {scene : Scene} {record : Record}
    {object : Option String} {compiled : Compiled} {P : Program} {p p₀ : Playback}
    {commands : List Command} {before rest : List (Playback × Moment)} {x : Playback × Moment}
    (compiles : c.compile config scene record object = (.ok compiled, c'))
    (untimed : ∀ t, record ≠ .timeline t) (program : compiled.graph.program = .ok P)
    (finite : ∀ ticks ∈ P.tickCounts, ticks.isFinite) (loads : p.load compiled.graph = .ok p₀)
    (keeps : .unload compiled.graph.carrier ∉ commands)
    (split : p₀.chronicle commands = before ++ x :: rest) :
    (∃ l l', x.1.Sole compiled.graph.carrier l ∧ l.Steady P ∧
      (x.1.happen x.2).1.Sole compiled.graph.carrier l' ∧ l'.Steady P) ∧
    (starts compiled.graph.carrier x → ∃ nodes ticks, P.Fires nodes ticks ∧
      dispatches compiled.graph.carrier [x] = compiled.graph.actionsOf nodes ∧
      ticks = Blueprint.holdTicks config ((dispatches compiled.graph.carrier [x]).map Prod.snd) ∧
      ∀ part y later, rest = part ++ y :: later → (∀ z ∈ part ++ [y], ¬ z.2.isReset) →
        ticksEvaluated part < tickCount ticks →
        (tickCount ticks ≤ 2 ^ 53 ∨ ticksEvaluated (part ++ [y]) < 2 ^ 53) →
        Held compiled.graph.carrier (decide (ticksEvaluated (part ++ [y]) = tickCount ticks)) y) := by
  obtain ⟨P', trigger, -⟩ := Compilation.isTrigger compiles untimed
  obtain rfl : P = P' := Except.ok.inj (program.symm.trans trigger.program)
  obtain ⟨l, ms, sole, plays, steady, own, rfl, keeps'⟩ :=
    trigger.meets (I := fun l => l.Steady P) loads keeps
      (fun l made => Loaded.steady_ofGraph trigger finite made)
      (fun l i plays turn steady => turn.steady plays trigger finite steady) split
  obtain ⟨q, m⟩ := x
  obtain ⟨sole', dispatched⟩ := sole.happen own
  have turn := sole.turn (m := m) plays trigger
  refine ⟨⟨l, _, sole, steady, sole', turn.steady plays trigger finite steady⟩, fun start => ?_⟩
  obtain ⟨ticks, _, -, -, fires, running, active, -⟩ := sole.fired plays trigger own start
  obtain ⟨actions, carried, takes⟩ := trigger.holds _ _ fires
  rw [plays.1] at dispatched
  refine ⟨_, ticks, fires, dispatched, ?_, ?_⟩
  · rw [dispatched, Graph.map_actionsOf carried]
    exact takes
  · intro part y later rest unreset lt told
    have counted := fires.mem_tickCounts
    have begun : (l.meet (q.impact? compiled.graph.carrier m)).1.HoldsOn (tickCount ticks)
        (ticksEvaluated []) := fun _ _ =>
      ⟨running, active ▸ Number.remains_max (trigger.whole ticks counted (finite ticks counted))⟩
    -- The hold goes on up to the moment in question, which meets the rest of it.
    obtain ⟨l', _, sole', plays', holdsOn, own', -, -⟩ :=
      sole'.met (·.2.isReset)
        (I := fun l h => l.HoldsOn (tickCount ticks) (ticksEvaluated h))
        (fun q l m h sole plays _ forth holdsOn =>
          sole.holdsOn_step plays trigger (Bool.not_eq_true _ ▸ forth) holdsOn)
        (Loaded.plays_meet plays _) begun keeps' rest
        fun z hz => unreset z (List.mem_append_left _ hz)
    have forth := unreset y (List.mem_append_right _ (List.mem_singleton_self y))
    exact sole'.held plays' trigger own' (Bool.not_eq_true _ ▸ forth) holdsOn lt told

/-- Two clicks, of which the second fires, a click in its hold and a tick. -/
def doorHold : List Command := doorClicks ++ [.click "door", .tick doorScene.position?]

/-- The second moment of a history fires the trigger of a graph for one tick, which comes last. -/
def holdsOneTick (g : Graph) (history : List (Playback × Moment)) : Bool :=
  match g.program, history with
  | .ok P, [_, x, shown, y, z] =>
    P.tickCounts.all Number.isFinite && (starts g.carrier x &&
      (tickCount (Blueprint.holdTicks Compilation.plainConfig
        ((dispatches g.carrier [x]).map Prod.snd)) == 1 &&
      ([shown, y, z].all (fun moment => !moment.2.isReset) &&
      [shown, y, z].map (fun moment => moment.2.isEvaluation) == [false, false, true])))
  | _, _ => false

/-- The third click comes in the hold, and the tick ends it. -/
theorem secondClickLink_hold_law :
    ∃ compiled c' p₀ first x shown y z,
      Compilation.compile { names := .empty } Compilation.plainConfig doorScene
        (.link secondClickLink) (some "door") = (.ok compiled, c') ∧
      ({} : Playback).load compiled.graph = .ok p₀ ∧
      p₀.chronicle doorHold = [first, x, shown, y, z] ∧ starts compiled.graph.carrier x ∧
      Held compiled.graph.carrier false y ∧ Held compiled.graph.carrier true z := by
  have plays : Compilation.playsAs { names := .empty } Compilation.plainConfig doorScene
      (.link secondClickLink) (some "door") (fun g p => holdsOneTick g (p.chronicle doorHold)) := by
    decide +kernel
  obtain ⟨compiled, c', p₀, compiles, loads, check⟩ := Compilation.exists_of_playsAs plays
  unfold holdsOneTick at check
  split at check
  · next P first x shown y z program history =>
    obtain ⟨finite, check⟩ := Bool.and_eq_true_iff.1 check
    obtain ⟨fires, check⟩ := Bool.and_eq_true_iff.1 check
    obtain ⟨one, check⟩ := Bool.and_eq_true_iff.1 check
    obtain ⟨unreset, ticks⟩ := Bool.and_eq_true_iff.1 check
    have finite : ∀ ticks ∈ P.tickCounts, ticks.isFinite := List.all_eq_true.1 finite
    simp only [List.map_cons, List.map_nil, beq_iff_eq, List.cons.injEq, and_true] at ticks
    obtain ⟨atShown, atY, atZ⟩ := ticks
    simp only [List.all_cons, List.all_nil, Bool.and_true, Bool.and_eq_true_iff,
      Bool.not_eq_true'] at unreset
    obtain ⟨nowShown, nowY, nowZ⟩ := unreset
    have keeps : .unload compiled.graph.carrier ∉ doorHold := by
      simp [doorHold, doorClicks]
    have split : p₀.chronicle doorHold = [first] ++ x :: [shown, y, z] := history
    obtain ⟨-, law⟩ := hold_law compiles (by rintro t ⟨⟩) program finite loads keeps split
    obtain ⟨nodes, ticks, -, -, rfl, held⟩ := law fires
    rw [beq_iff_eq.1 one] at held
    refine ⟨compiled, c', p₀, first, x, shown, y, z, compiles, loads, history, fires, ?_, ?_⟩
    · have atClick := held [shown] y [z] rfl (by simp [nowShown, nowY])
        (by simp [ticksEvaluated, atShown]) (.inl (by decide))
      simpa [ticksEvaluated, atShown, atY] using atClick
    · have atEnd := held [shown, y] z [] rfl (by simp [nowShown, nowY, nowZ])
        (by simp [ticksEvaluated, atShown, atY]) (.inl (by decide))
      simpa [ticksEvaluated, atShown, atY, atZ] using atEnd
  · cases check

end Playback

end SceneLogic
