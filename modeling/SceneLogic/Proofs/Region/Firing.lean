/-
When a region trigger fires.

A region trigger counts up to its sustain ticks, fires, and counts its active ticks down again
(`Phase`).  What this comes to can be said without counters: it fires in a tick exactly if it sensed
something in as many ticks in a row as it must sustain, none of which lies in the hold of an earlier
firing (`firesAt_iff`).  `region_fires_iff` says so of a compiled trigger in all of playback, from
its loading or the last reset on.

The counters of a trigger are numbers, so they stay with its phase as long as numbers are told apart
from the next one (`Phase.Counted`).  This is so if the ticks to sustain and to hold are no more
than 2⁵³, and otherwise in fewer than 2⁵³ ticks.
-/
import SceneLogic.Proofs.Compile.Dispatches
import SceneLogic.Proofs.Number.Whole
import SceneLogic.Proofs.Playback.Impact
namespace SceneLogic

attribute [local irreducible] quantaPerUnit quantaLimit

/-! ### Counting -/

/-- What a trigger is counting: the ticks it has sensed something, or those it still holds. -/
inductive Phase where
  | waiting (held : Nat)
  | holding (left : Nat)
deriving DecidableEq

namespace Phase

/-- A tick with `S` ticks to sustain and `A` ticks to hold: the next phase, and whether the
trigger fires. -/
def next (S A : Nat) : Phase → Bool → Phase × Bool
  | waiting held, sensed =>
    if !sensed then (waiting 0, false)
    else if held + 1 < S then (waiting (held + 1), false)
    else (holding A, true)
  | holding left, _ => (if left = 1 then waiting 0 else holding (left - 1), false)

/-- The trigger holds. -/
def isHolding : Phase → Bool
  | waiting _ => false
  | holding _ => true

/-- The trigger fires as it takes up holding. -/
theorem next_fires (S A : Nat) (phase : Phase) (sensed : Bool) :
    (phase.next S A sensed).2 = (!phase.isHolding && (phase.next S A sensed).1.isHolding) := by
  cases phase with
  | waiting held =>
    simp only [next]
    split
    · rfl
    · split <;> rfl
  | holding left => rfl

/-- The phase before a tick, if it is known in which ticks something is sensed. -/
def before (S A : Nat) (senses : Nat → Bool) : Nat → Phase
  | 0 => waiting 0
  | t + 1 => ((before S A senses t).next S A (senses t)).1

/-- The trigger fires in a tick. -/
def firesAt (S A : Nat) (senses : Nat → Bool) (t : Nat) : Bool :=
  ((before S A senses t).next S A (senses t)).2

/-- The phase before a tick depends on the earlier ticks alone. -/
theorem before_congr {S A : Nat} {senses senses' : Nat → Bool} {t : Nat}
    (same : ∀ i < t, senses i = senses' i) : before S A senses t = before S A senses' t := by
  induction t with
  | zero => rfl
  | succ t ih =>
    rw [before, before, ih fun i lt => same i (Nat.lt_succ_of_lt lt), same t (Nat.lt_succ_self t)]

theorem firesAt_congr {S A : Nat} {senses senses' : Nat → Bool} {t : Nat}
    (same : ∀ i ≤ t, senses i = senses' i) : firesAt S A senses t = firesAt S A senses' t := by
  rw [firesAt, firesAt, before_congr fun i lt => same i (Nat.le_of_lt lt), same t (Nat.le_refl t)]

/-- Without sensing anything no trigger fires. -/
theorem firesAt_of_not_senses {S A : Nat} {senses : Nat → Bool} {t : Nat}
    (h : senses t = false) : firesAt S A senses t = false := by
  rw [firesAt, h]
  cases before S A senses t <;> rfl

section Law

variable {S A : Nat} {senses : Nat → Bool}

/-- Something is sensed in a tick outside of every hold. -/
def Counts (S A : Nat) (senses : Nat → Bool) (t : Nat) : Prop :=
  senses t ∧ ∀ k < t, firesAt S A senses k → k + A < t

/-- What the phase before a tick tells of the ticks so far. -/
def Tells (S A : Nat) (senses : Nat → Bool) (t : Nat) : Phase → Prop
  | waiting held =>
    held < S ∧ held ≤ t ∧ (∀ i, t - held ≤ i → i < t → Counts S A senses i) ∧
      (held < t → ¬ Counts S A senses (t - held - 1)) ∧
      ∀ k < t, firesAt S A senses k → k + A < t
  | holding left =>
    0 < left ∧ left ≤ A ∧ ∃ k, k + A + 1 = t + left ∧ firesAt S A senses k ∧
      ∀ k' < t, firesAt S A senses k' → k' ≤ k

/-- What is known of the firings before a tick, and of that tick, is known before the next. -/
theorem forall_lt_succ {P : Nat → Prop} {t : Nat} (before : ∀ k < t, P k) (now : P t) :
    ∀ k < t + 1, P k := by
  intro k hk
  rcases Nat.lt_succ_iff_lt_or_eq.1 hk with lt | rfl
  · exact before k lt
  · exact now

theorem tells_next_waiting (sustain : 0 < S) (hold : 0 < A) {t held : Nat}
    (phase : before S A senses t = waiting held) (ih : Tells S A senses t (waiting held)) :
    Tells S A senses (t + 1) ((waiting held).next S A (senses t)).1 := by
  obtain ⟨short, le, run, start, free⟩ := ih
  have fires : firesAt S A senses t = ((waiting held).next S A (senses t)).2 := by
    rw [firesAt, phase]
  simp only [next] at fires ⊢
  cases sensed : senses t with
  | false =>
    -- The ticks in a row are interrupted, by one that does not count.
    rw [sensed] at fires
    refine ⟨sustain, Nat.zero_le _, by omega, ?_, ?_⟩
    · intro _ counts
      have sensed' : senses t := counts.1
      rw [sensed] at sensed'
      cases sensed'
    · refine forall_lt_succ ?_ ?_
      · intro k lt fired
        have := free k lt fired
        omega
      · intro fired
        rw [fires] at fired
        cases fired
  | true =>
    rw [sensed] at fires
    simp only [Bool.not_true, Bool.false_eq_true, if_false] at fires ⊢
    by_cases more : held + 1 < S
    · -- One more tick in the row, which begins where it began.
      rw [if_pos more] at fires ⊢
      refine ⟨more, by omega, ?_, ?_, ?_⟩
      · intro i ge lt
        rcases Nat.lt_succ_iff_lt_or_eq.1 lt with lt | rfl
        · exact run i (by omega) lt
        · exact ⟨sensed, free⟩
      · intro lt counts
        have same : t + 1 - (held + 1) - 1 = t - held - 1 := by omega
        rw [same] at counts
        exact start (by omega) counts
      · refine forall_lt_succ ?_ ?_
        · intro k lt fired
          have := free k lt fired
          omega
        · intro fired
          rw [fires] at fired
          cases fired
    · -- The trigger fires, so this is the last firing.
      rw [if_neg more] at fires ⊢
      exact ⟨hold, Nat.le_refl A, t, by omega, fires, fun k lt _ => Nat.lt_succ_iff.1 lt⟩

theorem tells_next_holding (sustain : 0 < S) {t left : Nat}
    (phase : before S A senses t = holding left) (ih : Tells S A senses t (holding left)) :
    Tells S A senses (t + 1) ((holding left).next S A (senses t)).1 := by
  obtain ⟨pos, le, k, at_k, fired_k, last⟩ := ih
  have silent : ¬ firesAt S A senses t := by
    rw [firesAt, phase]
    exact Bool.false_ne_true
  simp only [next]
  split
  · -- The hold is over, so every firing has ended its own.
    refine ⟨sustain, Nat.zero_le _, by omega, ?_, ?_⟩
    · intro _ counts
      have := counts.2 k (by omega) fired_k
      omega
    · refine forall_lt_succ ?_ fun fired => absurd fired silent
      intro k' lt fired
      have := last k' lt fired
      omega
  · refine ⟨by omega, by omega, k, by omega, fired_k, ?_⟩
    exact forall_lt_succ last fun fired => absurd fired silent

/-- What the phase before a tick tells, it tells of every tick. -/
theorem tells_before (sustain : 0 < S) (hold : 0 < A) (t : Nat) :
    Tells S A senses t (before S A senses t) := by
  induction t with
  | zero => exact ⟨sustain, Nat.le_refl 0, by omega, by omega, by omega⟩
  | succ t ih =>
    rw [before]
    cases phase : before S A senses t with
    | waiting held =>
      rw [phase] at ih
      exact tells_next_waiting sustain hold phase ih
    | holding left =>
      rw [phase] at ih
      exact tells_next_holding sustain phase ih

/-- **The firing law.**  The trigger fires in a tick exactly if something was sensed in each of the
ticks to sustain up to this one, outside of the hold of every earlier firing. -/
theorem firesAt_iff (sustain : 0 < S) (hold : 0 < A) (t : Nat) :
    firesAt S A senses t ↔
      S ≤ t + 1 ∧ ∀ i, t + 1 - S ≤ i → i ≤ t → Counts S A senses i := by
  have tells : Tells S A senses t (before S A senses t) := tells_before sustain hold t
  have fires : firesAt S A senses t = ((before S A senses t).next S A (senses t)).2 := rfl
  rw [fires]
  cases phase : before S A senses t with
  | waiting held =>
    rw [phase] at tells
    obtain ⟨short, le, run, start, free⟩ := tells
    simp only [next]
    cases sensed : senses t with
    | false =>
      simp only [Bool.not_false, if_true, Bool.false_eq_true, false_iff]
      rintro ⟨-, counts⟩
      have sensed' : senses t := (counts t (by omega) (Nat.le_refl t)).1
      rw [sensed] at sensed'
      cases sensed'
    | true =>
      simp only [Bool.not_true, Bool.false_eq_true, if_false]
      by_cases more : held + 1 < S
      · rw [if_pos more]
        simp only [Bool.false_eq_true, false_iff]
        rintro ⟨long, counts⟩
        exact start (by omega) (counts (t - held - 1) (by omega) (by omega))
      · rw [if_neg more]
        simp only [true_iff]
        refine ⟨by omega, ?_⟩
        intro i ge le
        rcases Nat.lt_or_eq_of_le le with lt | rfl
        · exact run i (by omega) lt
        · exact ⟨sensed, free⟩
  | holding left =>
    rw [phase] at tells
    -- This tick lies in the hold of the last firing.
    obtain ⟨pos, le, k, at_k, fired_k, -⟩ := tells
    simp only [next, Bool.false_eq_true, false_iff]
    rintro ⟨-, counts⟩
    have := (counts t (by omega) (Nat.le_refl t)).2 k (by omega) fired_k
    omega

/-- What is counted in so many ticks stays within the numbers that are told apart. -/
def Within (S A ticks : Nat) : Prop := ticks < 2 ^ 53 ∨ S ≤ 2 ^ 53 ∧ A ≤ 2 ^ 53

theorem Within.of_le {t t' : Nat} (within : Within S A t') (le : t ≤ t') : Within S A t :=
  within.imp_left (Nat.lt_of_le_of_lt le)

/-- One more tick is counted as another one. -/
def Counted (A : Nat) : Phase → Prop
  | waiting held => held + 1 ≤ 2 ^ 53
  | holding left => A ≤ 2 ^ 53 ∨ A + 1 < left + 2 ^ 53

theorem counted_before (sustain : 0 < S) (hold : 0 < A) {t : Nat} (within : Within S A (t + 1)) :
    (before S A senses t).Counted A := by
  have tells : Tells S A senses t (before S A senses t) := tells_before sustain hold t
  cases phase : before S A senses t with
  | waiting held =>
    rw [phase] at tells
    obtain ⟨short, le, -⟩ := tells
    show held + 1 ≤ 2 ^ 53
    rcases within with few | ⟨small, -⟩
    · omega
    · omega
  | holding left =>
    rw [phase] at tells
    obtain ⟨-, -, k, at_k, -⟩ := tells
    rcases within with few | ⟨-, small⟩
    · exact .inr (by omega)
    · exact .inl small

end Law

end Phase

/-! ### A trigger in its phases -/

/-- What a loaded trigger with so many ticks to hold keeps to itself is its phase. -/
def Loaded.InPhase (A : Nat) (l : Loaded) : Phase → Prop
  | .waiting held => l.holder.status = .stop ∧ l.memory.held = .ofNat held
  | .holding left =>
    l.holder.status = .start ∧ l.memory.held = 0 ∧ Number.Remains A left l.memory.active ∧ 0 < left

/-- A program sustains and holds for some ticks. -/
structure RegionProgram.Lasts (P : RegionProgram) (S A : Nat) : Prop where
  sustain : ∀ n, 0 < n → n ≤ 2 ^ 53 → ((Number.ofNat n).lt P.sustainTicks ↔ n < S)
  sustain_pos : 0 < S
  hold : Number.Remains A A ((1 : Number).max P.activeTicks)
  hold_pos : 0 < A

namespace Loaded

variable {l : Loaded} {P : RegionProgram} {S A : Nat} {phase : Phase}

theorem inPhase_fire (held : l.memory.held = 0) {activeTicks : Number}
    (hold : Number.Remains A A ((1 : Number).max activeTicks)) (pos : 0 < A)
    (remainEnabled : Bool) : (l.fire activeTicks remainEnabled).InPhase A (.holding A) := by
  rw [fire]
  cases remainEnabled <;> exact ⟨rfl, held, hold, pos⟩

/-- A trigger that is not active waits on or fires, as its phase does. -/
theorem sense_inPhase {held : Nat} (inPhase : l.InPhase A (.waiting held)) (lasts : P.Lasts S A)
    (counted : held + 1 ≤ 2 ^ 53) (sensed : Bool) :
    (l.sense P sensed).1.InPhase A ((Phase.waiting held).next S A sensed).1 ∧
      (l.sense P sensed).2 =
        if ((Phase.waiting held).next S A sensed).2 then P.dispatch else [] := by
  obtain ⟨status, memory⟩ := inPhase
  rw [sense, memory, Number.ofNat_add_one counted]
  dsimp only
  simp only [Phase.next]
  cases sensed with
  | false => exact ⟨⟨status, rfl⟩, rfl⟩
  | true =>
    have short := lasts.sustain (held + 1) (Nat.succ_pos held) counted
    simp only [Bool.not_true, Bool.false_eq_true, if_false, short]
    by_cases more : held + 1 < S
    · simp only [if_pos more]
      exact ⟨⟨status, rfl⟩, rfl⟩
    · simp only [if_neg more]
      exact ⟨inPhase_fire rfl lasts.hold lasts.hold_pos _, rfl⟩

/-- A trigger that is active holds on or waits again, as its phase does. -/
theorem countDown_inPhase {left : Nat} (inPhase : l.InPhase A (.holding left)) (S : Nat)
    (counted : A ≤ 2 ^ 53 ∨ A + 1 < left + 2 ^ 53) (sensed : Bool) :
    l.countDown.InPhase A ((Phase.holding left).next S A sensed).1 := by
  obtain ⟨status, memory, remains, pos⟩ := inPhase
  obtain ⟨n, rfl⟩ := Nat.exists_eq_succ_of_ne_zero pos.ne'
  have rest : Number.Remains A n (l.memory.active.sub 1) := remains.sub_one (by omega)
  have ends := rest.le_zero_iff (by omega)
  simp only [countDown, Phase.next]
  by_cases done : n = 0
  · rw [if_pos (ends.2 done), if_pos (congrArg Nat.succ done)]
    exact ⟨rfl, memory⟩
  · rw [if_neg fun ended => done (ends.1 ended), if_neg fun last => done (Nat.succ.inj last)]
    exact ⟨status, memory, rest, Nat.pos_of_ne_zero done⟩

/-- A tick of a trigger is a tick of its phase. -/
theorem evaluate_inPhase (inPhase : l.InPhase A phase) (region : l.program = .region P)
    (lasts : P.Lasts S A) (counted : phase.Counted A)
    (position? : String → Option (Triple Number)) {sensed : Bool}
    (senses : sensed = (l.holder.enabled = some true && P.test.detects position?)) :
    (l.evaluate position?).1.InPhase A (phase.next S A sensed).1 ∧
      (l.evaluate position?).2 = if (phase.next S A sensed).2 then P.dispatch else [] := by
  rw [evaluate, region]
  dsimp only
  cases phase with
  | waiting held =>
    rw [inPhase.1, ← senses]
    exact sense_inPhase inPhase lasts counted sensed
  | holding left =>
    rw [inPhase.1]
    exact ⟨countDown_inPhase inPhase S counted sensed, rfl⟩

end Loaded

/-! ### Triggers in playback -/

namespace Playback

/-- A trigger that was not active is so after an evaluation. -/
def fires (carrier : String) (x : Playback × Moment) : Bool :=
  x.2.isEvaluation && (!x.1.isRunning carrier && (x.1.happen x.2).1.isRunning carrier)

/-- In an evaluation a carrier is enabled and a test holds. -/
def senses (carrier : String) (test : Containment) (x : Playback × Moment) : Bool :=
  match x.2 with
  | .evaluate position? => x.1.isEnabled carrier && test.detects position?
  | _ => false

/-- A check holds of the evaluation in a tick of a history, counted from zero. -/
def inTick (check : Playback × Moment → Bool) (history : List (Playback × Moment)) (t : Nat) :
    Bool :=
  ((history.filter (·.2.isEvaluation))[t]?).any check

/-- The number of ticks that were evaluated in a history. -/
def ticksEvaluated (history : List (Playback × Moment)) : Nat :=
  (history.filter (·.2.isEvaluation)).length

section Ticks

variable (check : Playback × Moment → Bool) {h : List (Playback × Moment)} {x : Playback × Moment}
variable {t : Nat}

/-- Nothing holds of ticks to come. -/
theorem inTick_of_le (le : ticksEvaluated h ≤ t) : inTick check h t = false := by
  rw [inTick, List.getElem?_eq_none le]
  rfl

theorem inTick_append_of_lt (lt : t < ticksEvaluated h) :
    inTick check (h ++ [x]) t = inTick check h t := by
  rw [inTick, inTick, List.filter_append, List.getElem?_append_left lt]

theorem filter_append_evaluation (evaluation : x.2.isEvaluation) :
    (h ++ [x]).filter (·.2.isEvaluation) = h.filter (·.2.isEvaluation) ++ [x] := by
  simp [evaluation]

/-- What is no evaluation makes no tick. -/
theorem filter_append_other (other : x.2.isEvaluation = false) :
    (h ++ [x]).filter (·.2.isEvaluation) = h.filter (·.2.isEvaluation) := by
  simp [other]

theorem inTick_append_self (evaluation : x.2.isEvaluation) :
    inTick check (h ++ [x]) (ticksEvaluated h) = check x := by
  rw [inTick, filter_append_evaluation evaluation, ticksEvaluated, List.getElem?_concat_length,
    Option.any_some]

theorem ticksEvaluated_append (evaluation : x.2.isEvaluation) :
    ticksEvaluated (h ++ [x]) = ticksEvaluated h + 1 := by
  rw [ticksEvaluated, filter_append_evaluation evaluation, List.length_append]
  rfl

end Ticks

variable {q : Playback} {carrier : String} {l : Loaded} {m : Moment} {g : Graph}
variable {P : RegionProgram} {S A : Nat} {phase : Phase}

/-- A trigger is active while it holds. -/
theorem Sole.isRunning_of_inPhase (sole : q.Sole carrier l) (inPhase : l.InPhase A phase) :
    q.isRunning carrier = phase.isHolding := by
  rw [sole.isRunning]
  cases phase <;> (rw [inPhase.1]; rfl)

/-- A tick moves a trigger to its next phase, and it dispatches as it fires. -/
theorem Sole.fire_step (sole : q.Sole carrier l) (plays : l.Plays g (.region P))
    (inPhase : l.InPhase A phase) (lasts : P.Lasts S A) (counted : phase.Counted A)
    {position? : String → Option (Triple Number)} {sensed : Bool}
    (senses : sensed = senses carrier P.test (q, .evaluate position?)) :
    (l.evaluate position?).1.InPhase A (phase.next S A sensed).1 ∧
      fires carrier (q, .evaluate position?) = (phase.next S A sensed).2 ∧
      dispatches carrier [(q, .evaluate position?)] =
        if (phase.next S A sensed).2 then g.actionsOf P.dispatch else [] := by
  have detected : sensed = (l.holder.enabled = some true && P.test.detects position?) := by
    rw [senses, Playback.senses, sole.isEnabled]
  obtain ⟨inNext, nodes⟩ := Loaded.evaluate_inPhase inPhase plays.2 lasts counted position? detected
  obtain ⟨sole', dispatched⟩ := sole.evaluate position?
  refine ⟨inNext, ?_, ?_⟩
  · show (!q.isRunning carrier && (q.happen (.evaluate position?)).1.isRunning carrier) = _
    rw [sole.isRunning_of_inPhase inPhase, sole'.isRunning_of_inPhase inNext, Phase.next_fires]
  · rw [dispatched, nodes, plays.1]
    split <;> rfl

/-- Between its ticks a trigger stays in its phase and dispatches nothing, unless it is reset. -/
theorem Sole.wait_step (sole : q.Sole carrier l) (plays : l.Plays g (.region P))
    (untimed : g.kind ≠ .timeline) (inPhase : l.InPhase A phase) (own : m ≠ .unload carrier)
    (evaluation : m.isEvaluation = false) (reset : m.isReset = false) :
    (l.meet (q.impact? carrier m)).1.InPhase A phase ∧ dispatches carrier [(q, m)] = [] := by
  rw [(sole.happen own).2]
  by_cases click : ∃ object, m = .deliver object
  · obtain ⟨object, rfl⟩ := click
    rw [impact?]
    split
    · show l.click.1.InPhase A phase ∧ l.graph.actionsOf l.click.2 = []
      rw [Loaded.click_of_not_link (by rintro P ⟨⟩) plays]
      exact ⟨inPhase, rfl⟩
    · exact ⟨inPhase, rfl⟩
  · obtain ⟨enabled, met⟩ := sole.meet_of_other (fun kind => untimed (plays.1 ▸ kind)) evaluation
      (fun object h => click ⟨object, h⟩) reset
    rw [met]
    refine ⟨?_, rfl⟩
    cases phase <;> exact inPhase

/-- A trigger has gone through a history in its phases, fired in the ticks in which these say so,
and dispatched then and only then. -/
structure Follows (carrier : String) (g : Graph) (P : RegionProgram) (S A : Nat) (l : Loaded)
    (h : List (Playback × Moment)) : Prop where
  inPhase : l.InPhase A (Phase.before S A (inTick (senses carrier P.test) h) (ticksEvaluated h))
  fired : inTick (fires carrier) h = Phase.firesAt S A (inTick (senses carrier P.test) h)
  dispatched : ∀ x ∈ h,
    dispatches carrier [x] = if fires carrier x then g.actionsOf P.dispatch else []

section Step

variable {h : List (Playback × Moment)}

/-- What is dispatched with the firings of a history and in the next moment is dispatched with the
firings of both. -/
theorem Follows.dispatched_append (follows : Follows carrier g P S A l h)
    {x : Playback × Moment}
    (last : dispatches carrier [x] = if fires carrier x then g.actionsOf P.dispatch else []) :
    ∀ y ∈ h ++ [x],
      dispatches carrier [y] = if fires carrier y then g.actionsOf P.dispatch else [] := by
  intro y hy
  rcases List.mem_append.1 hy with hy | hy
  · exact follows.dispatched y hy
  · rw [List.mem_singleton.1 hy]
    exact last

/-- A moment between ticks makes no difference to what a trigger follows. -/
theorem Sole.follows_wait (sole : q.Sole carrier l) (plays : l.Plays g (.region P))
    (untimed : g.kind ≠ .timeline) (own : m ≠ .unload carrier)
    (evaluation : m.isEvaluation = false) (reset : m.isReset = false)
    (follows : Follows carrier g P S A l h) :
    Follows carrier g P S A (l.meet (q.impact? carrier m)).1 (h ++ [(q, m)]) := by
  obtain ⟨inPhase, silent⟩ := sole.wait_step plays untimed follows.inPhase own evaluation reset
  have same : ∀ check, inTick check (h ++ [(q, m)]) = inTick check h := by
    intro check
    funext t
    rw [inTick, inTick, filter_append_other evaluation]
  have calm : fires carrier (q, m) = false := by
    rw [fires, evaluation]
    rfl
  refine ⟨?_, ?_, follows.dispatched_append ?_⟩
  · rw [same, ticksEvaluated, filter_append_other evaluation]
    exact inPhase
  · rw [same, same]
    exact follows.fired
  · rw [silent, calm]
    rfl

/-- A tick is one more that a trigger follows. -/
theorem Sole.follows_tick (sole : q.Sole carrier l) (plays : l.Plays g (.region P))
    (lasts : P.Lasts S A) (position? : String → Option (Triple Number))
    (within : Phase.Within S A (ticksEvaluated h + 1)) (follows : Follows carrier g P S A l h) :
    Follows carrier g P S A (l.evaluate position?).1 (h ++ [(q, .evaluate position?)]) := by
  have here : inTick (senses carrier P.test) (h ++ [(q, .evaluate position?)])
      (ticksEvaluated h) = senses carrier P.test (q, .evaluate position?) :=
    inTick_append_self _ rfl
  have so_far : ∀ i < ticksEvaluated h, inTick (senses carrier P.test)
      (h ++ [(q, .evaluate position?)]) i = inTick (senses carrier P.test) h i := by
    intro i lt
    exact inTick_append_of_lt _ lt
  have counted : (Phase.before S A (inTick (senses carrier P.test) h)
      (ticksEvaluated h)).Counted A :=
    Phase.counted_before lasts.sustain_pos lasts.hold_pos within
  obtain ⟨inPhase, fired, dispatched⟩ := sole.fire_step plays follows.inPhase lasts counted here
  -- The phases before this tick are those by the longer history, too.
  rw [← Phase.before_congr so_far] at inPhase fired dispatched
  refine ⟨?_, ?_, follows.dispatched_append ?_⟩
  · rw [ticksEvaluated_append rfl]
    exact inPhase
  · funext t
    rcases Nat.lt_trichotomy t (ticksEvaluated h) with lt | rfl | gt
    · rw [inTick_append_of_lt _ lt, follows.fired]
      exact (Phase.firesAt_congr fun i le => so_far i (Nat.lt_of_le_of_lt le lt)).symm
    · rw [inTick_append_self _ rfl, fired]
      rfl
    · -- In ticks to come there is nothing sensed, and so no firing.
      have later : ticksEvaluated (h ++ [(q, .evaluate position?)]) ≤ t := by
        rw [ticksEvaluated_append rfl]
        exact gt
      rw [inTick_of_le _ later, Phase.firesAt_of_not_senses (inTick_of_le _ later)]
  · rw [dispatched, fired]

/-- What a trigger follows, it follows through the next moment. -/
theorem Sole.follows_step (sole : q.Sole carrier l) (plays : l.Plays g (.region P))
    (untimed : g.kind ≠ .timeline) (lasts : P.Lasts S A) (own : m ≠ .unload carrier)
    (reset : m.isReset = false) (within : Phase.Within S A (ticksEvaluated (h ++ [(q, m)])))
    (follows : Phase.Within S A (ticksEvaluated h) → Follows carrier g P S A l h) :
    Follows carrier g P S A (l.meet (q.impact? carrier m)).1 (h ++ [(q, m)]) := by
  cases evaluation : m.isEvaluation with
  | false =>
    rw [ticksEvaluated, filter_append_other evaluation] at within
    exact sole.follows_wait plays untimed own evaluation reset (follows within)
  | true =>
    rw [ticksEvaluated_append evaluation] at within
    cases m with
    | evaluate position? =>
      exact sole.follows_tick plays lasts position? within
        (follows (within.of_le (Nat.le_succ _)))
    | _ => cases evaluation

end Step

/-- The ticks in which a trigger fires, by the ticks in which it senses something. -/
theorem Sole.follows_run (sole : q.Sole carrier l) (plays : l.Plays g (.region P))
    (untimed : g.kind ≠ .timeline) (lasts : P.Lasts S A) (inPhase : l.InPhase A (.waiting 0))
    {ms : List Moment} (keeps : .unload carrier ∉ ms) (uncut : ∀ x ∈ q.trail ms, ¬ x.2.isReset)
    (within : Phase.Within S A (ticksEvaluated (q.trail ms))) :
    ∃ l', Follows carrier g P S A l' (q.trail ms) := by
  have start : Follows carrier g P S A l [] := by
    refine ⟨inPhase, ?_, ?_⟩
    · funext t
      exact (Phase.firesAt_of_not_senses rfl).symm
    · intro x hx
      cases hx
  obtain ⟨l', -, -, follows⟩ := sole.run
    (I := fun l h => Phase.Within S A (ticksEvaluated h) → Follows carrier g P S A l h)
    (fun q l m h sole plays own forth so_far within => sole.follows_step plays untimed lasts own
      (Bool.not_eq_true _ ▸ forth) within so_far) plays (fun _ => start) keeps uncut
  exact ⟨l', follows within⟩

/-- **When a region trigger fires.**  From its loading or the last reset on, a compiled trigger
fires in a tick exactly if it was enabled and its test held in each of the ticks to sustain up to
this one, none of which is one of the ticks that an earlier firing holds.  With a firing, and at no
other moment, it dispatches its actions, in order.  As ticks are counted by numbers, this is said of
fewer than 2⁵³ of them, or of all if no more than 2⁵³ are to be sustained or held. -/
theorem region_fires_iff {c c' : Compilation} {config : Config} {scene : Scene}
    {t : RegionTrigger} {object : Option String} {compiled : Compiled} {p p₀ : Playback}
    {commands : List Command} {before part rest : List (Playback × Moment)}
    (compiles : c.compile config scene (.region t) object = (.ok compiled, c'))
    (sustain : (secondsToTicks t.duration.number config.ticksPerSecond).isFinite)
    (hold : (Blueprint.holdTicks config t.actions).isFinite)
    (loads : p.load compiled.graph = .ok p₀)
    (keeps : .unload compiled.graph.carrier ∉ commands)
    (stretch : Stretch (·.2.isReset) (p₀.chronicle commands) before part rest)
    (counted : ticksEvaluated part < 2 ^ 53 ∨
      tickCount (secondsToTicks t.duration.number config.ticksPerSecond) ≤ 2 ^ 53 ∧
      tickCount (Blueprint.holdTicks config t.actions) ≤ 2 ^ 53) :
    ∃ tracked, t.trackedIn scene = .ok tracked ∧
      (∀ tick, inTick (fires compiled.graph.carrier) part tick ↔
        tickCount (secondsToTicks t.duration.number config.ticksPerSecond) ≤ tick + 1 ∧
        ∀ i, tick + 1 - tickCount (secondsToTicks t.duration.number config.ticksPerSecond) ≤ i →
          i ≤ tick →
          inTick (senses compiled.graph.carrier (Blueprint.regionTest t tracked)) part i ∧
          ∀ j < i, inTick (fires compiled.graph.carrier) part j →
            j + tickCount (Blueprint.holdTicks config t.actions) < i) ∧
      ∀ x ∈ part, (dispatches compiled.graph.carrier [x]).map Prod.snd =
        if fires compiled.graph.carrier x then t.actions else [] := by
  obtain ⟨carrier, script, tracked, found, graph⟩ := Compilation.compile_region compiles
  refine ⟨tracked, found, ?_⟩
  have named : compiled.graph.carrier = carrier := congrArg Graph.carrier graph
  rw [named] at keeps ⊢
  rw [graph] at loads named
  have lasts : RegionProgram.Lasts
      { test := Blueprint.regionTest t tracked
        sustainTicks := secondsToTicks t.duration.number config.ticksPerSecond
        activeTicks := Blueprint.holdTicks config t.actions
        dispatch := (List.range t.actions.length).map fun i =>
          nodeId carrier (Blueprint.dispatchName i)
        remainEnabled := t.remainEnabled }
      (tickCount (secondsToTicks t.duration.number config.ticksPerSecond))
      (tickCount (Blueprint.holdTicks config t.actions)) :=
    { sustain := fun n => Number.lt_iff_lt_tickCount (Number.quanta?_secondsToTicks sustain)
      sustain_pos := tickCount_pos _
      hold := Number.remains_max (Number.quanta?_secondsToTicks hold)
      hold_pos := tickCount_pos _ }
  have loaded : ∀ l, Loaded.ofGraph ((Blueprint.region config t tracked).graph carrier .region
      t.name.text script) = .ok l →
        l.InPhase (tickCount (Blueprint.holdTicks config t.actions)) (.waiting 0) := by
    intro l made
    obtain ⟨_, -, rfl⟩ := Loaded.ofGraph_eq_ok made
    exact ⟨rfl, rfl⟩
  -- The stretch is a trail that begins with the trigger waiting, and nothing counted.
  obtain ⟨q, ms, ms', l, rfl, rfl, keeps, sole, plays, inPhase⟩ :=
    exists_trail_of_stretch loads
      (Blueprint.region_program config t tracked carrier t.name.text script) named keeps stretch
      loaded fun q l m _ plays reset => by
        cases Moment.isReset_iff.1 reset
        show l.restored.InPhase _ _
        rw [Loaded.restored, plays.1]
        exact ⟨rfl, rfl⟩
  have keeps₁ : .unload carrier ∉ ms := fun h => keeps (List.mem_append_left _ h)
  obtain ⟨_, follows⟩ :=
    sole.follows_run plays (by rintro ⟨⟩) lasts inPhase keeps₁ stretch.uncut counted
  constructor
  · intro tick
    rw [follows.fired]
    exact Phase.firesAt_iff (tickCount_pos _) (tickCount_pos _) tick
  · intro x hx
    rw [follows.dispatched x hx]
    split
    · exact Graph.map_actionsOf
        (Blueprint.region_carries config carrier .region t.name.text script t tracked)
    · rfl

/-- A trigger that hides the door of the scene when it has stood at its origin for two seconds. -/
def doorTrigger : RegionTrigger where
  name := ⟨"watch", by decide⟩
  corner1 := ⟨0, 0, 0⟩
  corner2 := ⟨0, 0, 0⟩
  direction := .inside
  tracked := .objects [doorTarget]
  actions := [.visibility doorTarget false 0]
  enabled := true
  remainEnabled := true
  duration := (Span.ofNumber? 2).getD 0
  detectAny := true

/-- Three ticks in which the door stands still. -/
def doorTicks : List Command := List.replicate 3 (.tick doorScene.position?)

/-- The trigger fires in the second of these. -/
theorem doorTrigger_fires_iff :
    ∃ compiled c' p₀ tracked,
      Compilation.compile { names := .empty } Compilation.plainConfig doorScene
        (.region doorTrigger) none = (.ok compiled, c') ∧
      ({} : Playback).load compiled.graph = .ok p₀ ∧
      doorTrigger.trackedIn doorScene = .ok tracked ∧
      inTick (fires compiled.graph.carrier) (p₀.chronicle doorTicks) 1 ∧
      ∀ tick, inTick (fires compiled.graph.carrier) (p₀.chronicle doorTicks) tick ↔
        tickCount (secondsToTicks doorTrigger.duration.number
            Compilation.plainConfig.ticksPerSecond) ≤ tick + 1 ∧
        ∀ i, tick + 1 - tickCount (secondsToTicks doorTrigger.duration.number
            Compilation.plainConfig.ticksPerSecond) ≤ i → i ≤ tick →
          inTick (senses compiled.graph.carrier (Blueprint.regionTest doorTrigger tracked))
            (p₀.chronicle doorTicks) i ∧
          ∀ j < i, inTick (fires compiled.graph.carrier) (p₀.chronicle doorTicks) j →
            j + tickCount (Blueprint.holdTicks Compilation.plainConfig doorTrigger.actions) <
              i := by
  have plays : Compilation.playsAs { names := .empty } Compilation.plainConfig doorScene
      (.region doorTrigger) none (fun g p =>
        (p.chronicle doorTicks).all (fun x => !x.2.isReset) &&
          inTick (fires g.carrier) (p.chronicle doorTicks) 1) := by
    decide +kernel
  obtain ⟨compiled, c', p₀, compiles, loads, check⟩ := Compilation.exists_of_playsAs plays
  obtain ⟨uncut, fired⟩ := Bool.and_eq_true_iff.1 check
  have stretch : Stretch (·.2.isReset) (p₀.chronicle doorTicks) [] (p₀.chronicle doorTicks) [] :=
    .of_all (List.append_nil _).symm uncut
  have keeps : .unload compiled.graph.carrier ∉ doorTicks := by
    simp [doorTicks]
  obtain ⟨tracked, found, law, -⟩ := region_fires_iff compiles (by decide +kernel)
    (by decide +kernel) loads keeps stretch (.inr (by decide +kernel))
  exact ⟨compiled, c', p₀, tracked, compiles, loads, found, fired, law⟩

end Playback

end SceneLogic
