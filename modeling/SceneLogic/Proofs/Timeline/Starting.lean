/-
Timelines that are started only if they have not begun.

The clock of a timeline tells how far the timeline has run since it was last started over or reset
(`Playback.Sole.clock_step`), and nothing else tells whether it has begun.  So an applied
`startIfNotStarted` starts it exactly if it is stopped and has not run since then
(`Playback.start_if_not_started_law`).  A timeline that has run is started all the same if it was
started over and stopped before its next tick (`Playback.begun_is_started`).
-/
import Mathlib.Data.List.DropRight
import SceneLogic.Proofs.Timeline.Passes
namespace SceneLogic.Playback

variable {q : Playback} {carrier : String} {l : Loaded} {m : Moment}
  {h : List (Playback × Moment)}

/-- A timeline is started over, whether it has begun or not. -/
def startsOver (carrier : String) (x : Playback × Moment) : Bool :=
  match x.2 with
  | .effect (.timeline target .start) => x.1.reaches .timeline target.name carrier
  | _ => false

/-- The part of a history since a timeline was last started over. -/
def sinceStart (carrier : String) (history : List (Playback × Moment)) :
    List (Playback × Moment) :=
  history.rtakeWhile fun x => !startsOver carrier x

theorem sinceStart_concat (x : Playback × Moment) :
    sinceStart carrier (h ++ [x]) =
      if startsOver carrier x then [] else sinceStart carrier h ++ [x] := by
  rw [sinceStart, List.rtakeWhile_concat]
  cases startsOver carrier x <;> rfl

theorem rewinds_of_startsOver {x : Playback × Moment} (anew : startsOver carrier x) :
    rewinds carrier x := by
  unfold startsOver at anew
  unfold rewinds
  split at anew
  · next target found =>
    rw [found]
    exact anew
  · cases anew

/-- A timeline that is rewound is reset or started over, unless it has not begun. -/
theorem Sole.rewinds_cases (sole : q.Sole carrier l) (back : rewinds carrier (q, m)) :
    m.isReset ∨ startsOver carrier (q, m) ∨ m.isEvaluation = false ∧ l.memory.tick.same (-1) := by
  unfold rewinds at back
  split at back
  · next reset =>
    cases reset
    exact .inl rfl
  · next target start =>
    cases start
    exact .inr (.inl back)
  · next target start =>
    cases start
    obtain ⟨reached, unstarted⟩ := Bool.and_eq_true_iff.1 back
    rw [sole.find? reached] at unstarted
    have unstarted : l.isUnstarted := unstarted
    exact .inr (.inr ⟨rfl, (Bool.and_eq_true_iff.1 unstarted).2⟩)
  · cases back

theorem tick_of_isReset (reset : m.isReset) :
    (l.meet (q.impact? carrier m)).1.memory.tick = -1 := by
  rw [Moment.isReset_iff.1 reset]
  rfl

/-- The clock has come as far as the timeline was running since it was started over. -/
theorem Sole.clock_step {P : TimelineProgram} (sole : q.Sole carrier l)
    (timeline : l.program = .timeline P) (uncut : ¬ m.isReset)
    (clock : l.memory.tick = clockTick (ticksRunning carrier (sinceStart carrier h))) :
    (l.meet (q.impact? carrier m)).1.memory.tick =
      clockTick (ticksRunning carrier (sinceStart carrier (h ++ [(q, m)]))) := by
  rw [sinceStart_concat]
  by_cases anew : startsOver carrier (q, m)
  · rw [if_pos anew, sole.tick_of_rewinds (rewinds_of_startsOver anew)]
    exact clockTick_zero.symm
  · rw [if_neg anew, ticksRunning_append]
    by_cases back : rewinds carrier (q, m)
    · -- The timeline has not begun, so it is where it was before.
      obtain reset | begun | ⟨still, first⟩ := sole.rewinds_cases back
      · exact absurd reset uncut
      · exact absurd begun anew
      · rw [clock, clockTick_same_iff] at first
        rw [sole.tick_of_rewinds back, ticksRunning_other still, first, clockTick_zero]
    · exact sole.tick_step timeline back clock

/-- A timeline is unstarted if it is stopped and its clock stands before its first tick. -/
theorem Sole.isUnstarted_iff (sole : q.Sole carrier l) {ticks : Nat}
    (clock : l.memory.tick = clockTick ticks) :
    l.isUnstarted ↔ ¬ q.isRunning carrier ∧ ticks = 0 := by
  rw [Loaded.isUnstarted, Bool.and_eq_true_iff, decide_eq_true_iff, clock, clockTick_same_iff,
    sole.isRunning, decide_eq_true_iff]
  have stopped : l.holder.status = .stop ↔ ¬ l.holder.status = .start := by
    cases l.holder.status <;> decide
  rw [stopped]

/-- **What `startIfNotStarted` does**: it starts the timeline it reaches anew if that is stopped and
has not run since it was last started over or reset, and nothing otherwise. -/
theorem start_if_not_started_law {c c' : Compilation} {config : Config} {scene : Scene}
    {t : Timeline} {object : Option String} {compiled : Compiled} {p p₀ : Playback}
    {commands : List Command} {before part rest : List (Playback × Moment)}
    {x : Playback × Moment} {target : Target}
    (compiles : c.compile config scene (.timeline t) object = (.ok compiled, c'))
    (loads : p.load compiled.graph = .ok p₀)
    (keeps : .unload compiled.graph.carrier ∉ commands)
    (stretch : Stretch (·.2.isReset) (p₀.chronicle commands) before part (x :: rest))
    (asked : x.2 = .effect (.timeline target .startIfNotStarted)) :
    ∃ l, x.1.Sole compiled.graph.carrier l ∧
      (x.1.happen x.2).1.Sole compiled.graph.carrier
        (if x.1.reaches .timeline target.name compiled.graph.carrier ∧
            ¬ x.1.isRunning compiled.graph.carrier ∧
            ticksRunning compiled.graph.carrier (sinceStart compiled.graph.carrier part) = 0
          then l.restarted else l) := by
  obtain ⟨carrier, script, graph⟩ := Compilation.compile_timeline compiles
  have named : compiled.graph.carrier = carrier := congrArg Graph.carrier graph
  rw [named] at keeps ⊢
  rw [graph] at loads named
  have loaded : ∀ l, Loaded.ofGraph ((Blueprint.timeline config t).graph carrier .timeline
      t.name.text script) = .ok l → l.memory.tick = clockTick 0 := by
    intro l made
    obtain ⟨_, -, rfl⟩ := Loaded.ofGraph_eq_ok made
    exact clockTick_zero.symm
  obtain ⟨q, ms, ms', l, rfl, later, keeps, sole, plays, tick⟩ :=
    exists_trail_of_stretch loads
      (Blueprint.timeline_program config t carrier t.name.text script) named keeps stretch loaded
      fun _ _ _ _ _ reset => (tick_of_isReset reset).trans clockTick_zero.symm
  have keeps₁ : .unload carrier ∉ ms := fun mem => keeps (List.mem_append_left _ mem)
  obtain ⟨l', sole', plays', clock⟩ := sole.run
    (I := fun l h => l.memory.tick = clockTick (ticksRunning carrier (sinceStart carrier h)))
    (fun _ _ _ _ sole plays _ uncut clock => sole.clock_step plays.2 uncut clock) plays tick keeps₁
    stretch.uncut
  cases ms' with
  | nil => cases later
  | cons m ms' =>
    cases later
    cases asked
    refine ⟨l', sole', ?_⟩
    have changes := (sole'.effect (.timeline target .startIfNotStarted)).1
    rw [impact?] at changes
    by_cases reached : (q.after ms).reaches .timeline target.name carrier
    · rw [if_pos reached] at changes
      simp only [reached, true_and, ← sole'.isUnstarted_iff clock]
      exact changes
    · rw [if_neg reached] at changes
      rw [if_neg fun h => reached h.1]
      exact changes

theorem evening_not_blank : ¬ Text.Blank "evening" := by decide

/-- The timeline of the lamp. -/
def lampTarget : Target := ⟨"evening", evening_not_blank⟩

/-- A tick in which the lamp is lit, changes that are applied behind it, and a request to start
the lamp if it has not begun. -/
def lampRequest (changes : List TimelineChange) : List Command :=
  [.tick fun _ => none, .apply (changes.map (Action.timeline lampTarget)),
    .apply [.timeline lampTarget .startIfNotStarted]]

/-- A history without resets ends with such a request, and what comes before it, the playback that
it meets and the name that it is for pass a check. -/
def endsInRequest (check : List (Playback × Moment) → Playback → String → Bool)
    (history : List (Playback × Moment)) : Bool :=
  match history.getLast? with
  | some (q, .effect (.timeline target .startIfNotStarted)) =>
    history.dropLast.all (fun x => !x.2.isReset) && check history.dropLast q target.name
  | _ => false

theorem exists_of_endsInRequest {check : List (Playback × Moment) → Playback → String → Bool}
    (ends : endsInRequest check h) :
    ∃ part q target, h = part ++ [(q, .effect (.timeline target .startIfNotStarted))] ∧
      (part.all fun x => !x.2.isReset) ∧ check part q target.name := by
  unfold endsInRequest at ends
  split at ends
  · next q target last =>
    obtain ⟨uncut, check⟩ := Bool.and_eq_true_iff.1 ends
    exact ⟨h.dropLast, q, target, (List.dropLast_append_getLast? _ last).symm, uncut, check⟩
  · cases ends

/-- A lamp that is stopped after its first tick is not started by the request. -/
theorem lampTimeline_stays_stopped :
    ∃ compiled c' p₀ part q target l,
      Compilation.compile { names := .empty } Compilation.plainConfig .empty
        (.timeline lampTimeline) none = (.ok compiled, c') ∧
      ({} : Playback).load compiled.graph = .ok p₀ ∧
      p₀.chronicle (lampRequest [.stop]) =
        part ++ [(q, .effect (.timeline target .startIfNotStarted))] ∧
      q.reaches .timeline target.name compiled.graph.carrier ∧
      q.Sole compiled.graph.carrier l ∧ l.holder.status = .stop ∧
      (q.applyOne (.timeline target .startIfNotStarted)).Sole compiled.graph.carrier l := by
  have plays : Compilation.playsAs { names := .empty } Compilation.plainConfig .empty
      (.timeline lampTimeline) none (fun g p =>
        endsInRequest (fun part q name => q.reaches .timeline name g.carrier &&
            (!q.isRunning g.carrier && ticksRunning g.carrier (sinceStart g.carrier part) == 1))
          (p.chronicle (lampRequest [.stop]))) := by
    decide +kernel
  obtain ⟨compiled, c', p₀, compiles, loads, check⟩ := Compilation.exists_of_playsAs plays
  obtain ⟨part, q, target, history, uncut, check⟩ := exists_of_endsInRequest check
  obtain ⟨reached, check⟩ := Bool.and_eq_true_iff.1 check
  obtain ⟨stopped, run⟩ := Bool.and_eq_true_iff.1 check
  have keeps : .unload compiled.graph.carrier ∉ lampRequest [.stop] := by
    simp [lampRequest]
  obtain ⟨l, sole, sole'⟩ :=
    start_if_not_started_law compiles loads keeps (.of_all history uncut) rfl
  rw [if_neg fun h => absurd (h.2.2.symm.trans (beq_iff_eq.1 run)) (by decide)] at sole'
  refine ⟨compiled, c', p₀, part, q, target, l, compiles, loads, history, reached, sole, ?_, sole'⟩
  rw [sole.isRunning] at stopped
  cases status : l.holder.status with
  | stop => rfl
  | start =>
    rw [status] at stopped
    cases stopped

/-- **A timeline that has run may be started** by a request, if it was started over and stopped
behind its last tick. -/
theorem begun_is_started :
    ∃ compiled c' p₀ part q target,
      Compilation.compile { names := .empty } Compilation.plainConfig .empty
        (.timeline lampTimeline) none = (.ok compiled, c') ∧
      ({} : Playback).load compiled.graph = .ok p₀ ∧
      p₀.chronicle (lampRequest [.start, .stop]) =
        part ++ [(q, .effect (.timeline target .startIfNotStarted))] ∧
      (part.all fun x => !x.2.isReset) ∧ ticksRunning compiled.graph.carrier part = 1 ∧
      q.isRunning compiled.graph.carrier = false ∧
      (q.applyOne (.timeline target .startIfNotStarted)).isRunning compiled.graph.carrier := by
  have plays : Compilation.playsAs { names := .empty } Compilation.plainConfig .empty
      (.timeline lampTimeline) none (fun g p =>
        endsInRequest (fun part q name => ticksRunning g.carrier part == 1 &&
            (!q.isRunning g.carrier &&
              (q.change .timeline name (·.changeTimeline .startIfNotStarted)).isRunning g.carrier))
          (p.chronicle (lampRequest [.start, .stop]))) := by
    decide +kernel
  obtain ⟨compiled, c', p₀, compiles, loads, check⟩ := Compilation.exists_of_playsAs plays
  obtain ⟨part, q, target, history, uncut, check⟩ := exists_of_endsInRequest check
  obtain ⟨run, check⟩ := Bool.and_eq_true_iff.1 check
  obtain ⟨stopped, runs⟩ := Bool.and_eq_true_iff.1 check
  exact ⟨compiled, c', p₀, part, q, target, compiles, loads, history, uncut, beq_iff_eq.1 run,
    (Bool.not_eq_true' _).mp stopped, runs⟩

end SceneLogic.Playback
