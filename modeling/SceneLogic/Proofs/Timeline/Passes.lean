/-
Every entry of a timeline is dispatched once in a pass.

A pass of a timeline begins when it is loaded, restored or restarted.  Each tick in which it runs
dispatches the entries in a window of time that ends where the next one begins, so together these
windows make one (`due_append`): by any moment of a pass, exactly the entries up to the time of the
clock have been dispatched, in order (`timeline_dispatches_once`).  What stops and resumes the
timeline in between, and what else is played, makes no difference.
-/
import SceneLogic.Proofs.Compile.Blueprints
import SceneLogic.Proofs.Playback.Impact
import SceneLogic.Proofs.Timeline.Clock
import SceneLogic.Proofs.Timeline.Sorting
namespace SceneLogic

attribute [local irreducible] quantaPerUnit quantaLimit

/-! ### Windows -/

/-- The parts of a sorted list in two windows that meet make the part in both together. -/
theorem filter_windows {α : Type} {rank : α → Int} {xs : List α}
    (sorted : xs.Pairwise fun x y => rank x ≤ rank y) {a b c : Int} (ab : a ≤ b) (bc : b ≤ c) :
    (xs.filter fun x => decide (a < rank x ∧ rank x ≤ b)) ++
        (xs.filter fun x => decide (b < rank x ∧ rank x ≤ c)) =
      xs.filter fun x => decide (a < rank x ∧ rank x ≤ c) := by
  induction xs with
  | nil => rfl
  | cons x xs ih =>
    obtain ⟨least, rest⟩ := List.pairwise_cons.1 sorted
    rw [List.filter_cons, List.filter_cons, List.filter_cons, ← ih rest]
    by_cases early : rank x ≤ b
    · have first : (a < rank x ∧ rank x ≤ b) ↔ (a < rank x ∧ rank x ≤ c) := by omega
      have second : ¬ (b < rank x ∧ rank x ≤ c) := by omega
      simp only [first, second, decide_false, Bool.false_eq_true, if_false]
      split <;> rfl
    · -- All that follows lies behind the first window, too.
      have none : (xs.filter fun y => decide (a < rank y ∧ rank y ≤ b)) = [] := by
        rw [List.filter_eq_nil_iff]
        intro y hy inside
        have := least y hy
        have := of_decide_eq_true inside
        omega
      have first : ¬ (a < rank x ∧ rank x ≤ b) := by omega
      have second : (b < rank x ∧ rank x ≤ c) ↔ (a < rank x ∧ rank x ≤ c) := by omega
      rw [none]
      simp only [first, second, decide_false, Bool.false_eq_true, if_false, List.nil_append]

namespace Timeline

/-- The dispatches of the entries whose times pass a test, under a carrier. -/
def due (t : Timeline) (carrier : String) (isDue : Number → Bool) : List (String × Action) :=
  (t.entries.zipIdx.filter fun (e, _) => isDue e.time.number).map fun (e, i) =>
    (nodeId carrier (Blueprint.dispatchName i), e.action)

/-- The program of a timeline. -/
def program (t : Timeline) (config : Config) (carrier : String) : TimelineProgram where
  ticksPerSecond := config.ticksPerSecond
  lastTime := t.lastTime.number
  schedule := t.entries.zipIdx.map fun (e, i) =>
    ⟨e.time.number, [nodeId carrier (Blueprint.dispatchName i)]⟩

theorem zipIdx_sorted (t : Timeline) :
    t.entries.zipIdx.Pairwise fun x y => x.1.time.seconds.quanta ≤ y.1.time.seconds.quanta := by
  have sorted : (t.entries.zipIdx.map Prod.fst).Pairwise
      fun a b => a.time.seconds.quanta ≤ b.time.seconds.quanta := by
    rw [List.zipIdx_map_fst]
    exact t.sorted
  rw [List.pairwise_map] at sorted
  exact sorted

/-- The scheduled times that pass a test dispatch the entries that are due by it. -/
theorem actionsOf_schedule (t : Timeline) (config : Config) (carrier : String) (kind : Graph.Kind)
    (source script : String) (isDue : Number → Bool) :
    ((Blueprint.timeline config t).graph carrier kind source script).actionsOf
        (((t.program config carrier).schedule.filter fun s => isDue s.time).flatMap
          Scheduled.dispatch) =
      t.due carrier isDue := by
  have nodes : ((t.program config carrier).schedule.filter fun s => isDue s.time).flatMap
      Scheduled.dispatch =
        (t.entries.zipIdx.filter fun x => isDue x.1.time.number).map fun x =>
          nodeId carrier (Blueprint.dispatchName x.2) := by
    rw [program, List.filter_map, List.flatMap_map, List.map_eq_flatMap]
    rfl
  rw [nodes, Graph.actionsOf_map (a := fun x => x.1.action), due]
  intro x hx
  have at_x := List.mk_mem_zipIdx_iff_getElem?.1 (List.mem_of_mem_filter hx)
  rw [Blueprint.action?_graph, Blueprint.timeline_action?, at_x]
  rfl

variable {config : Config} {rate : Scalar}

/-- The entries that are due as the clock goes on. -/
theorem due_isCrossed (t : Timeline) (carrier : String) (pos : 0 < rate.quanta) (m n : Nat) :
    t.due carrier (Loaded.isCrossed (Loaded.clockTime (.scalar rate) (clockTick m))
        (Loaded.clockTime (.scalar rate) (clockTick n))) =
      (t.entries.zipIdx.filter fun x =>
        decide (clockRank rate (tickAfter m) < x.1.time.seconds.quanta ∧
          x.1.time.seconds.quanta ≤ clockRank rate (tickAfter n))).map fun x =>
            (nodeId carrier (Blueprint.dispatchName x.2), x.1.action) := by
  rw [due]
  congr 1
  refine List.filter_congr fun x _ => ?_
  have rank : x.1.time.number.rank = some x.1.time.seconds.quanta := rfl
  show Loaded.isCrossed _ _ x.1.time.number = _
  rw [Loaded.isCrossed, clockTick, clockTick, Number.lt_of_rank (rank_clockTime pos _) rank,
    Number.le_of_rank rank (rank_clockTime pos _), Bool.decide_and]

/-- Windows that meet make one. -/
theorem due_append (t : Timeline) (carrier : String) (pos : 0 < rate.quanta) {k m n : Nat}
    (km : k ≤ m) (mn : m ≤ n) :
    t.due carrier (Loaded.isCrossed (Loaded.clockTime (.scalar rate) (clockTick k))
          (Loaded.clockTime (.scalar rate) (clockTick m))) ++
        t.due carrier (Loaded.isCrossed (Loaded.clockTime (.scalar rate) (clockTick m))
          (Loaded.clockTime (.scalar rate) (clockTick n))) =
      t.due carrier (Loaded.isCrossed (Loaded.clockTime (.scalar rate) (clockTick k))
        (Loaded.clockTime (.scalar rate) (clockTick n))) := by
  rw [due_isCrossed t carrier pos, due_isCrossed t carrier pos, due_isCrossed t carrier pos,
    ← List.map_append, filter_windows t.zipIdx_sorted (clockRank_mono rate (tickAfter_mono km))
      (clockRank_mono rate (tickAfter_mono mn))]

/-- Nothing is due while the clock stands still. -/
theorem due_self (t : Timeline) (carrier : String) (pos : 0 < rate.quanta) (n : Nat) :
    t.due carrier (Loaded.isCrossed (Loaded.clockTime (.scalar rate) (clockTick n))
      (Loaded.clockTime (.scalar rate) (clockTick n))) = [] := by
  rw [due_isCrossed t carrier pos, List.map_eq_nil_iff, List.filter_eq_nil_iff]
  intro x _ inside
  have := of_decide_eq_true inside
  omega

/-- No entry lies before the first tick of the clock. -/
theorem due_first (t : Timeline) (carrier : String) (pos : 0 < rate.quanta) (n : Nat) :
    t.due carrier (Loaded.isCrossed (Loaded.clockTime (.scalar rate) (clockTick 0))
        (Loaded.clockTime (.scalar rate) (clockTick n))) =
      t.due carrier fun time => time.le (Loaded.clockTime (.scalar rate) (clockTick n)) := by
  rw [due, due]
  congr 1
  refine List.filter_congr fun x _ => ?_
  have first : clockRank rate (tickAfter 0) < 0 := clockRank_neg_one pos
  have nonneg : (0 : Int) ≤ x.1.time.seconds.quanta := x.1.time.nonneg
  have rank : x.1.time.number.rank = some x.1.time.seconds.quanta := rfl
  show Loaded.isCrossed _ _ x.1.time.number = x.1.time.number.le _
  rw [Loaded.isCrossed, clockTick, Number.lt_of_rank (rank_clockTime pos _) rank,
    decide_eq_true (by omega), Bool.true_and]

/-- Past the last time every entry has been due. -/
theorem due_lastTime (t : Timeline) (carrier : String) (pos : 0 < rate.quanta) {n : Nat}
    (past : t.lastTime.number.le (Loaded.clockTime (.scalar rate) (clockTick n))) :
    (t.due carrier fun time => time.le (Loaded.clockTime (.scalar rate) (clockTick n))) =
      t.due carrier fun _ => true := by
  have last : t.lastTime.number.rank = some t.lastTime.seconds.quanta := rfl
  have now := rank_clockTime pos (tickAfter n)
  rw [clockTick, Number.le_of_rank last now] at past
  have past := of_decide_eq_true past
  rw [due, due]
  congr 1
  refine List.filter_congr fun x hx => ?_
  have mem : x.1 ∈ t.entries := by
    rw [← List.zipIdx_map_fst 0 t.entries]
    exact List.mem_map_of_mem hx
  have rank : x.1.time.number.rank = some x.1.time.seconds.quanta := rfl
  show x.1.time.number.le _ = true
  rw [clockTick, Number.le_of_rank rank now]
  exact decide_eq_true (Int.le_trans (t.le_lastTime mem) past)

end Timeline

/-! ### Ticks of the clock -/

namespace Loaded

variable {l : Loaded}

theorem evaluate_timeline {P : TimelineProgram} (timeline : l.program = .timeline P)
    (position? : String → Option (Triple Number)) : l.evaluate position? = l.advance P := by
  rw [evaluate, timeline]

theorem advance_stop (h : l.holder.status = .stop) (P : TimelineProgram) :
    l.advance P = (l, []) := by
  rw [advance, h]

/-- A timeline that runs moves its clock, dispatches what this crosses, and stops past its last
time. -/
theorem advance_start (h : l.holder.status = .start) (P : TimelineProgram) :
    (l.advance P).1.memory.tick = l.memory.tick.add 1 ∧
      (l.advance P).2 = (P.schedule.filter fun s =>
        isCrossed (clockTime P.ticksPerSecond l.memory.tick)
          (clockTime P.ticksPerSecond (l.memory.tick.add 1)) s.time).flatMap Scheduled.dispatch ∧
      ((l.advance P).1.holder.status = .stop →
        P.lastTime.le (clockTime P.ticksPerSecond (l.memory.tick.add 1))) := by
  rw [advance, h]
  dsimp only
  split
  · next past => exact ⟨rfl, rfl, fun _ => past⟩
  · refine ⟨rfl, rfl, ?_⟩
    intro stopped
    rw [h] at stopped
    cases stopped

/-- An impact takes the clock of a timeline back to its beginning. -/
def rewoundBy (l : Loaded) : Impact → Bool
  | .change .start => true
  | .change .startIfNotStarted => l.isUnstarted
  | .restore => true
  | _ => false

/-- Rewound, the clock stands before its first tick. -/
theorem tick_of_rewoundBy {impact : Impact} (back : l.rewoundBy impact) :
    (l.meet (some impact)).1.memory.tick = -1 := by
  cases impact with
  | evaluate | click | enable => cases back
  | restore => rfl
  | change c =>
    cases c with
    | start => rfl
    | stop | resume => cases back
    | startIfNotStarted =>
      have unstarted : l.isUnstarted := back
      show (if l.isUnstarted then l.restarted else l).memory.tick = -1
      rw [if_pos unstarted]
      rfl

/-- Without being rewound or evaluated, a timeline keeps its clock and dispatches nothing. -/
theorem tick_of_not_rewoundBy {P : TimelineProgram} (timeline : l.program = .timeline P)
    {impact? : Option Impact} (forth : ¬ impact?.any l.rewoundBy)
    (other : ∀ position?, impact? ≠ some (.evaluate position?)) :
    (l.meet impact?).1.memory.tick = l.memory.tick ∧ (l.meet impact?).2 = [] := by
  cases impact? with
  | none => exact ⟨rfl, rfl⟩
  | some impact =>
    cases impact with
    | evaluate position? => exact absurd rfl (other position?)
    | click =>
      show l.click.1.memory.tick = _ ∧ l.click.2 = _
      rw [click_of_not_link (by rintro P ⟨⟩) ⟨rfl, timeline⟩]
      exact ⟨rfl, rfl⟩
    | enable => exact ⟨rfl, rfl⟩
    | restore => exact absurd rfl forth
    | change c =>
      cases c with
      | start => exact absurd rfl forth
      | stop | resume => exact ⟨rfl, rfl⟩
      | startIfNotStarted =>
        have started : ¬ l.isUnstarted := forth
        refine ⟨?_, rfl⟩
        show (if l.isUnstarted then l.restarted else l).memory.tick = _
        rw [if_neg started]

end Loaded

/-! ### Passes -/

namespace Playback

/-- The ticks of a history that were evaluated while a carrier was running. -/
def ticksRunning (carrier : String) (history : List (Playback × Moment)) : Nat :=
  history.countP fun x => x.2.isEvaluation && x.1.isRunning carrier

/-- A moment takes the clock of a timeline back to its beginning. -/
def rewinds (carrier : String) (x : Playback × Moment) : Bool :=
  match x.2 with
  | .reset => true
  | .effect (.timeline target .start) => x.1.reaches .timeline target.name carrier
  | .effect (.timeline target .startIfNotStarted) =>
    x.1.reaches .timeline target.name carrier &&
      (x.1.find? .timeline target.name).any Loaded.isUnstarted
  | _ => false

variable {q : Playback} {carrier : String} {l : Loaded} {m : Moment}

theorem ticksRunning_append (carrier : String) (h h' : List (Playback × Moment)) :
    ticksRunning carrier (h ++ h') = ticksRunning carrier h + ticksRunning carrier h' :=
  List.countP_append

theorem Sole.ticksRunning_evaluate (sole : q.Sole carrier l)
    (position? : String → Option (Triple Number)) :
    ticksRunning carrier [(q, .evaluate position?)] =
      if l.holder.status = .start then 1 else 0 := by
  rw [ticksRunning, List.countP_singleton, sole.isRunning]
  show (if decide (l.holder.status = .start) = true then 1 else 0) = _
  cases l.holder.status <;> rfl

theorem ticksRunning_other (evaluation : m.isEvaluation = false) :
    ticksRunning carrier [(q, m)] = 0 := by
  rw [ticksRunning, List.countP_singleton]
  dsimp only
  rw [evaluation]
  rfl

/-- A moment rewinds the only graph of a carrier if its impact does. -/
theorem Sole.rewinds_eq (sole : q.Sole carrier l) :
    rewinds carrier (q, m) = (q.impact? carrier m).any l.rewoundBy := by
  cases m with
  | load | unload | evaluate => rfl
  | deliver object =>
    rw [impact?]
    split <;> rfl
  | effect action =>
    cases action with
    | timeline target c =>
      rw [impact?]
      by_cases reached : q.reaches .timeline target.name carrier
      · rw [if_pos reached]
        cases c with
        | start => exact reached
        | stop | resume => rfl
        | startIfNotStarted =>
          show (q.reaches .timeline target.name carrier &&
            (q.find? .timeline target.name).any Loaded.isUnstarted) = l.isUnstarted
          rw [reached, sole.find? reached]
          rfl
      · rw [if_neg reached]
        cases c with
        | start => exact Bool.eq_false_iff.2 reached
        | stop | resume => rfl
        | startIfNotStarted =>
          show (q.reaches .timeline target.name carrier && _) = false
          rw [Bool.eq_false_iff.2 reached]
          rfl
    | event =>
      rw [impact?]
      split <;> rfl
    | link target c =>
      cases c with
      | enable | disable =>
        rw [impact?]
        split <;> rfl
      | activate => rfl
    | move | visibility | sound | group | reset => rfl
  | reset => rfl

/-- Where a moment rewinds, the clock stands before its first tick. -/
theorem Sole.tick_of_rewinds (sole : q.Sole carrier l) (back : rewinds carrier (q, m)) :
    (l.meet (q.impact? carrier m)).1.memory.tick = -1 := by
  rw [sole.rewinds_eq] at back
  obtain ⟨impact, met, back⟩ := (Option.any_eq_true _ _).1 back
  rw [met]
  exact Loaded.tick_of_rewoundBy back

/-- Short of being rewound, a timeline moves its clock in the ticks in which it runs. -/
theorem Sole.tick_step {P : TimelineProgram} {n : Nat} (sole : q.Sole carrier l)
    (timeline : l.program = .timeline P) (forth : ¬ rewinds carrier (q, m))
    (clock : l.memory.tick = clockTick n) :
    (l.meet (q.impact? carrier m)).1.memory.tick =
      clockTick (n + ticksRunning carrier [(q, m)]) := by
  cases evaluation : m.isEvaluation with
  | false =>
    obtain ⟨tick, -⟩ := Loaded.tick_of_not_rewoundBy timeline
      (fun back => forth (sole.rewinds_eq.trans back)) (impact?_ne_evaluate evaluation)
    rw [tick, ticksRunning_other evaluation, clock, Nat.add_zero]
  | true =>
    cases m with
    | evaluate position? =>
      have advanced : l.meet (q.impact? carrier (.evaluate position?)) = l.advance P :=
        Loaded.evaluate_timeline timeline position?
      rw [advanced, sole.ticksRunning_evaluate]
      cases status : l.holder.status with
      | stop =>
        have idle : ¬ Status.stop = .start := by decide
        rw [Loaded.advance_stop status, if_neg idle, clock, Nat.add_zero]
      | start =>
        rw [(Loaded.advance_start status P).1, if_pos rfl, clock, clockTick_add_one]
    | _ => cases evaluation

variable {config : Config} {rate : Scalar} {t : Timeline} {kind : Graph.Kind}
variable {source script : String} {n : Nat}

/-- A moment in a pass moves the clock by the ticks in it and dispatches what is due between. -/
theorem Sole.pass_step (sole : q.Sole carrier l)
    (plays : l.Plays ((Blueprint.timeline config t).graph carrier kind source script)
      (.timeline (t.program config carrier)))
    (at_rate : config.ticksPerSecond = .scalar rate) (pos : 0 < rate.quanta)
    (own : m ≠ .unload carrier) (forth : ¬ rewinds carrier (q, m))
    (clock : l.memory.tick = clockTick n) :
    (l.meet (q.impact? carrier m)).1.memory.tick =
        clockTick (n + ticksRunning carrier [(q, m)]) ∧
      dispatches carrier [(q, m)] =
        t.due carrier (Loaded.isCrossed (Loaded.clockTime (.scalar rate) (clockTick n))
          (Loaded.clockTime (.scalar rate)
            (clockTick (n + ticksRunning carrier [(q, m)])))) := by
  refine ⟨sole.tick_step plays.2 forth clock, ?_⟩
  rw [(sole.happen own).2, plays.1]
  cases evaluation : m.isEvaluation with
  | false =>
    -- The clock stands still, and between a time and itself nothing is due.
    obtain ⟨-, silent⟩ := Loaded.tick_of_not_rewoundBy plays.2
      (fun back => forth (sole.rewinds_eq.trans back)) (impact?_ne_evaluate evaluation)
    rw [silent, ticksRunning_other evaluation, Nat.add_zero, t.due_self carrier pos]
    rfl
  | true =>
    cases m with
    | evaluate position? =>
      have advanced : l.meet (q.impact? carrier (.evaluate position?)) =
          l.advance (t.program config carrier) := Loaded.evaluate_timeline plays.2 position?
      rw [advanced, sole.ticksRunning_evaluate]
      cases status : l.holder.status with
      | stop =>
        have idle : ¬ Status.stop = .start := by decide
        rw [Loaded.advance_stop status, if_neg idle, Nat.add_zero, t.due_self carrier pos]
        rfl
      | start =>
        obtain ⟨-, nodes, -⟩ := Loaded.advance_start status (t.program config carrier)
        rw [nodes, if_pos rfl, t.actionsOf_schedule, clock, clockTick_add_one]
        show t.due carrier (Loaded.isCrossed (Loaded.clockTime config.ticksPerSecond _)
          (Loaded.clockTime config.ticksPerSecond _)) = _
        rw [at_rate]
    | _ => cases evaluation

/-- The moments of a pass together move the clock and dispatch as one. -/
theorem Sole.pass_run (sole : q.Sole carrier l)
    (plays : l.Plays ((Blueprint.timeline config t).graph carrier kind source script)
      (.timeline (t.program config carrier)))
    (at_rate : config.ticksPerSecond = .scalar rate) (pos : 0 < rate.quanta)
    (clock : l.memory.tick = clockTick 0) {ms : List Moment} (keeps : .unload carrier ∉ ms)
    (uncut : ∀ x ∈ q.trail ms, ¬ rewinds carrier x) :
    ∃ l', (q.after ms).Sole carrier l' ∧
      l'.Plays ((Blueprint.timeline config t).graph carrier kind source script)
        (.timeline (t.program config carrier)) ∧
      l'.memory.tick = clockTick (ticksRunning carrier (q.trail ms)) ∧
      dispatches carrier (q.trail ms) =
        t.due carrier (Loaded.isCrossed (Loaded.clockTime (.scalar rate) (clockTick 0))
          (Loaded.clockTime (.scalar rate)
            (clockTick (ticksRunning carrier (q.trail ms))))) := by
  refine sole.run
    (I := fun l' h => l'.memory.tick = clockTick (ticksRunning carrier h) ∧
      dispatches carrier h =
        t.due carrier (Loaded.isCrossed (Loaded.clockTime (.scalar rate) (clockTick 0))
          (Loaded.clockTime (.scalar rate) (clockTick (ticksRunning carrier h)))))
    (fun q l' m h sole' plays' own forth so_far => ?_) plays
    ⟨clock, (t.due_self carrier pos 0).symm⟩ keeps uncut
  -- The window of the moment begins where that of the history so far ends.
  obtain ⟨tick, made⟩ := so_far
  obtain ⟨tick', last⟩ := sole'.pass_step plays' at_rate pos own forth tick
  rw [ticksRunning_append, dispatches_append, made, last]
  exact ⟨tick', t.due_append carrier pos (Nat.zero_le _) (Nat.le_add_right _ _)⟩

/-- A tick in which a carrier that was running stops by itself. -/
def stopsItself (carrier : String) (x : Playback × Moment) : Bool :=
  x.2.isEvaluation && x.1.isRunning carrier && !(x.1.happen x.2).1.isRunning carrier

/-- A timeline stops by itself in an evaluation that takes its clock past the last time. -/
theorem Sole.past_lastTime (sole : q.Sole carrier l)
    (plays : l.Plays ((Blueprint.timeline config t).graph carrier kind source script)
      (.timeline (t.program config carrier)))
    (stops : stopsItself carrier (q, m)) :
    m ≠ .unload carrier ∧ ¬ rewinds carrier (q, m) ∧ ticksRunning carrier [(q, m)] = 1 ∧
      t.lastTime.number.le (Loaded.clockTime config.ticksPerSecond (l.memory.tick.add 1)) := by
  obtain ⟨running, stopped⟩ := Bool.and_eq_true_iff.1 stops
  obtain ⟨evaluation, running⟩ := Bool.and_eq_true_iff.1 running
  cases m with
  | evaluate position? =>
    have start : l.holder.status = .start := by
      rw [sole.isRunning] at running
      exact of_decide_eq_true running
    have advanced := Loaded.evaluate_timeline plays.2 position?
    have stop : (l.advance (t.program config carrier)).1.holder.status = .stop := by
      rw [(sole.evaluate position?).1.isRunning, advanced] at stopped
      cases status : (l.advance (t.program config carrier)).1.holder.status with
      | start =>
        rw [status] at stopped
        cases stopped
      | stop => rfl
    refine ⟨by rintro ⟨⟩, Bool.false_ne_true, ?_, (Loaded.advance_start start _).2.2 stop⟩
    rw [sole.ticksRunning_evaluate, if_pos start]
  | _ => cases evaluation

/-- **Every entry of a timeline is dispatched once in a pass.**  By any moment of a pass the
dispatches made in it are those of the entries up to the time of the clock, in order, where the
clock has come as far as the timeline was running in the pass; a tick in which the timeline stops
by itself has none of them outstanding. -/
theorem timeline_dispatches_once {c c' : Compilation} {config : Config} {scene : Scene}
    {t : Timeline} {object : Option String} {compiled : Compiled} {p p₀ : Playback}
    {commands : List Command} {before part rest : List (Playback × Moment)}
    (rate : config.ticksPerSecond.isWhole ∧ Number.lt 0 config.ticksPerSecond)
    (compiles : c.compile config scene (.timeline t) object = (.ok compiled, c'))
    (loads : p.load compiled.graph = .ok p₀)
    (keeps : .unload compiled.graph.carrier ∉ commands)
    (pass : Stretch (rewinds compiled.graph.carrier) (p₀.chronicle commands) before part rest) :
    (dispatches compiled.graph.carrier part =
      t.due compiled.graph.carrier fun time =>
        time.le (Loaded.clockTime config.ticksPerSecond
          (clockTick (ticksRunning compiled.graph.carrier part)))) ∧
    ∀ x ∈ rest.head?, stopsItself compiled.graph.carrier x →
      dispatches compiled.graph.carrier (part ++ [x]) =
        t.due compiled.graph.carrier fun _ => true := by
  obtain ⟨carrier, script, graph⟩ := Compilation.compile_timeline compiles
  obtain ⟨scalar, at_rate, pos⟩ := Number.exists_scalar_of_rate rate
  have named : compiled.graph.carrier = carrier := congrArg Graph.carrier graph
  rw [named] at keeps pass ⊢
  rw [graph] at loads named
  have loaded : ∀ l, Loaded.ofGraph ((Blueprint.timeline config t).graph carrier .timeline
      t.name.text script) = .ok l → l.memory.tick = clockTick 0 := by
    intro l made
    obtain ⟨_, -, rfl⟩ := Loaded.ofGraph_eq_ok made
    exact clockTick_zero.symm
  -- The pass is a trail that begins with the clock before its first tick.
  obtain ⟨q, ms, ms', l, rfl, rfl, keeps, sole, plays, tick⟩ :=
    exists_trail_of_stretch loads
      (Blueprint.timeline_program config t carrier t.name.text script) named keeps pass loaded
      fun q l m sole _ back => (sole.tick_of_rewinds back).trans clockTick_zero.symm
  have keeps₁ : .unload carrier ∉ ms := fun h => keeps (List.mem_append_left _ h)
  obtain ⟨l', sole', plays', clock, made⟩ := sole.pass_run plays at_rate pos tick keeps₁ pass.uncut
  constructor
  · rw [at_rate, made, t.due_first carrier pos]
  · intro x hx stops
    cases ms' with
    | nil => cases hx
    | cons m ms' =>
      cases Option.some_inj.1 hx
      -- The tick extends the window of the pass by its own, to a time past the last one.
      obtain ⟨own, forth, one, past⟩ := sole'.past_lastTime plays' stops
      obtain ⟨-, last⟩ := sole'.pass_step plays' at_rate pos own forth clock
      rw [at_rate, clock, clockTick_add_one] at past
      rw [one] at last
      rw [dispatches_append, made, last,
        t.due_append carrier pos (Nat.zero_le _) (Nat.le_succ _), t.due_first carrier pos]
      exact t.due_lastTime carrier pos past

/-- A lamp that is lit at once and put out after a second. -/
def lampTimeline : Timeline :=
  ((Timeline.empty ⟨"evening", by decide⟩ true).place
    ⟨(Span.ofNumber? 1).getD 0, .visibility ⟨"lamp", by decide⟩ false 0⟩).place
      ⟨0, .visibility ⟨"lamp", by decide⟩ true 0⟩

/-- Two ticks, between which the lamp is stopped and resumed. -/
def lampCommands : List Command :=
  [.tick fun _ => none,
    .apply [.timeline ⟨"evening", by decide⟩ .stop, .timeline ⟨"evening", by decide⟩ .resume],
    .tick fun _ => none]

/-- The first four moments of this and the fifth, in which the lamp stops by itself. -/
theorem lampTimeline_dispatches_once :
    ∃ compiled c' p₀,
      Compilation.compile { names := .empty } Compilation.plainConfig .empty
        (.timeline lampTimeline) none = (.ok compiled, c') ∧
      ({} : Playback).load compiled.graph = .ok p₀ ∧
      (dispatches compiled.graph.carrier ((p₀.chronicle lampCommands).take 4) =
        lampTimeline.due compiled.graph.carrier fun time =>
          time.le (Loaded.clockTime Compilation.plainConfig.ticksPerSecond
            (clockTick (ticksRunning compiled.graph.carrier
              ((p₀.chronicle lampCommands).take 4))))) ∧
      ∃ x ∈ ((p₀.chronicle lampCommands).drop 4).head?,
        stopsItself compiled.graph.carrier x ∧
        dispatches compiled.graph.carrier ((p₀.chronicle lampCommands).take 4 ++ [x]) =
          lampTimeline.due compiled.graph.carrier fun _ => true := by
  have plays : Compilation.playsAs { names := .empty } Compilation.plainConfig .empty
      (.timeline lampTimeline) none (fun g p =>
        ((p.chronicle lampCommands).take 4).all (fun x => !rewinds g.carrier x) &&
          ((p.chronicle lampCommands).drop 4).head?.any (stopsItself g.carrier)) := by
    decide +kernel
  obtain ⟨compiled, c', p₀, compiles, loads, check⟩ := Compilation.exists_of_playsAs plays
  obtain ⟨uncut, stops⟩ := Bool.and_eq_true_iff.1 check
  obtain ⟨x, hx, stops⟩ := (Option.any_eq_true _ _).1 stops
  have pass : Stretch (rewinds compiled.graph.carrier) (p₀.chronicle lampCommands) []
      ((p₀.chronicle lampCommands).take 4) ((p₀.chronicle lampCommands).drop 4) :=
    .of_all (List.take_append_drop 4 _).symm uncut
  have keeps : .unload compiled.graph.carrier ∉ lampCommands := by
    simp [lampCommands]
  obtain ⟨dispatched, stopped⟩ :=
    timeline_dispatches_once (by decide +kernel) compiles loads keeps pass
  exact ⟨compiled, c', p₀, compiles, loads, dispatched, x, hx, stops, stopped x hx stops⟩

end Playback

end SceneLogic
