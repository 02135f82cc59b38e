/-
What becomes of a trigger or a link.

A region trigger and a link go through the same life: they wait, fire and hold.  `Loaded.Turn` lists
all that an impact can do to one of them, and `Loaded.turn` says that nothing else happens.  So a
graph begins to run exactly as it fires (`Loaded.Turn.fired`), and dispatches nothing but what it
fires (`Loaded.Turn.silent`).

`Graph.IsTrigger` collects what is known of the graph of a compiled trigger or link, and
`Graph.IsTrigger.meets` carries an invariant of one through all of playback.
-/
import SceneLogic.Proofs.Link.Clicks
namespace SceneLogic

attribute [local irreducible] quantaPerUnit quantaLimit

/-! ### What fires -/

theorem ClickBinding.mem_of_forClick? {bindings : List ClickBinding} {click : Number}
    {b : ClickBinding} (found : forClick? bindings click = some b) : b ∈ bindings := by
  rw [forClick?, Option.or_eq_some_iff] at found
  rcases found with found | ⟨-, found⟩
  · exact List.mem_of_find?_eq_some found
  · exact List.mem_of_find?_eq_some found

namespace Program

/-- Whether what is played stays enabled when it fires; a timeline does not fire. -/
def remainEnabled? : Program → Option Bool
  | .timeline _ => none
  | .region p => some p.remainEnabled
  | .link p => some p.remainEnabled

/-- The ticks for which something is sustained or held. -/
def tickCounts : Program → List Number
  | .timeline _ => []
  | .region p => [p.sustainTicks, p.activeTicks]
  | .link p => p.bindings.map ClickBinding.activeTicks

/-- Some nodes are fired together, to hold for some ticks. -/
def Fires : Program → List String → Number → Prop
  | .timeline _, _, _ => False
  | .region p, nodes, ticks => nodes = p.dispatch ∧ ticks = p.activeTicks
  | .link p, nodes, ticks =>
    ∃ click b, ClickBinding.forClick? p.bindings click = some b ∧ nodes = b.dispatch ∧
      ticks = b.activeTicks

theorem Fires.mem_tickCounts {P : Program} {nodes : List String} {ticks : Number}
    (fires : P.Fires nodes ticks) : ticks ∈ P.tickCounts := by
  cases P with
  | timeline p => cases fires
  | region p =>
    obtain ⟨-, rfl⟩ := fires
    exact List.mem_cons_of_mem _ (List.mem_singleton_self _)
  | link p =>
    obtain ⟨click, b, found, -, rfl⟩ := fires
    exact List.mem_map_of_mem (ClickBinding.mem_of_forClick? found)

end Program

/-! ### Turns -/

namespace Loaded

variable {l l' : Loaded} {P : Program} {i : Option Impact} {nodes : List String}

section Parts

variable (l : Loaded) (ticks : Number) (remainEnabled : Bool)

@[simp] theorem fire_status : (l.fire ticks remainEnabled).holder.status = .start := by
  cases remainEnabled <;> rfl

@[simp] theorem fire_active :
    (l.fire ticks remainEnabled).memory.active = (1 : Number).max ticks := by
  cases remainEnabled <;> rfl

@[simp] theorem fire_held : (l.fire ticks remainEnabled).memory.held = l.memory.held := by
  cases remainEnabled <;> rfl

@[simp] theorem fire_clicks : (l.fire ticks remainEnabled).holder.clicks = l.holder.clicks := by
  cases remainEnabled <;> rfl

theorem fire_enabled (enabled : l.holder.enabled = some true) :
    (l.fire ticks remainEnabled).holder.enabled = some remainEnabled := by
  cases remainEnabled
  · rfl
  · exact enabled

@[simp] theorem countDown_enabled : l.countDown.holder.enabled = l.holder.enabled := by
  simp only [countDown]
  split <;> rfl

@[simp] theorem countDown_held : l.countDown.memory.held = l.memory.held := by
  simp only [countDown]
  split <;> rfl

@[simp] theorem countDown_active : l.countDown.memory.active = l.memory.active.sub 1 := by
  simp only [countDown]
  split <;> rfl

/-- A hold ends when there is nothing left of it. -/
theorem countDown_status :
    l.countDown.holder.status =
      if (l.memory.active.sub 1).le 0 then .stop else l.holder.status := by
  simp only [countDown]
  split <;> rfl

end Parts

/-- What a trigger or a link takes down before it fires or not: the ticks in a row in which it has
sensed something, or the clicks that it has counted. -/
inductive Noted (P : Program) (l : Loaded) : Loaded → Prop
  | nothing : Noted P l l
  | unsensed : Noted P l { l with memory := { l.memory with held := 0 } }
  | sensed {p : RegionProgram} (region : P = .region p)
      (short : (l.memory.held.add 1).lt p.sustainTicks) :
      Noted P l { l with memory := { l.memory with held := l.memory.held.add 1 } }
  | clicked {p : LinkProgram} (link : P = .link p) :
      Noted P l { l with holder := { l.holder with
        clicks := some (advanceClicks (l.holder.clicks.getD 0) p.reset).count } }

/-- Notes are all that changes. -/
theorem Noted.frame (noted : Noted P l l') :
    l'.holder.status = l.holder.status ∧ l'.memory.active = l.memory.active ∧
      l'.holder.enabled = l.holder.enabled := by
  cases noted <;> exact ⟨rfl, rfl, rfl⟩

/-- What becomes of a trigger or a link under an impact, with the nodes to dispatch. -/
inductive Turn (P : Program) (l : Loaded) : Option Impact → Loaded → List String → Prop
  /-- It waits, or is not concerned. -/
  | rest {i : Option Impact} {l' : Loaded}
      (idle : ∀ position?, i = some (.evaluate position?) → l.holder.status = .stop)
      (noted : Noted P l l') : Turn P l i l' []
  /-- A tick of its hold. -/
  | count {position? : String → Option (Triple Number)} (running : l.holder.status = .start) :
      Turn P l (some (.evaluate position?)) l.countDown []
  | fire {i : Option Impact} {l' : Loaded} {nodes : List String} {ticks : Number}
      {remainEnabled : Bool} (stopped : l.holder.status = .stop)
      (enabled : l.holder.enabled = some true) (noted : Noted P l l')
      (remains : P.remainEnabled? = some remainEnabled) (fires : P.Fires nodes ticks) :
      Turn P l i (l'.fire ticks remainEnabled) nodes
  | switch (enabled : Bool) : Turn P l (some (.enable enabled)) (l.withEnabled enabled) []
  | restore : Turn P l (some .restore) l.restored []

theorem turn_evaluate_region {p : RegionProgram} (region : l.program = .region p)
    (position? : String → Option (Triple Number)) :
    Turn (.region p) l (some (.evaluate position?)) (l.evaluate position?).1
      (l.evaluate position?).2 := by
  rw [evaluate, region]
  dsimp only
  cases status : l.holder.status with
  | start => exact .count status
  | stop =>
    dsimp only
    cases detected : (l.holder.enabled = some true && p.test.detects position? : Bool) with
    | false => exact .rest (fun _ _ => status) .unsensed
    | true =>
      have enabled : l.holder.enabled = some true :=
        of_decide_eq_true (Bool.and_eq_true_iff.1 detected).1
      simp only [sense, Bool.not_true, Bool.false_eq_true, if_false]
      split
      · next short => exact .rest (fun _ _ => status) (.sensed rfl short)
      · exact .fire status enabled .unsensed rfl ⟨rfl, rfl⟩

theorem turn_evaluate_link {p : LinkProgram} (link : l.program = .link p)
    (position? : String → Option (Triple Number)) :
    Turn (.link p) l (some (.evaluate position?)) (l.evaluate position?).1
      (l.evaluate position?).2 := by
  rw [evaluate, link]
  dsimp only
  cases status : l.holder.status with
  | start => exact .count status
  | stop => exact .rest (fun _ _ => status) .nothing

theorem turn_click {p : LinkProgram} (link : l.program = .link p) :
    Turn (.link p) l (some .click) l.click.1 l.click.2 := by
  have unseen : ∀ position?, some Impact.click = some (.evaluate position?) →
      l.holder.status = .stop := by
    rintro position? ⟨⟩
  by_cases takes : l.takesClicks
  · rw [click_of_takesClicks link takes]
    obtain ⟨enabled, stopped⟩ := Bool.and_eq_true_iff.1 takes
    simp only [countClick]
    cases found : ClickBinding.forClick? p.bindings
        (advanceClicks (l.holder.clicks.getD 0) p.reset).click with
    | none => exact .rest unseen (.clicked rfl)
    | some b =>
      dsimp only
      split
      · exact .rest unseen (.clicked rfl)
      · exact .fire (of_decide_eq_true stopped) (of_decide_eq_true enabled) (.clicked rfl) rfl
          ⟨_, b, found, rfl, rfl⟩
  · rw [click_of_not_takesClicks takes]
    exact .rest unseen .nothing

/-- **All that can become of a trigger or a link.** -/
theorem turn {g : Graph} (plays : l.Plays g P) (untimed : ∀ t, P ≠ .timeline t)
    (unchanged : ∀ c, i ≠ some (.change c)) : Turn P l i (l.meet i).1 (l.meet i).2 := by
  have unseen : ∀ {j : Option Impact}, (∀ position?, j ≠ some (.evaluate position?)) →
      Turn P l j l [] := fun other => .rest (fun position? h => absurd h (other position?)) .nothing
  cases i with
  | none => exact unseen (by rintro position? ⟨⟩)
  | some i =>
    cases i with
    | evaluate position? =>
      cases P with
      | timeline t => exact absurd rfl (untimed t)
      | region p => exact turn_evaluate_region plays.2 position?
      | link p => exact turn_evaluate_link plays.2 position?
    | click =>
      cases P with
      | timeline t => exact absurd rfl (untimed t)
      | region p =>
        show Turn _ l _ l.click.1 l.click.2
        rw [click_of_not_link (by rintro p ⟨⟩) plays]
        exact unseen (by rintro position? ⟨⟩)
      | link p => exact turn_click plays.2
    | change c => exact absurd rfl (unchanged c)
    | enable enabled => exact .switch enabled
    | restore => exact .restore

/-- A trigger or a link that begins to run has fired: it was enabled, and it holds for the ticks of
what it fires. -/
theorem Turn.fired (turn : Turn P l i l' nodes) (initial : l.graph.initialHolder.status = .stop)
    (stopped : l.holder.status = .stop) (running : l'.holder.status = .start) :
    ∃ ticks remainEnabled, l.holder.enabled = some true ∧ P.remainEnabled? = some remainEnabled ∧
      P.Fires nodes ticks ∧ l'.memory.active = (1 : Number).max ticks ∧
      l'.holder.enabled = some remainEnabled := by
  cases turn with
  | rest idle noted =>
    rw [noted.frame.1, stopped] at running
    cases running
  | count running' =>
    rw [stopped] at running'
    cases running'
  | fire _ enabled noted remains fires =>
    exact ⟨_, _, enabled, remains, fires, fire_active _ _ _,
      fire_enabled _ _ _ (noted.frame.2.2.trans enabled)⟩
  | switch enabled =>
    have still : l.holder.status = .start := running
    rw [stopped] at still
    cases still
  | restore =>
    have again : l.graph.initialHolder.status = .start := running
    rw [initial] at again
    cases again

/-- A trigger or a link that does not begin to run dispatches nothing. -/
theorem Turn.silent (turn : Turn P l i l' nodes)
    (still : l.holder.status = .stop → l'.holder.status = .stop) : nodes = [] := by
  cases turn with
  | fire stopped _ _ _ _ =>
    have stays := still stopped
    rw [fire_status] at stays
    cases stays
  | _ => rfl

end Loaded

/-! ### Compiled triggers and links -/

/-- What is known of the graph of a compiled trigger or link. -/
structure Graph.IsTrigger (config : Config) (g : Graph) (P : Program) : Prop where
  kind : g.kind ≠ .timeline
  program : g.program = .ok P
  untimed : ∀ t, P ≠ .timeline t
  stopped : g.initialHolder.status = .stop
  /-- No click is counted yet, and the counter wraps at an integer. -/
  counts : ∀ p, P = .link p → g.initialHolder.clicks = some 0 ∧
    ∃ r : Int, p.reset.rank = some (r * quantaPerUnit)
  /-- A finite number of ticks is a whole number. -/
  whole : ∀ ticks ∈ P.tickCounts, ticks.isFinite →
    ticks.quanta? = some (ticks.units * quantaPerUnit)
  /-- What is fired holds for as long as its actions take. -/
  holds : ∀ nodes ticks, P.Fires nodes ticks →
    ∃ actions, g.Carries nodes actions ∧ ticks = Blueprint.holdTicks config actions

namespace Blueprint

variable (config : Config) (carrier source script : String)

theorem region_isTrigger (t : RegionTrigger) (tracked : List String) :
    ∃ P, ((region config t tracked).graph carrier .region source script).IsTrigger config P ∧
      P.remainEnabled? = some t.remainEnabled := by
  refine ⟨_, ⟨by rintro ⟨⟩, region_program config t tracked carrier source script,
    by rintro p ⟨⟩, rfl, by rintro p ⟨⟩, ?_, ?_⟩, rfl⟩
  · intro ticks mem finite
    rcases List.mem_cons.1 mem with rfl | mem
    · exact Number.quanta?_secondsToTicks finite
    · rw [List.mem_singleton.1 mem] at finite ⊢
      exact Number.quanta?_secondsToTicks finite
  · rintro nodes ticks ⟨rfl, rfl⟩
    exact ⟨t.actions, region_carries config carrier .region source script t tracked, rfl⟩

theorem link_isTrigger (l : ClickLink) (object : String) :
    ∃ P, ((link config carrier l object).graph carrier .link source script).IsTrigger config P ∧
      P.remainEnabled? = some l.remainEnabled := by
  have bound := (link_bindings config carrier l object .link source script).flip
  refine ⟨_, ⟨by rintro ⟨⟩, link_program config carrier l object source script, by rintro p ⟨⟩,
    rfl, ?_, ?_, ?_⟩, rfl⟩
  · rintro p ⟨⟩
    exact ⟨rfl, l.resetCount, l.rank_resetNumber⟩
  · intro ticks mem finite
    obtain ⟨b, own, rfl⟩ := List.mem_map.1 mem
    obtain ⟨e, -, -, ticks⟩ := exists_of_forall₂ bound own
    rw [ticks] at finite ⊢
    exact Number.quanta?_secondsToTicks finite
  · rintro nodes ticks ⟨click, b, found, rfl, rfl⟩
    obtain ⟨e, -, dispatched, ticks⟩ :=
      exists_of_forall₂ bound (ClickBinding.mem_of_forClick? found)
    exact ⟨e.2, dispatched.2, ticks⟩

end Blueprint

/-- Whether a record stays enabled when it fires; a timeline does not fire. -/
def Record.remainEnabled? : Record → Option Bool
  | .timeline _ => none
  | .region t => some t.remainEnabled
  | .link l => some l.remainEnabled

theorem Compilation.isTrigger {c c' : Compilation} {config : Config} {scene : Scene}
    {record : Record} {object : Option String} {compiled : Compiled}
    (compiles : c.compile config scene record object = (.ok compiled, c'))
    (untimed : ∀ t, record ≠ .timeline t) :
    ∃ P, compiled.graph.IsTrigger config P ∧ P.remainEnabled? = record.remainEnabled? := by
  cases record with
  | timeline t => exact absurd rfl (untimed t)
  | region t =>
    obtain ⟨carrier, script, tracked, -, graph⟩ := compile_region compiles
    rw [graph]
    exact Blueprint.region_isTrigger config carrier _ script t tracked
  | link l =>
    obtain ⟨target, script, -, graph⟩ := compile_link compiles
    rw [graph]
    exact Blueprint.link_isTrigger config _ _ script l target.name

/-! ### Triggers and links in playback -/

namespace Playback

/-- A carrier that was not running runs after a moment. -/
def starts (carrier : String) (x : Playback × Moment) : Bool :=
  !x.1.isRunning carrier && (x.1.happen x.2).1.isRunning carrier

variable {p p₀ q : Playback} {carrier : String} {g : Graph} {P : Program} {l l' : Loaded}
variable {config : Config} {m : Moment}

theorem Sole.starts_iff (sole : q.Sole carrier l) (sole' : (q.happen m).1.Sole carrier l') :
    starts carrier (q, m) ↔ l.holder.status = .stop ∧ l'.holder.status = .start := by
  rw [starts, sole.isRunning, sole'.isRunning]
  cases l.holder.status <;> simp

theorem impact?_eq_restore (h : q.impact? carrier m = some .restore) : m = .reset := by
  unfold impact? at h
  split at h
  case h_7 => rfl
  all_goals first | cases h | (split at h <;> cases h)

/-- Nothing changes a trigger or a link as a timeline. -/
theorem Sole.impact?_ne_change (sole : q.Sole carrier l) (untimed : l.graph.kind ≠ .timeline)
    (c : TimelineChange) : q.impact? carrier m ≠ some (.change c) := by
  intro h
  unfold impact? at h
  split at h
  case h_3 =>
    split at h
    · next reached => exact untimed (sole.kind_of_reaches reached)
    · cases h
  all_goals first | cases h | (split at h <;> cases h)

theorem Sole.turn (sole : q.Sole carrier l) (plays : l.Plays g P) (trigger : g.IsTrigger config P) :
    Loaded.Turn P l (q.impact? carrier m) (l.meet (q.impact? carrier m)).1
      (l.meet (q.impact? carrier m)).2 :=
  Loaded.turn plays trigger.untimed
    (sole.impact?_ne_change fun kind => trigger.kind (plays.1 ▸ kind))

/-- The only graph of a carrier begins to run by firing. -/
theorem Sole.fired (sole : q.Sole carrier l) (plays : l.Plays g P)
    (trigger : g.IsTrigger config P) (own : m ≠ .unload carrier) (start : starts carrier (q, m)) :
    ∃ ticks remainEnabled, l.holder.enabled = some true ∧ P.remainEnabled? = some remainEnabled ∧
      P.Fires (l.meet (q.impact? carrier m)).2 ticks ∧
      (l.meet (q.impact? carrier m)).1.holder.status = .start ∧
      (l.meet (q.impact? carrier m)).1.memory.active = (1 : Number).max ticks ∧
      (l.meet (q.impact? carrier m)).1.holder.enabled = some remainEnabled := by
  obtain ⟨stopped, running⟩ := (sole.starts_iff (sole.happen own).1).1 start
  obtain ⟨ticks, remainEnabled, enabled, remains, fires, active, enabled'⟩ :=
    (sole.turn (m := m) plays trigger).fired (plays.1 ▸ trigger.stopped) stopped running
  exact ⟨ticks, remainEnabled, enabled, remains, fires, running, active, enabled'⟩

/-- A moment in which the only graph of a carrier does not begin to run dispatches nothing of it. -/
theorem Sole.silent (sole : q.Sole carrier l) (plays : l.Plays g P)
    (trigger : g.IsTrigger config P) (own : m ≠ .unload carrier)
    (still : ¬ starts carrier (q, m)) : dispatches carrier [(q, m)] = [] := by
  obtain ⟨sole', dispatched⟩ := sole.happen own
  have none := (sole.turn (m := m) plays trigger).silent fun stopped => by
    cases status : (l.meet (q.impact? carrier m)).1.holder.status with
    | stop => rfl
    | start => exact absurd ((sole.starts_iff sole').2 ⟨stopped, status⟩) still
  rw [dispatched, none]
  rfl

end Playback

/-- **Invariants of a trigger or a link.**  What is true of its graph as it is loaded, and is kept
by every turn, is true of the graph that a moment of a chronicle meets; the moments that follow are
a trail from there. -/
theorem Graph.IsTrigger.meets {config : Config} {g : Graph} {P : Program} {p p₀ : Playback}
    {commands : List Command} {I : Loaded → Prop} (trigger : g.IsTrigger config P)
    (loads : p.load g = .ok p₀) (keeps : .unload g.carrier ∉ commands)
    (loaded : ∀ l, Loaded.ofGraph g = .ok l → I l)
    (step : ∀ l i, l.Plays g P → Loaded.Turn P l i (l.meet i).1 (l.meet i).2 → I l →
      I (l.meet i).1)
    {before rest : List (Playback × Moment)} {x : Playback × Moment}
    (split : p₀.chronicle commands = before ++ x :: rest) :
    ∃ l ms, x.1.Sole g.carrier l ∧ l.Plays g P ∧ I l ∧ x.2 ≠ .unload g.carrier ∧
      rest = (x.1.happen x.2).1.trail ms ∧ .unload g.carrier ∉ ms := by
  obtain ⟨l₀, made, sole₀, plays₀⟩ := Playback.exists_sole_of_load loads trigger.program
  obtain ⟨ms, whole, unloaded⟩ := p₀.chronicle_eq_trail commands
  rw [whole] at split
  exact sole₀.met (fun _ => false) (I := fun l _ => I l)
    (fun q l m _ sole plays _ _ holds => step l _ plays (sole.turn plays trigger) holds)
    plays₀ (loaded l₀ made) (fun h => keeps (unloaded _ h)) split fun _ _ => Bool.false_ne_true

end SceneLogic
