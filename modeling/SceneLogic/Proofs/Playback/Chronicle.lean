/-
Chronicles: what happens in playback, moment by moment.

A command is carried out in moments.  A tick evaluates the loaded graphs, delivers the clicks that
were queued, applies the actions that were dispatched one after the other and at last resets, if
one of them asks for it; the other commands consist of parts of this.  `perform_eq` says that a
command does what its moments do, so the history of a whole run of commands (`chronicle`) is a
trail of moments, each with the playback that it meets.

A stretch is a part of a history that reaches back to a cut, or to the beginning, and has no cut
in it.
-/
import SceneLogic.Playback.Basic
namespace SceneLogic

/-! ### Commands -/

/-- What can be asked of a playback. -/
inductive Command where
  | load (g : Graph)
  | unload (carrier : String)
  /-- A tick, with the positions of objects at that time. -/
  | tick (position? : String → Option (Triple Number))
  | click (object : String)
  | apply (actions : List Action)
  | reset

/-- A part of carrying out a command. -/
inductive Moment where
  | load (g : Graph)
  | unload (carrier : String)
  /-- The evaluation of all loaded graphs in a tick. -/
  | evaluate (position? : String → Option (Triple Number))
  /-- A click that reaches an object, whether it was queued or not. -/
  | deliver (object : String)
  | effect (action : Action)
  | reset

/-- The evaluation in a tick. -/
def Moment.isEvaluation : Moment → Bool
  | evaluate _ => true
  | _ => false

/-- A reset of everything. -/
def Moment.isReset : Moment → Bool
  | reset => true
  | _ => false

theorem Moment.isReset_iff {m : Moment} : m.isReset ↔ m = reset := by
  cases m <;> simp [isReset]

namespace Playback

/-- Loads a graph if that is possible. -/
def tryLoad (p : Playback) (g : Graph) : Playback :=
  match p.load g with
  | .ok loaded => loaded
  | .error _ => p

/-- Carries out a command, with the events that are reported. -/
def perform (p : Playback) : Command → Playback × List Event
  | .load g => (p.tryLoad g, [])
  | .unload carrier => (p.unload carrier, [])
  | .tick position? => ((p.tick position?).1, (p.tick position?).2.events)
  | .click object => ((p.click object).2.1, (p.click object).2.2.events)
  | .apply actions => (p.apply actions, [])
  | .reset => (p.reset, [])

/-- What a moment does. -/
def happen (p : Playback) : Moment → Playback × List Event
  | .load g => (p.tryLoad g, [])
  | .unload carrier => (p.unload carrier, [])
  | .evaluate position? => { p with ticks := p.ticks + 1, queued := [] }.evaluateAll position?
  | .deliver object => p.deliver object
  | .effect action => (p.applyOne action, [])
  | .reset => (p.reset, [])

/-- The playback after some moments. -/
def after (p : Playback) (ms : List Moment) : Playback := ms.foldl (fun q m => (q.happen m).1) p

/-- Some moments, each with the playback that it meets. -/
def trail (p : Playback) : List Moment → List (Playback × Moment)
  | [] => []
  | m :: ms => (p, m) :: trail (p.happen m).1 ms

/-- The events of a history. -/
def events (history : List (Playback × Moment)) : List Event :=
  history.flatMap fun x => (x.1.happen x.2).2

/-- The status of a carrier is `Start`. -/
def isRunning (p : Playback) (carrier : String) : Bool :=
  (p.state? carrier).any fun holder => holder.status = .start

/-- A carrier is enabled. -/
def isEnabled (p : Playback) (carrier : String) : Bool :=
  (p.state? carrier).any fun holder => holder.enabled = some true

/-! ### The moments of a command -/

/-- The moments in which actions are applied. -/
def settling (actions : List Action) : List Moment :=
  actions.map .effect ++ if .reset ∈ actions then [.reset] else []

/-- The moments in which a command is carried out. -/
def moments (p : Playback) : Command → List Moment
  | .load g => [.load g]
  | .unload carrier => [.unload carrier]
  | .tick position? =>
    (.evaluate position? :: p.queued.map .deliver) ++
      settling ((p.tick position?).2.events.map Event.action)
  | .click object => .deliver object :: settling ((p.click object).2.2.events.map Event.action)
  | .apply actions => settling actions
  | .reset => [.reset]

/-- The history of some commands, moment by moment. -/
def chronicle (p : Playback) : List Command → List (Playback × Moment)
  | [] => []
  | c :: cs => p.trail (p.moments c) ++ chronicle (p.perform c).1 cs

theorem after_append (p : Playback) (ms ms' : List Moment) :
    p.after (ms ++ ms') = (p.after ms).after ms' :=
  List.foldl_append

theorem trail_append (p : Playback) (ms ms' : List Moment) :
    p.trail (ms ++ ms') = p.trail ms ++ (p.after ms).trail ms' := by
  induction ms generalizing p with
  | nil => rfl
  | cons m ms ih =>
    rw [List.cons_append, trail, ih]
    rfl

theorem after_effects (p : Playback) (actions : List Action) :
    p.after (actions.map .effect) = actions.foldl applyOne p :=
  List.foldl_map

theorem events_append (h h' : List (Playback × Moment)) :
    events (h ++ h') = events h ++ events h' :=
  List.flatMap_append

theorem events_effects (p : Playback) (actions : List Action) :
    events (p.trail (actions.map .effect)) = [] := by
  induction actions generalizing p with
  | nil => rfl
  | cons a actions ih => exact ih _

/-- Applying actions is what happens when they are settled. -/
theorem apply_eq (p : Playback) (actions : List Action) :
    p.apply actions = p.after (settling actions) ∧ events (p.trail (settling actions)) = [] := by
  simp only [apply, settling]
  rw [after_append, after_effects, trail_append, events_append, events_effects, List.nil_append]
  split <;> exact ⟨rfl, rfl⟩

/-- Clicks that are delivered one after the other happen one after the other. -/
theorem deliverAll_eq (p : Playback) (objects : List String) :
    p.deliverAll objects =
      (p.after (objects.map .deliver), events (p.trail (objects.map .deliver))) := by
  induction objects generalizing p with
  | nil => rfl
  | cons object rest ih =>
    rw [deliverAll]
    dsimp only
    rw [ih]
    rfl

theorem tick_eq (p : Playback) (position? : String → Option (Triple Number)) :
    (p.tick position?).1 = p.after (p.moments (.tick position?)) ∧
      (p.tick position?).2.events = events (p.trail (p.moments (.tick position?))) := by
  have delivered := deliverAll_eq (p.happen (.evaluate position?)).1 p.queued
  have settled := (p.after (.evaluate position? :: p.queued.map .deliver)).apply_eq
    ((p.tick position?).2.events.map Event.action)
  -- A tick is its evaluation, the clicks queued before it, and the actions of both.
  have whole : p.tick position? =
      ((p.happen (.evaluate position?)).1.deliverAll p.queued).1.settle
        ((p.happen (.evaluate position?)).2 ++
          ((p.happen (.evaluate position?)).1.deliverAll p.queued).2) := rfl
  rw [moments, after_append, trail_append, events_append, settled.2, List.append_nil]
  constructor
  · rw [← settled.1, whole, delivered]
    rfl
  · rw [whole, delivered]
    rfl

theorem click_eq (p : Playback) (object : String) :
    (p.click object).2.1 = p.after (p.moments (.click object)) ∧
      (p.click object).2.2.events = events (p.trail (p.moments (.click object))) := by
  have settled := (p.happen (.deliver object)).1.apply_eq
    ((p.click object).2.2.events.map Event.action)
  have first : events (p.trail (p.moments (.click object))) =
      (p.happen (.deliver object)).2 ++ events ((p.happen (.deliver object)).1.trail
        (settling ((p.click object).2.2.events.map Event.action))) := rfl
  have last : p.after (p.moments (.click object)) = (p.happen (.deliver object)).1.after
      (settling ((p.click object).2.2.events.map Event.action)) := rfl
  -- Settling the actions of the click reports nothing of its own.
  rw [first, last, settled.2, ← settled.1, List.append_nil]
  have found : p.happen (.deliver object) = p.deliver object := rfl
  rw [found, click, deliver]
  cases p.find? .link object <;> exact ⟨rfl, rfl⟩

/-- **A command does what its moments do**, and what is reported of it happens in them. -/
theorem perform_eq (p : Playback) (c : Command) :
    p.perform c = (p.after (p.moments c), events (p.trail (p.moments c))) := by
  cases c with
  | load g => rfl
  | unload carrier => rfl
  | tick position? => exact Prod.ext (p.tick_eq position?).1 (p.tick_eq position?).2
  | click object => exact Prod.ext (p.click_eq object).1 (p.click_eq object).2
  | apply actions => exact Prod.ext (p.apply_eq actions).1 (p.apply_eq actions).2.symm
  | reset => rfl

/-- A carrier is unloaded only by the command to do so. -/
theorem unload_mem_moments {p : Playback} {c : Command} {carrier : String}
    (h : .unload carrier ∈ p.moments c) : c = .unload carrier := by
  -- Whatever the actions are, none of them unloads.
  have settled : ∀ actions, Moment.unload carrier ∉ settling actions := by
    intro actions mem
    rcases List.mem_append.1 mem with mem | mem
    · obtain ⟨_, -, h⟩ := List.mem_map.1 mem
      cases h
    · split at mem
      · cases List.mem_singleton.1 mem
      · cases mem
  cases c with
  | load g => cases List.mem_singleton.1 h
  | unload other =>
    cases List.mem_singleton.1 h
    rfl
  | tick position? =>
    rcases List.mem_append.1 h with h | h
    · cases h with
      | tail _ h =>
        obtain ⟨_, -, h⟩ := List.mem_map.1 h
        cases h
    · exact absurd h (settled _)
  | click object =>
    cases h with
    | tail _ h => exact absurd h (settled _)
  | apply actions => exact absurd h (settled _)
  | reset => cases List.mem_singleton.1 h

/-- A chronicle is a trail of moments, in which nothing is unloaded unasked. -/
theorem chronicle_eq_trail (p : Playback) (cs : List Command) :
    ∃ ms, p.chronicle cs = p.trail ms ∧
      ∀ carrier, .unload carrier ∈ ms → .unload carrier ∈ cs := by
  induction cs generalizing p with
  | nil => exact ⟨[], rfl, fun _ h => nomatch h⟩
  | cons c cs ih =>
    obtain ⟨ms, rest, unloaded⟩ := ih (p.perform c).1
    refine ⟨p.moments c ++ ms, ?_, ?_⟩
    · rw [chronicle, rest, trail_append, perform_eq]
    · intro carrier h
      rcases List.mem_append.1 h with h | h
      · rw [unload_mem_moments h]
        exact List.mem_cons_self
      · exact List.mem_cons_of_mem _ (unloaded carrier h)

/-- A trail that falls into two parts does so between two moments. -/
theorem trail_eq_append {p : Playback} {ms : List Moment} {h h' : List (Playback × Moment)}
    (split : p.trail ms = h ++ h') :
    ∃ ms₁ ms₂, ms = ms₁ ++ ms₂ ∧ h = p.trail ms₁ ∧ h' = (p.after ms₁).trail ms₂ := by
  -- By induction on the first part, which takes up one moment after the other.
  induction h generalizing p ms with
  | nil => exact ⟨[], ms, rfl, rfl, split.symm⟩
  | cons x h ih =>
    cases ms with
    | nil => cases split
    | cons m ms =>
      obtain ⟨first, rest⟩ := List.cons.inj split
      obtain ⟨ms₁, ms₂, rfl, rfl, rfl⟩ := ih rest
      subst first
      exact ⟨m :: ms₁, ms₂, rfl, rfl, rfl⟩

end Playback

/-! ### Stretches -/

/-- A part of a history that begins behind a cut, or with the history, and has no cut in it. -/
structure Stretch (cut : Playback × Moment → Bool)
    (whole before part after : List (Playback × Moment)) : Prop where
  split : whole = before ++ part ++ after
  begins : ∀ x ∈ before.getLast?, cut x
  uncut : ∀ x ∈ part, ¬ cut x

/-- A history begins with a stretch. -/
theorem Stretch.of_all {cut : Playback × Moment → Bool}
    {whole part after : List (Playback × Moment)} (split : whole = part ++ after) (uncut : part.all fun x => !cut x) :
    Stretch cut whole [] part after := by
  refine ⟨split, ?_, ?_⟩
  · intro x h
    cases h
  · intro x h
    rw [Bool.not_eq_true, ← Bool.not_eq_true']
    exact List.all_eq_true.1 uncut x h

end SceneLogic
