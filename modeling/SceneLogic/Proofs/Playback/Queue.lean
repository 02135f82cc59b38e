/-
Queued clicks.

An action that activates a link queues a click, and a tick delivers the clicks that were queued
before it began.  What waits in the queue can be told from the history alone: it is what was
activated since the last tick or reset (`queued_after`), since the one takes up all clicks and the
other drops them.  So between an activation and its click there is a correspondence, one to one and
in order: `queued_clicks_law`.
-/
import Mathlib.Data.List.DropRight
import SceneLogic.Proofs.Playback.Runs
namespace SceneLogic.Playback

/-! ### What is queued -/

/-- The object whose link a moment activates, if it applies the activation of a link that is
loaded. -/
def activates? (x : Playback × Moment) : Option String :=
  match x.2 with
  | .effect a => x.1.activated? a
  | _ => none

/-- No click outlasts a moment in the queue: a tick takes up all of them, and a reset drops them. -/
def emptiesQueue (x : Playback × Moment) : Bool := x.2.isEvaluation || x.2.isReset

/-- The activations of a history that wait for their clicks: those since the last tick or reset. -/
def awaiting (history : List (Playback × Moment)) : List (Playback × Moment) :=
  (history.rtakeWhile fun x => !emptiesQueue x).filter fun x => (activates? x).isSome

/-- What a moment does to the queue. -/
theorem queued_happen (p : Playback) (m : Moment) : (p.happen m).1.queued =
    if emptiesQueue (p, m) then [] else p.queued ++ (activates? (p, m)).toList := by
  have still : p.queued = p.queued ++ (none : Option String).toList := (List.append_nil _).symm
  cases m with
  | load g =>
    refine Eq.trans ?_ still
    show (p.tryLoad g).queued = _
    rw [tryLoad_eq]
  | unload => exact still
  | evaluate | reset => rfl
  | deliver object =>
    refine Eq.trans ?_ still
    show (p.deliver object).1.queued = _
    rw [deliver_eq]
    rfl
  | effect a =>
    show (p.applyOne a).queued = _
    rw [applyOne_eq]
    rfl

theorem awaiting_concat (history : List (Playback × Moment)) (x : Playback × Moment) :
    awaiting (history ++ [x]) =
      if emptiesQueue x then []
      else awaiting history ++ if (activates? x).isSome then [x] else [] := by
  rw [awaiting, List.rtakeWhile_concat]
  cases emptiesQueue x
  · rw [if_pos Bool.not_false, if_neg Bool.false_ne_true, List.filter_append, awaiting,
      List.append_right_inj, List.filter_singleton]
    cases (activates? x).isSome <;> rfl
  · rfl

/-- **What is queued is what was activated since the last tick or reset.** -/
theorem queued_after (ms : List Moment) : (({} : Playback).after ms).queued =
    (awaiting (({} : Playback).trail ms)).filterMap activates? := by
  -- By induction from the end of the history: the last moment empties the queue or adds to it.
  induction ms using List.reverseRecOn with
  | nil => rfl
  | append_singleton ms m ih =>
    have whole : ({} : Playback).trail (ms ++ [m]) =
        ({} : Playback).trail ms ++ [(({} : Playback).after ms, m)] := trail_append _ ms [m]
    rw [after_append, whole, awaiting_concat]
    show (Playback.happen _ m).1.queued = _
    rw [queued_happen, ih]
    split
    · rfl
    · rw [List.filterMap_append, List.append_right_inj]
      cases h : activates? (({} : Playback).after ms, m) with
      | none => rfl
      | some object =>
        simp [h]

theorem queued_performAll (commands : List Command) :
    (({} : Playback).performAll commands).1.queued =
      (awaiting (({} : Playback).chronicle commands)).filterMap activates? := by
  obtain ⟨ms, told, done⟩ := ({} : Playback).performAll_eq commands
  rw [done, told]
  exact queued_after ms

/-! ### Clicks that answer activations -/

/-- A click on an object is heard by the link on it, if one is loaded, and by nothing else. -/
structure Hears (q : Playback) (object : String) : Prop where
  /-- The link is clicked and dispatches what this brings about. -/
  link : ∀ carrier, q.reaches .link object carrier → ∃ l, q.Sole carrier l ∧
    (q.happen (.deliver object)).1.Sole carrier l.click.1 ∧
      (q.happen (.deliver object)).2 = eventsOf q.ticks l.graph l.click.2
  /-- Every other graph stays as it is. -/
  others : ∀ carrier l, q.Sole carrier l → ¬ q.reaches .link object carrier →
    (q.happen (.deliver object)).1.Sole carrier l
  /-- Without a link nothing happens at all. -/
  missed : (∀ carrier, ¬ q.reaches .link object carrier) → q.happen (.deliver object) = (q, [])

/-- A click answers an activation: it comes to the object that was activated. -/
def Answers (x y : Playback × Moment) : Prop :=
  ∃ object, activates? x = some object ∧ y.2 = .deliver object ∧ y.1.Hears object

theorem Orderly.hears {q : Playback} (orderly : q.Orderly) (object : String) : q.Hears object := by
  have delivered : q.happen (.deliver object) = q.deliver object := rfl
  refine ⟨fun carrier reached => ?_, fun carrier l sole out => ?_, fun out => ?_⟩
  · obtain ⟨l, found, same⟩ := (Option.any_eq_true _ _).1 reached
    have sole := orderly.sole (List.mem_of_find?_eq_some found)
    rw [beq_iff_eq.1 same] at sole
    have heard := (sole.deliver object).1
    rw [if_pos reached] at heard
    refine ⟨l, sole, heard, ?_⟩
    rw [delivered, Playback.deliver, found]
  · have kept := (sole.deliver object).1
    rw [if_neg out] at kept
    exact kept
  · rw [delivered, Playback.deliver]
    cases found : q.find? .link object with
    | none => rfl
    | some l =>
      refine absurd ?_ (out l.graph.carrier)
      rw [reaches, found, Option.any_some, BEq.rfl]

/-- Clicks on what some activations activate, one after the other, answer these. -/
theorem Orderly.answers {q : Playback} (orderly : q.Orderly) (xs : List (Playback × Moment))
    (active : ∀ x ∈ xs, (activates? x).isSome) :
    List.Forall₂ Answers xs (q.trail ((xs.filterMap activates?).map .deliver)) := by
  induction xs generalizing q with
  | nil => exact .nil
  | cons x xs ih =>
    obtain ⟨object, activated⟩ := Option.isSome_iff_exists.1 (active x List.mem_cons_self)
    rw [List.filterMap_cons_some activated, List.map_cons, trail]
    refine .cons ⟨object, activated, rfl, orderly.hears object⟩ (ih ?_ ?_)
    · exact orderly.congr (q.repertoire_happen rfl)
    · exact fun y hy => active y (List.mem_cons_of_mem x hy)

theorem map_snd_trail (q : Playback) (ms : List Moment) : (q.trail ms).map Prod.snd = ms := by
  induction ms generalizing q with
  | nil => rfl
  | cons m ms ih => exact congrArg (m :: ·) (ih _)

/-- The moments of a tick: the evaluation, the clicks queued before, and what is settled. -/
theorem trail_tick (p : Playback) (position? : String → Option (Triple Number)) :
    p.trail (p.moments (.tick position?)) =
      (p, .evaluate position?) ::
        ((p.happen (.evaluate position?)).1.trail (p.queued.map .deliver) ++
          ((p.happen (.evaluate position?)).1.after (p.queued.map .deliver)).trail
            (settling ((p.tick position?).2.events.map Event.action))) := by
  rw [moments, List.cons_append, trail, trail_append]

/-- **Queued clicks are neither lost, nor doubled, nor early.**  In every run a tick evaluates what
is loaded, delivers clicks that answer, one by one and in order, the activations since the last
tick or reset, and settles what was dispatched. -/
theorem queued_clicks_law (commands : List Command)
    (position? : String → Option (Triple Number)) :
    ∃ delivered settled,
      ({} : Playback).chronicle (commands ++ [.tick position?]) =
        ({} : Playback).chronicle commands ++
          ((({} : Playback).performAll commands).1, .evaluate position?) ::
            (delivered ++ settled) ∧
      List.Forall₂ Answers (awaiting (({} : Playback).chronicle commands)) delivered ∧
      (∀ x ∈ settled, (∃ a, x.2 = .effect a) ∨ x.2 = .reset) ∧
      ((({} : Playback).performAll commands).1.tick position?).2.events =
        events (((({} : Playback).performAll commands).1, .evaluate position?) ::
          (delivered ++ settled)) := by
  generalize reached : (({} : Playback).performAll commands).1 = p
  have orderly : p.Orderly := reached ▸ orderly_performAll commands
  have queued : p.queued = (awaiting (({} : Playback).chronicle commands)).filterMap activates? :=
    reached ▸ queued_performAll commands
  have tick : p.chronicle [.tick position?] = p.trail (p.moments (.tick position?)) :=
    List.append_nil _
  rw [chronicle_append, reached, tick, (p.tick_eq position?).2, trail_tick]
  refine ⟨_, _, rfl, ?_, ?_, rfl⟩
  · -- The clicks delivered are those that were queued before.
    rw [queued]
    exact (orderly.congr (p.repertoire_happen rfl)).answers _ fun x hx =>
      (List.mem_filter.1 hx).2
  · intro x hx
    have settled := List.mem_map_of_mem (f := Prod.snd) hx
    rw [map_snd_trail] at settled
    exact mem_settling settled

end SceneLogic.Playback
