/-
What an action and a click do to what is loaded.

An action is addressed to a graph by kind and source (`Action.address?`).  Whatever the action is,
applying it changes the first graph that it is addressed to and may queue a click
(`applyOne_eq`); a click on an object changes the first link on it in the same way
(`deliver_eq`).  So facts about both come down to facts about `changeFirst`, which are collected
here.  Loading adds a graph or does nothing (`tryLoad_eq`).
-/
import SceneLogic.Proofs.Playback.Impact
namespace SceneLogic

/-! ### Changing the first item -/

section ChangeFirst

open Playback (changeFirst)

variable {α : Type} {test test' : α → Bool} {change change' : α → α} {xs : List α}

theorem changeFirst_of_forall (out : ∀ x ∈ xs, ¬ test x) : changeFirst test change xs = xs := by
  induction xs with
  | nil => rfl
  | cons x xs ih =>
    rw [changeFirst_cons, if_neg (out x List.mem_cons_self),
      ih fun y hy => out y (List.mem_cons_of_mem x hy)]

theorem changeFirst_congr (same : ∀ x, xs.find? test = some x → change x = change' x) :
    changeFirst test change xs = changeFirst test change' xs := by
  induction xs with
  | nil => rfl
  | cons x xs ih =>
    rw [changeFirst_cons, changeFirst_cons]
    by_cases h : test x
    · rw [if_pos h, if_pos h, same x (List.find?_cons_of_pos h)]
    · rw [List.find?_cons_of_neg h] at same
      rw [if_neg h, if_neg h, ih same]

theorem changeFirst_id : changeFirst test id xs = xs := by
  induction xs with
  | nil => rfl
  | cons x xs ih =>
    rw [changeFirst_cons, ih]
    split <;> rfl

theorem map_changeFirst {β : Type} {f : α → β} (keeps : ∀ x, f (change x) = f x) :
    (changeFirst test change xs).map f = xs.map f := by
  induction xs with
  | nil => rfl
  | cons x xs ih =>
    rw [changeFirst_cons]
    split
    · rw [List.map_cons, keeps, List.map_cons]
    · rw [List.map_cons, ih, List.map_cons]

end ChangeFirst

/-! ### Addresses -/

/-- The kind and the source by which a graph is addressed. -/
def Graph.address (g : Graph) : Graph.Kind × String := (g.kind, g.source)

namespace Action

/-- What an action is addressed to, if it is to a graph. -/
def address? : Action → Option (Graph.Kind × String)
  | timeline target _ => some (.timeline, target.name)
  | event target _ => some (.region, target.name)
  | link target _ => some (.link, target.name)
  | _ => none

/-- An action is addressed to a graph. -/
def addresses (a : Action) (g : Graph) : Bool := a.address? = some g.address

theorem addresses_iff {a : Action} {g : Graph} : a.addresses g ↔ a.address? = some g.address :=
  decide_eq_true_iff

end Action

theorem isAddressed_iff {kind : Graph.Kind} {source : String} {l : Loaded} :
    Playback.isAddressed kind source l ↔ l.graph.address = (kind, source) := by
  rw [Playback.isAddressed, Bool.and_eq_true_iff, beq_iff_eq, beq_iff_eq, Graph.address,
    Prod.mk.injEq]

/-- A graph after the effect of an action that is addressed to it. -/
def Loaded.affected (l : Loaded) : Action → Loaded
  | .timeline _ c => l.changeTimeline c
  | .event _ enable => l.withEnabled enable
  | .link _ .enable => l.withEnabled true
  | .link _ .disable => l.withEnabled false
  | _ => l

theorem Loaded.plays_affected {l : Loaded} {g : Graph} {program : Program}
    (h : l.Plays g program) (a : Action) : (l.affected a).Plays g program := by
  unfold affected
  split
  · exact plays_changeTimeline h _
  all_goals exact h

namespace Playback

variable (p : Playback)

/-- The object whose link an action activates, if it is an activation of a link that is loaded. -/
def activated? : Action → Option String
  | .link target .activate => if (p.find? .link target.name).isSome then some target.name else none
  | _ => none

/-- **What applying an action does**: it changes the first graph that the action is addressed to,
and queues a click if the action activates a link. -/
theorem applyOne_eq (a : Action) : p.applyOne a =
    { p with
      loaded := changeFirst (fun l => a.addresses l.graph) (·.affected a) p.loaded
      queued := p.queued ++ (p.activated? a).toList } := by
  -- Without an activation the queue is as it was.
  have changed : ∀ {kind : Graph.Kind} {source : String}, a.address? = some (kind, source) →
      p.activated? a = none → p.change kind source (·.affected a) = { p with
        loaded := changeFirst (fun l => a.addresses l.graph) (·.affected a) p.loaded
        queued := p.queued ++ (p.activated? a).toList } := by
    intro kind source address silent
    have test : isAddressed kind source = fun l => a.addresses l.graph := by
      funext l
      rw [Bool.eq_iff_iff, isAddressed_iff, Action.addresses_iff, address, Option.some_inj, eq_comm]
    rw [change, test, silent, Option.toList_none, List.append_nil]
  have same : (∀ l : Loaded, l.affected a = l) →
      changeFirst (fun l => a.addresses l.graph) (·.affected a) p.loaded = p.loaded := by
    intro idle
    rw [changeFirst_congr fun x _ => idle x]
    exact changeFirst_id
  -- A link is looked for before it is changed, but without one there is nothing to change.
  have linked : ∀ (target : Target) (b : Bool),
      (if (p.find? .link target.name).isSome then p.change .link target.name (·.withEnabled b)
        else p) = p.change .link target.name (·.withEnabled b) := by
    intro target b
    split
    · rfl
    · next missing =>
      rw [find?, Option.not_isSome_iff_eq_none, List.find?_eq_none] at missing
      rw [change, changeFirst_of_forall missing]
  cases a with
  | timeline target c => exact changed rfl rfl
  | event target enable => exact changed rfl rfl
  | link target c =>
    cases c with
    | enable => exact (linked target true).trans (changed rfl rfl)
    | disable => exact (linked target false).trans (changed rfl rfl)
    | activate =>
      rw [same fun _ => rfl, applyOne, activated?]
      split
      · rfl
      · rw [Option.toList_none, List.append_nil]
  | move | visibility | sound | group | reset =>
    rw [same fun _ => rfl]
    show p = { p with queued := p.queued ++ [] }
    rw [List.append_nil]

/-- What loading a graph adds: nothing, if its carrier is taken or it cannot be played. -/
def newcomer? (g : Graph) : Option Loaded :=
  if p.hasLoaded g.carrier then none else (Loaded.ofGraph g).toOption

theorem graph_newcomer {p : Playback} {g : Graph} {l : Loaded} (new : p.newcomer? g = some l) :
    l.graph = g := by
  rw [newcomer?] at new
  split at new
  · cases new
  · cases made : Loaded.ofGraph g with
    | error fault =>
      rw [made] at new
      cases new
    | ok made' =>
      rw [made] at new
      cases new
      exact Loaded.graph_ofGraph made

/-- **What loading does**: it adds a graph behind the others. -/
theorem tryLoad_eq (g : Graph) :
    p.tryLoad g = { p with loaded := p.loaded ++ (p.newcomer? g).toList } := by
  have still : p = { p with loaded := p.loaded ++ [] } := by rw [List.append_nil]
  rw [tryLoad, load, newcomer?, hasLoaded]
  by_cases taken : p.loaded.any (·.graph.carrier == g.carrier)
  · rw [if_pos taken, if_pos taken]
    exact still
  · rw [if_neg taken, if_neg taken]
    cases Loaded.ofGraph g with
    | error fault => exact still
    | ok new => rfl

/-- What a click on an object dispatches. -/
def clickEvents (object : String) : List Event :=
  match p.find? .link object with
  | some l => eventsOf p.ticks l.graph l.click.2
  | none => []

/-- **What a click does**: it changes the first link on the object. -/
theorem deliver_eq (object : String) :
    p.deliver object = (p.change .link object (·.click.1), p.clickEvents object) := by
  rw [deliver, clickEvents]
  cases found : p.find? .link object with
  | some l =>
    -- The link that is clicked is the first one, which is also the one to be changed.
    have same : p.change .link object (fun _ => l.click.1) = p.change .link object (·.click.1) := by
      rw [change, change, changeFirst_congr]
      intro x hx
      rw [find?, hx] at found
      rw [Option.some_inj.1 found]
    dsimp only
    rw [same]
  | none =>
    rw [find?, List.find?_eq_none] at found
    rw [change, changeFirst_of_forall found]

end Playback

end SceneLogic
