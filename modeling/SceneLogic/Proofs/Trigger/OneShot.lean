/-
Triggers that fire once.

A trigger or a link that does not remain enabled is disabled by its own firing.  Disabled it stays,
and fires no more, until an action enables it or everything is reset (`Turn.disabled`); so between
two such moments it fires at most once, however many clicks reach it and whatever it dispatches.
One that remains enabled is enabled and disabled by actions and resets alone
(`Turn.remains_enabled`).  `one_shot_law` says both of a compiled trigger or link in all of
playback.
-/
import SceneLogic.Proofs.Trigger.Turns
namespace SceneLogic

attribute [local irreducible] quantaPerUnit quantaLimit

/-- No more than one item satisfies a test, if none does behind another. -/
theorem countP_le_one {α : Type} {test : α → Bool} {xs : List α}
    (once : ∀ before x later, xs = before ++ x :: later → test x → ∀ y ∈ later, ¬ test y) :
    xs.countP test ≤ 1 := by
  induction xs with
  | nil => exact Nat.zero_le 1
  | cons x xs ih =>
    rw [List.countP_cons]
    by_cases first : test x
    · have none : xs.countP test = 0 := List.countP_eq_zero.2 (once [] x xs rfl first)
      rw [none, if_pos first]
    · rw [if_neg first]
      exact ih fun before y later split => once (x :: before) y later (congrArg (x :: ·) split)

/-! ### Enabled and disabled -/

namespace Loaded

variable {l l' : Loaded} {P : Program} {i : Option Impact} {nodes : List String}

/-- What is disabled stays so, and does not begin to run, unless it is enabled or restored. -/
theorem Turn.disabled (turn : Turn P l i l' nodes) (disabled : l.holder.enabled = some false)
    (enable : i ≠ some (.enable true)) (restore : i ≠ some .restore) :
    l'.holder.enabled = some false ∧ (l.holder.status = .stop → l'.holder.status = .stop) := by
  cases turn with
  | rest _ noted =>
    obtain ⟨status, -, enabled⟩ := noted.frame
    exact ⟨enabled.trans disabled, status.trans⟩
  | count started =>
    refine ⟨(countDown_enabled l).trans disabled, fun stopped => ?_⟩
    rw [stopped] at started
    cases started
  | fire _ enabled =>
    rw [disabled] at enabled
    cases enabled
  | switch enabled =>
    cases enabled with
    | true => exact absurd rfl enable
    | false => exact ⟨rfl, id⟩
  | restore => exact absurd rfl restore

/-- What remains enabled as it fires is enabled and disabled from outside alone. -/
theorem Turn.remains_enabled (turn : Turn P l i l' nodes) (remains : P.remainEnabled? = some true)
    (switch : ∀ enabled, i ≠ some (.enable enabled)) (restore : i ≠ some .restore) :
    l'.holder.enabled = l.holder.enabled := by
  cases turn with
  | rest _ noted => exact noted.frame.2.2
  | count => exact countDown_enabled l
  | fire _ enabled noted remains' =>
    rw [remains] at remains'
    cases remains'
    exact noted.frame.2.2
  | switch enabled => exact absurd rfl (switch enabled)
  | restore => exact absurd rfl restore

end Loaded

/-! ### Firing in playback -/

namespace Playback

/-- Whether a carrier is enabled, if it is one that can be. -/
def enabled? (p : Playback) (carrier : String) : Option Bool :=
  (p.state? carrier).bind Holder.enabled

/-- A moment enables the trigger or the link of a carrier: an action that reaches it is applied to
do so, or everything is reset. -/
def enables (carrier : String) (x : Playback × Moment) : Bool :=
  match x.2 with
  | .effect (.event target true) => x.1.reaches .region target.name carrier
  | .effect (.link target .enable) => x.1.reaches .link target.name carrier
  | .reset => true
  | _ => false

variable {q : Playback} {carrier : String} {l : Loaded} {m : Moment} {g : Graph} {P : Program}
variable {config : Config}

theorem Sole.enabled? (sole : q.Sole carrier l) : q.enabled? carrier = l.holder.enabled := by
  rw [Playback.enabled?, sole.state?, Option.bind_some]

/-- Only an action that is applied switches a graph on or off. -/
theorem impact?_eq_enable {enabled : Bool} (h : q.impact? carrier m = some (.enable enabled)) :
    (∃ action, m = .effect action) ∧ (enabled → enables carrier (q, m)) := by
  unfold impact? at h
  split at h <;> first | cases h | (split at h <;> cases h)
  · next target _ reached =>
    refine ⟨⟨_, rfl⟩, ?_⟩
    rintro rfl
    exact reached
  · next target reached => exact ⟨⟨_, rfl⟩, fun _ => reached⟩
  · next target reached => exact ⟨⟨_, rfl⟩, fun off => by cases off⟩

/-- A moment that does not enable a disabled trigger or link leaves it so, and nothing begins. -/
theorem Sole.disabled_step (sole : q.Sole carrier l) (plays : l.Plays g P)
    (trigger : g.IsTrigger config P) (own : m ≠ .unload carrier)
    (still : ¬ enables carrier (q, m)) (disabled : l.holder.enabled = some false) :
    (l.meet (q.impact? carrier m)).1.holder.enabled = some false ∧ ¬ starts carrier (q, m) := by
  obtain ⟨disabled', stays⟩ := (sole.turn (m := m) plays trigger).disabled disabled
    (fun enable => still ((impact?_eq_enable enable).2 rfl))
    fun restore => still (impact?_eq_restore restore ▸ rfl)
  refine ⟨disabled', fun start => ?_⟩
  obtain ⟨stopped, running⟩ := (sole.starts_iff (sole.happen own).1).1 start
  rw [stays stopped] at running
  cases running

/-- From a moment on that leaves a trigger or a link disabled, it is so and begins nothing, up to
the next moment that enables it. -/
theorem Sole.disabled_run (sole : q.Sole carrier l) (plays : l.Plays g P)
    (trigger : g.IsTrigger config P) (disabled : l.holder.enabled = some false) {ms : List Moment}
    (keeps : .unload carrier ∉ ms) {held rest : List (Playback × Moment)}
    (split : q.trail ms = held ++ rest) (uncut : ∀ x ∈ held, ¬ enables carrier x) :
    ∀ y ∈ held, ¬ starts carrier y ∧ (y.1.happen y.2).1.enabled? carrier = some false := by
  intro y mem
  obtain ⟨part, later, rfl⟩ := List.append_of_mem mem
  rw [List.append_assoc, List.cons_append] at split
  obtain ⟨l', _, sole', plays', disabled', own, -, -⟩ :=
    sole.met (enables carrier) (I := fun l _ => l.holder.enabled = some false)
      (fun q l m _ sole plays own still disabled =>
        (sole.disabled_step plays trigger own still disabled).1)
      plays disabled keeps split fun z hz => uncut z (List.mem_append_left _ hz)
  obtain ⟨after, silent⟩ := sole'.disabled_step plays' trigger own (uncut y mem) disabled'
  exact ⟨silent, (sole'.happen own).1.enabled?.trans after⟩

/-- The firing of a trigger or a link that remains enabled does not show, and nothing else enables
or disables it but an action or a reset. -/
theorem Sole.remains_step (sole : q.Sole carrier l) (plays : l.Plays g P)
    (trigger : g.IsTrigger config P) (own : m ≠ .unload carrier)
    (remains : P.remainEnabled? = some true) :
    (starts carrier (q, m) → (q.happen m).1.enabled? carrier = q.enabled? carrier) ∧
    ((q.happen m).1.enabled? carrier ≠ q.enabled? carrier →
      m = .reset ∨ ∃ action, m = .effect action) := by
  rw [sole.enabled?, (sole.happen own).1.enabled?]
  constructor
  · intro start
    obtain ⟨_, _, enabled, remains', -, -, -, enabled'⟩ := sole.fired plays trigger own start
    rw [remains, Option.some_inj] at remains'
    rw [enabled, enabled', remains']
  · intro changed
    by_contra inside
    obtain ⟨unreset, unapplied⟩ := not_or.1 inside
    refine changed ((sole.turn (m := m) plays trigger).remains_enabled remains ?_ ?_)
    · intro enabled switch
      exact unapplied (impact?_eq_enable switch).1
    · intro restore
      exact unreset (impact?_eq_restore restore)

/-- What a firing disables begins nothing and stays disabled up to the next moment that enables
it. -/
theorem Sole.once (sole : q.Sole carrier l) (plays : l.Plays g P)
    (trigger : g.IsTrigger config P) (own : m ≠ .unload carrier)
    (once : P.remainEnabled? = some false) (start : starts carrier (q, m)) {ms : List Moment}
    (keeps : .unload carrier ∉ ms) {held rest : List (Playback × Moment)}
    (split : (q.happen m).1.trail ms = held ++ rest) (uncut : ∀ x ∈ held, ¬ enables carrier x) :
    (q.happen m).1.enabled? carrier = some false ∧
      ∀ y ∈ held, ¬ starts carrier y ∧ (y.1.happen y.2).1.enabled? carrier = some false := by
  obtain ⟨sole', -⟩ := sole.happen own
  obtain ⟨_, _, -, once', -, -, -, disabled⟩ := sole.fired plays trigger own start
  rw [once, Option.some_inj] at once'
  rw [← once'] at disabled
  exact ⟨sole'.enabled?.trans disabled,
    sole'.disabled_run (Loaded.plays_meet plays _) trigger disabled keeps split uncut⟩

/-- **Triggers that fire once.**  A compiled trigger or link dispatches only as it begins to run.
If it does not remain enabled, it does so at most once between two moments that enable it, and is
disabled from then up to the second one.  If it remains enabled, its firing leaves it as enabled as
it was, and only actions that are applied and resets do not. -/
theorem one_shot_law {c c' : Compilation} {config : Config} {scene : Scene} {record : Record}
    {object : Option String} {compiled : Compiled} {p p₀ : Playback} {commands : List Command}
    {remainEnabled : Bool}
    (compiles : c.compile config scene record object = (.ok compiled, c'))
    (remains : record.remainEnabled? = some remainEnabled) (loads : p.load compiled.graph = .ok p₀)
    (keeps : .unload compiled.graph.carrier ∉ commands) :
    (∀ x ∈ p₀.chronicle commands,
      ¬ starts compiled.graph.carrier x → dispatches compiled.graph.carrier [x] = []) ∧
    (remainEnabled = false → ∀ before part rest,
      Stretch (enables compiled.graph.carrier) (p₀.chronicle commands) before part rest →
      part.countP (starts compiled.graph.carrier) ≤ 1 ∧
      ∀ fired x held, part = fired ++ x :: held → starts compiled.graph.carrier x →
        ∀ y ∈ x :: held, (y.1.happen y.2).1.enabled? compiled.graph.carrier = some false) ∧
    (remainEnabled = true → ∀ x ∈ p₀.chronicle commands,
      (starts compiled.graph.carrier x → (x.1.happen x.2).1.enabled? compiled.graph.carrier =
        x.1.enabled? compiled.graph.carrier) ∧
      ((x.1.happen x.2).1.enabled? compiled.graph.carrier ≠
        x.1.enabled? compiled.graph.carrier → x.2 = .reset ∨ ∃ action, x.2 = .effect action)) := by
  have untimed : ∀ t, record ≠ .timeline t := by
    rintro t rfl
    cases remains
  obtain ⟨P, trigger, same⟩ := Compilation.isTrigger compiles untimed
  have remains := same.trans remains
  have met := @trigger.meets _ _ _ _ _ commands (fun _ => True) loads keeps
    (fun _ _ => trivial) (fun _ _ _ _ _ => trivial)
  refine ⟨?_, ?_, ?_⟩
  · intro x mem silent
    obtain ⟨before, rest, split⟩ := List.append_of_mem mem
    obtain ⟨l, ms, sole, plays, -, own, -, -⟩ := met split
    exact sole.silent plays trigger own silent
  · rintro rfl before part rest stretch
    have after : ∀ fired x held, part = fired ++ x :: held → starts compiled.graph.carrier x →
        (x.1.happen x.2).1.enabled? compiled.graph.carrier = some false ∧
        ∀ y ∈ held, ¬ starts compiled.graph.carrier y ∧
          (y.1.happen y.2).1.enabled? compiled.graph.carrier = some false := by
      rintro fired x held rfl start
      have split := stretch.split
      rw [← List.append_assoc, List.append_assoc, List.cons_append] at split
      obtain ⟨l, ms, sole, plays, -, own, later, keeps'⟩ := met split
      exact sole.once plays trigger own remains start keeps' later.symm
        fun y hy => stretch.uncut y (List.mem_append_right _ (List.mem_cons_of_mem _ hy))
    refine ⟨countP_le_one fun fired x held split start y hy => ?_, ?_⟩
    · exact ((after fired x held split start).2 y hy).1
    · intro fired x held split start y hy
      rcases List.mem_cons.1 hy with rfl | hy
      · exact (after fired y held split start).1
      · exact ((after fired x held split start).2 y hy).2
  · rintro rfl x mem
    obtain ⟨before, rest, split⟩ := List.append_of_mem mem
    obtain ⟨l, ms, sole, plays, -, own, -, -⟩ := met split
    exact sole.remains_step plays trigger own remains

/-- A link that hides its door on the second click, for once. -/
def onceLink : ClickLink := { secondClickLink with remainEnabled := false }

/-- Two clicks that fire a link, a tick that ends its hold and two clicks more. -/
def doorRepeats : List Command := doorClicks ++ .tick doorScene.position? :: doorClicks

/-- The second moment of a history fires the trigger of a carrier, and no moment enables it. -/
def firesSecond (carrier : String) : List (Playback × Moment) → Bool
  | first :: x :: held =>
    starts carrier x && (first :: x :: held).all (fun y => !enables carrier y)
  | _ => false

/-- Of two links the one fires on the second click and no more; the other stays enabled. -/
theorem onceLink_one_shot_law :
    (∃ compiled c' p₀ first x held,
      Compilation.compile { names := .empty } Compilation.plainConfig doorScene
        (.link onceLink) (some "door") = (.ok compiled, c') ∧
      ({} : Playback).load compiled.graph = .ok p₀ ∧
      p₀.chronicle doorRepeats = first :: x :: held ∧ starts compiled.graph.carrier x ∧
      (p₀.chronicle doorRepeats).countP (starts compiled.graph.carrier) ≤ 1 ∧
      ∀ y ∈ x :: held, (y.1.happen y.2).1.enabled? compiled.graph.carrier = some false) ∧
    ∃ compiled c' p₀,
      Compilation.compile { names := .empty } Compilation.plainConfig doorScene
        (.link secondClickLink) (some "door") = (.ok compiled, c') ∧
      ({} : Playback).load compiled.graph = .ok p₀ ∧
      (p₀.chronicle doorRepeats).countP (starts compiled.graph.carrier) = 2 ∧
      ∀ x ∈ p₀.chronicle doorRepeats, starts compiled.graph.carrier x →
        (x.1.happen x.2).1.enabled? compiled.graph.carrier =
          x.1.enabled? compiled.graph.carrier := by
  have unloads : ∀ carrier, .unload carrier ∉ doorRepeats := by
    simp [doorRepeats, doorClicks]
  constructor
  · have plays : Compilation.playsAs { names := .empty } Compilation.plainConfig doorScene
        (.link onceLink) (some "door") (fun g p =>
          firesSecond g.carrier (p.chronicle doorRepeats)) := by
      decide +kernel
    obtain ⟨compiled, c', p₀, compiles, loads, check⟩ := Compilation.exists_of_playsAs plays
    unfold firesSecond at check
    split at check
    · next first x held history =>
      obtain ⟨start, uncut⟩ := Bool.and_eq_true_iff.1 check
      have stretch : Stretch (enables compiled.graph.carrier) (p₀.chronicle doorRepeats) []
          (first :: x :: held) [] := .of_all (by rw [history, List.append_nil]) uncut
      obtain ⟨-, once, -⟩ := one_shot_law compiles rfl loads (unloads _)
      obtain ⟨count, disabled⟩ := once rfl _ _ _ stretch
      rw [← history] at count
      exact ⟨compiled, c', p₀, first, x, held, compiles, loads, history, start, count,
        disabled [first] x held rfl start⟩
    · cases check
  · have plays : Compilation.playsAs { names := .empty } Compilation.plainConfig doorScene
        (.link secondClickLink) (some "door") (fun g p =>
          (p.chronicle doorRepeats).countP (starts g.carrier) == 2) := by
      decide +kernel
    obtain ⟨compiled, c', p₀, compiles, loads, check⟩ := Compilation.exists_of_playsAs plays
    obtain ⟨-, -, remains⟩ := one_shot_law compiles rfl loads (unloads _)
    exact ⟨compiled, c', p₀, compiles, loads, beq_iff_eq.1 check,
      fun x mem => (remains rfl x mem).1⟩

end Playback

end SceneLogic
