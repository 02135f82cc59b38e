/-
Which records overflow.

A script holds the ticks of its holds, and nothing looks at these before they are written.  A record
whose spans all have a finite product with the tick rate gets a script of finite numbers, and any
other gets one in which ticks are written as `Infinity`, which stands for no number
(`Compilation.script_numbers`, `overflowing_script`).
-/
import SceneLogic.Proofs.Lua.Numbers
import SceneLogic.Proofs.Workspace.Settings
namespace SceneLogic

attribute [local irreducible] quantaPerUnit quantaLimit

/-! ### Spans of records -/

/-- The spans that are converted to ticks for the script of a record. -/
def Record.spans : Record → List Span
  | .timeline _ => []
  | .region t => t.duration :: t.actions.map Action.span
  | .link l => l.lists.entries.flatMap fun e => e.2.map Action.span

/-- The spans whose ticks stand in the script. -/
def Record.holds : Record → List Span
  | .timeline _ => []
  | .region t => [t.duration, .longest (t.actions.map Action.span)]
  | .link l => l.lists.entries.map fun e => .longest (e.2.map Action.span)

theorem Record.holds_fit_iff (record : Record) {x : Scalar} (positive : 0 < x.quanta) :
    (∀ s ∈ record.holds, s.Fits (.scalar x)) ↔ ∀ s ∈ record.spans, s.Fits (.scalar x) := by
  cases record with
  | timeline t => exact Iff.rfl
  | region t =>
    rw [holds, spans, List.forall_mem_cons, List.forall_mem_cons, List.forall_mem_cons,
      Span.fits_longest_iff positive]
    exact and_congr_right fun _ => and_iff_left (List.forall_mem_nil _)
  | link l =>
    rw [holds, spans, List.forall_mem_map]
    simp only [Span.fits_longest_iff positive, List.forall_mem_flatMap]

/-- What a script says of a record: finite numbers and the ticks of its holds. -/
structure Program.Counts (P : Program) (rate : Number) (record : Record) : Prop where
  number : ∀ x ∈ Lua.numbers P, x.isFinite ∨ ∃ s ∈ record.holds, x = secondsToTicks s.number rate
  ticks : ∀ s ∈ record.holds, secondsToTicks s.number rate ∈ Lua.numbers P

theorem ClickCount.isFinite_of_isProper {n : Number} (proper : (exactly n).isProper) :
    n.isFinite := by
  cases n with
  | scalar x => rfl
  | _ => cases proper

theorem ClickLink.isFinite_resetNumber (l : ClickLink) : l.resetNumber.isFinite := by
  rw [resetNumber]
  cases l.reset with
  | none => decide +kernel
  | some n => rfl

namespace Blueprint

variable {config : Config}

theorem timeline_counts (rate : config.ticksPerSecond.isFinite) (t : Timeline)
    (schedule : List Scheduled) (times : ∀ s ∈ schedule, s.time.isFinite) :
    (Program.timeline ⟨config.ticksPerSecond, t.lastTime.number, schedule⟩).Counts
      config.ticksPerSecond (.timeline t) := by
  refine ⟨fun x mem => ?_, fun s mem => absurd mem List.not_mem_nil⟩
  rcases Lua.mem_numbers_timeline.1 mem with rfl | rfl | ⟨s, scheduled, -, rfl⟩
  · exact .inl rate
  · exact .inl rfl
  · exact .inl (times s scheduled)

theorem region_counts (t : RegionTrigger) (tracked dispatch : List String) (remainEnabled : Bool) :
    (Program.region ⟨regionTest t tracked, secondsToTicks t.duration.number config.ticksPerSecond,
      holdTicks config t.actions, dispatch, remainEnabled⟩).Counts
        config.ticksPerSecond (.region t) := by
  have box : ∀ x ∈ (regionTest t tracked).lo.toList ++ (regionTest t tracked).hi.toList,
      x.isFinite := by
    simp only [regionTest, Containment.between, Triple.map, Triple.toList, List.forall_mem_append,
      List.forall_mem_cons]
    simp [Number.isFinite_min, Number.isFinite_max]
  obtain ⟨lo, hi⟩ := List.forall_mem_append.1 box
  refine ⟨fun x mem => ?_, fun s mem => ?_⟩
  · rcases Lua.mem_numbers_region.1 mem with low | high | rfl | rfl
    · exact .inl (lo x low)
    · exact .inl (hi x high)
    · exact .inr ⟨_, List.mem_cons_self, rfl⟩
    · exact .inr ⟨_, List.mem_cons_of_mem _ List.mem_cons_self, rfl⟩
  · rw [Lua.mem_numbers_region]
    rcases List.mem_cons.1 mem with rfl | mem
    · exact .inr (.inr (.inl rfl))
    · rw [List.mem_singleton.1 mem]
      exact .inr (.inr (.inr rfl))

theorem link_counts (carrier : String) (l : ClickLink) :
    (Program.link
      ⟨l.resetNumber, bindings config carrier 0 l.lists.entries, l.remainEnabled⟩).Counts
        config.ticksPerSecond (.link l) := by
  have bound := bindings_hold config carrier 0 l.lists.entries
  have entry : ∀ b ∈ bindings config carrier 0 l.lists.entries, ∃ e ∈ l.lists.entries,
      b.clicks = e.1 ∧ b.activeTicks = holdTicks config e.2 :=
    fun b mem => exists_of_forall₂ bound.flip mem
  have hold : ∀ b ∈ bindings config carrier 0 l.lists.entries, ∃ s ∈ (Record.link l).holds,
      b.activeTicks = secondsToTicks s.number config.ticksPerSecond := by
    intro b mem
    obtain ⟨e, listed, -, ticks⟩ := entry b mem
    exact ⟨_, List.mem_map_of_mem listed, ticks⟩
  refine ⟨fun x mem => ?_, fun s mem => ?_⟩
  · rcases Lua.mem_numbers_link.1 mem with rfl | ⟨b, bound, n, count, rfl | rfl⟩ | ⟨b, found, rfl⟩
    · exact .inl l.isFinite_resetNumber
    · obtain ⟨e, listed, same, -⟩ := entry b bound
      have proper := l.lists.proper e.1 (List.mem_map_of_mem listed)
      rw [← same, count] at proper
      exact .inl (ClickCount.isFinite_of_isProper proper)
    · exact .inr (hold b bound)
    · exact .inr (hold b (List.mem_of_find?_eq_some found))
  · obtain ⟨e, listed, rfl⟩ := List.mem_map.1 mem
    obtain ⟨b, bound, count, ticks⟩ := exists_of_forall₂ bound listed
    rw [Lua.mem_numbers_link]
    cases exact : b.clicks with
    | exactly n => exact .inr (.inl ⟨b, bound, n, exact, .inr ticks.symm⟩)
    | any =>
      -- No other list is bound to any click, so the first binding to it has the same ticks.
      have first : ((bindings config carrier 0 l.lists.entries).find? (·.clicks = .any)).isSome :=
        List.find?_isSome.2 ⟨b, bound, decide_eq_true exact⟩
      obtain ⟨b', found⟩ := Option.isSome_iff_exists.1 first
      obtain ⟨e', listed', count', ticks'⟩ := entry b' (List.mem_of_find?_eq_some found)
      have any' : b'.clicks = .any := by simpa using List.find?_some found
      have same : e' = e := List.inj_on_of_nodup_map l.lists.distinct listed' listed (by
        rw [← count', any', ← count, exact])
      exact .inr (.inr ⟨b', found, by rw [ticks', same]; rfl⟩)

end Blueprint

/-! ### Scripts of records -/

theorem Lua.isFinite_checked {P : Program} (printable : P.Printable) :
    ∀ x ∈ checked P, x.isFinite := by
  cases P with
  | timeline p =>
    rw [checked, List.forall_mem_append, List.forall_mem_singleton, List.forall_mem_flatMap]
    refine ⟨fun s scheduled => ?_, printable.1⟩
    exact List.forall_mem_map.2 fun _ _ => (printable.2 s scheduled).1
  | region p => exact printable
  | link p => exact List.forall_mem_nil _

/-- What is linked has a program with the numbers of its record. -/
theorem Subject.exists_counts {s : Subject} {config : Config} {scene : Scene}
    {blueprint : Blueprint} {log : List Log.Entry} (rate : config.ticksPerSecond.isFinite)
    (plan : s.blueprint config scene = .ok (blueprint, log)) :
    ∃ P, (s.graph config blueprint).program = .ok P ∧ P.Counts config.ticksPerSecond s.record := by
  cases s with
  | timeline t carrier =>
    cases plan
    refine ⟨_, Blueprint.timeline_program .., Blueprint.timeline_counts rate t _ fun s mem => ?_⟩
    obtain ⟨⟨e, i⟩, -, rfl⟩ := List.mem_map.1 mem
    rfl
  | region t carrier =>
    obtain ⟨tracked, -, plan⟩ := bind_eq_ok.1 plan
    cases plan
    exact ⟨_, Blueprint.region_program .., Blueprint.region_counts t tracked _ _⟩
  | link l object =>
    simp only [Subject.blueprint] at plan
    split at plan
    · cases plan
      exact ⟨_, Blueprint.link_program .., Blueprint.link_counts _ l⟩
    · cases plan

/-- Numbers of a record that are not finite are infinite ticks, and there are some exactly if one
of its spans does not fit. -/
theorem Program.Counts.overflow {P : Program} {x : Scalar} {record : Record}
    (counts : P.Counts (.scalar x) record) (positive : 0 < x.quanta) :
    (∀ y ∈ Lua.numbers P, y.isFinite ∨ y = .infinity false) ∧
    ((∀ y ∈ Lua.numbers P, y.isFinite) ↔ ∀ s ∈ record.spans, s.Fits (.scalar x)) := by
  refine ⟨fun y mem => ?_, ?_⟩
  · rcases counts.number y mem with finite | ⟨s, -, rfl⟩
    · exact .inl finite
    · by_cases fits : s.Fits (.scalar x)
      · exact .inl (Span.isFinite_ticks positive fits)
      · exact .inr (Span.ticks_eq_infinity positive fits)
  · rw [← record.holds_fit_iff positive]
    constructor
    · intro finite s mem
      exact (Span.isFinite_ticks_iff positive s).1 (finite _ (counts.ticks s mem))
    · intro fit y mem
      rcases counts.number y mem with finite | ⟨s, own, rfl⟩
      · exact finite
      · exact Span.isFinite_ticks positive (fit s own)

namespace Compilation

/-- **The numbers of scripts.**  A graph is refused for what it is missing, or its script is written,
and this exactly if the numbers that are checked are finite.  The words of a script name no number,
so a script has finite numbers only exactly if those that are not checked are finite too.  In the
script of a record every number is finite, or infinite ticks, and there are such ticks exactly if
the product of a span of the record with the tick rate overflows. -/
theorem script_numbers (g : Graph) :
    (∀ fault, Lua.emit g = .error fault → fault.kind = .precondition) ∧
    (∀ text, Lua.emit g = .ok text ↔
      ∃ P, g.program = .ok P ∧ (∀ x ∈ Lua.checked P, x.isFinite) ∧ text = Lua.render g P) ∧
    (∀ P, (∀ l ∈ Lua.lines P, ∀ p ∈ l, p.Plain) ∧ (∀ l ∈ Lua.functions P, Lua.NamesNoNumber l) ∧
      ((∀ x ∈ Lua.numbers P, x.isFinite) ↔
        (∀ x ∈ Lua.checked P, x.isFinite) ∧ ∀ x ∈ Lua.unchecked P, x.isFinite)) ∧
    (∀ (c : Compilation) (config : Config) (scene : Scene) (record : Record)
      (object : Option String), config.Valid → c.linkedGraph config scene record object = .ok g →
      ∃ P, g.program = .ok P ∧ Lua.emit g = .ok (Lua.render g P) ∧
        (∀ x ∈ Lua.numbers P, x.isFinite ∨ x = .infinity false) ∧
        ((∀ x ∈ Lua.numbers P, x.isFinite) ↔
          ∀ s ∈ record.spans, s.Fits config.ticksPerSecond)) := by
  refine ⟨fun fault => Lua.kind_of_emit, fun text => Lua.emit_eq_ok_iff,
    fun P => ⟨Lua.plain_lines P, Lua.functions_name_no_number P, Lua.numbers_finite_iff P⟩, ?_⟩
  intro c config scene record object valid linked
  obtain ⟨x, rate, positive⟩ := Number.exists_scalar_of_rate valid.1
  obtain ⟨P, program, -, printable⟩ := program_of_linkedGraph linked
  obtain ⟨subject, blueprint, log, made, plan, rfl⟩ := linkedGraph_eq_ok linked
  obtain ⟨P', program', counts⟩ := Subject.exists_counts (by rw [rate]; rfl) plan
  cases program.symm.trans program'
  rw [Subject.record_of_make made, rate] at counts
  have written := Lua.emit_eq_ok_iff.2 ⟨P, program, Lua.isFinite_checked printable, rfl⟩
  rw [rate]
  exact ⟨P, program, written, counts.overflow positive⟩

end Compilation

/-- A span of many years: 10³⁰⁸ seconds. -/
def vastSpan : Span := (Span.ofNumber? ((⟨1, 308⟩ : Decimal).toNumber false)).getD 0

theorem watch_isIdentifier : Text.isIdentifier "watch" := by decide

/-- The graph of a trigger that hides the door of the scene for some time. -/
def hidingGraph (duration : Span) : Except Fault Graph :=
  Compilation.linkedGraph { names := .empty } Config.standard doorScene
    (.region { name := ⟨"watch", watch_isIdentifier⟩, corner1 := ⟨0, 0, 0⟩, corner2 := ⟨0, 0, 0⟩,
               direction := .inside, tracked := .objects [doorTarget],
               actions := [.visibility doorTarget false duration], enabled := true,
               remainEnabled := true, duration := 0, detectAny := true }) none

/-- A graph of one node, which detects in a box without bounds. -/
def boundlessGraph : Graph where
  carrier := "boundless"
  kind := .region
  source := "boundless"
  script := "logic.boundless"
  nodes := [⟨"boundless.detect", .detect ⟨⟨0, .nan, 0⟩, ⟨0, 0, 0⟩, .inside, .any, []⟩⟩,
    ⟨"boundless.activate", .activate 0 0⟩]

/-- Every number in the script of a trigger that does not last is finite, and a box without bounds
is refused. -/
theorem hiding_numbers_finite :
    Config.standard.Valid ∧
    (∃ g P, hidingGraph 0 = .ok g ∧ Lua.emit g = .ok (Lua.render g P) ∧
      ∀ x ∈ Lua.numbers P, x.isFinite) ∧
    ∃ fault, Lua.emit boundlessGraph = .error fault ∧ fault.kind = .precondition := by
  have shown : (hidingGraph 0).map (·.script) = .ok "logic.trigger_watch" := by decide +kernel
  have boundless : Lua.emit boundlessGraph = .error (.notFinite .nan) := by decide +kernel
  obtain ⟨g, linked, -⟩ := exists_of_map_eq_ok shown
  obtain ⟨-, -, -, records⟩ := Compilation.script_numbers g
  obtain ⟨P, -, emitted, -, finite⟩ := records _ _ _ _ _ Config.standard_valid linked
  have fits : (0 : Span).Fits Config.standard.ticksPerSecond := by
    show ((0 : Span).number.mul Config.standard.ticksPerSecond).isFinite
    decide +kernel
  refine ⟨Config.standard_valid, ⟨g, P, linked, emitted, finite.2 ?_⟩, _, boundless,
    (Compilation.script_numbers boundlessGraph).1 _ boundless⟩
  exact List.forall_mem_cons.2 ⟨fits, List.forall_mem_singleton.2 fits⟩

/-- The ticks of a vast span are written as a name, and the script is handed out. -/
theorem overflowing_script :
    Config.standard.Valid ∧ ∃ g P text, hidingGraph vastSpan = .ok g ∧ g.program = .ok P ∧
      Lua.emit g = .ok text ∧
      text = "\n".intercalate (Lua.header g ::
        Lua.afterHeader ((Lua.lines P).map Lua.lineText ++ "" :: Lua.functions P)) ∧
      "local ACTIVE_TICKS = Infinity" ∈ (Lua.lines P).map Lua.lineText := by
  have shown : (hidingGraph vastSpan >>= Graph.program).map (fun P =>
      (decide (∀ x ∈ Lua.checked P, x.isFinite),
        decide ("local ACTIVE_TICKS = Infinity" ∈ (Lua.lines P).map Lua.lineText))) =
      .ok (true, true) := by
    decide +kernel
  obtain ⟨P, program, parts⟩ := exists_of_map_eq_ok shown
  obtain ⟨g, linked, program⟩ := bind_eq_ok.1 program
  obtain ⟨finite, line⟩ := Prod.mk.inj parts
  have written := Lua.emit_eq_ok_iff.2 ⟨P, program, of_decide_eq_true finite, rfl⟩
  exact ⟨Config.standard_valid, g, P, _, linked, program, written, rfl, of_decide_eq_true line⟩

end SceneLogic
