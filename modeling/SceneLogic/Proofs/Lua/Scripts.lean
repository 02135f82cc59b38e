/-
Scripts tell programs apart.

The constants of a script hold what is played of its graph, and nothing is lost when they are
written down: scripts of one kind with the same header are equal exactly if their programs are, the
signs of zeros and the place of the binding to any click apart (`Program.canonical`).

* `Lua.regionConstants_inj`, `Lua.linkConstants_inj`, `Lua.timelineConstants_inj` — the constants
  of each kind, compared line by line;
* `Lua.body_inj`, `Lua.emit_inj` — whole scripts;
* `Lua.parts_eq_program` — a script is written from what is played of its graph;
* `Subject.exists_program` — every linked graph has a program whose script can be written.
-/
import SceneLogic.Proofs.Compile.Dispatches
import SceneLogic.Proofs.Lua.Literals
namespace SceneLogic

/-! ### What a script tells -/

/-- The test, with one zero for both. -/
def Containment.unsigned (c : Containment) : Containment :=
  { c with lo := c.lo.map Number.unsigned, hi := c.hi.map Number.unsigned }

/-- The count, with one zero for both. -/
def ClickCount.unsigned : ClickCount → ClickCount
  | .any => .any
  | .exactly n => .exactly n.unsigned

/-- The binding, with one zero for both. -/
def ClickBinding.unsigned (b : ClickBinding) : ClickBinding where
  clicks := b.clicks.unsigned
  dispatch := b.dispatch
  activeTicks := b.activeTicks.unsigned

/-- The time with its dispatch nodes, with one zero for both. -/
def Scheduled.unsigned (s : Scheduled) : Scheduled := { s with time := s.time.unsigned }

/-- The bindings to counts in their order, and behind them the first to any click. -/
def ClickBinding.sorted (bindings : List ClickBinding) : List ClickBinding :=
  bindings.filter (·.clicks ≠ .any) ++ (bindings.find? (·.clicks = .any)).toList

/-- The program, with one zero for both and the binding to any click behind the others. -/
def Program.canonical : Program → Program
  | .timeline p =>
    .timeline ⟨p.ticksPerSecond.unsigned, p.lastTime.unsigned, p.schedule.map Scheduled.unsigned⟩
  | .region p =>
    .region ⟨p.test.unsigned, p.sustainTicks.unsigned, p.activeTicks.unsigned, p.dispatch,
      p.remainEnabled⟩
  | .link p =>
    .link ⟨p.reset.unsigned, (ClickBinding.sorted p.bindings).map ClickBinding.unsigned,
      p.remainEnabled⟩

/-- The kind of graph that a program is played of. -/
def Program.kind : Program → Graph.Kind
  | .timeline _ => .timeline
  | .region _ => .region
  | .link _ => .link

/-- A program can be written down: the corners of boxes and the times are finite, and every time
has one dispatch node. -/
def Program.Printable : Program → Prop
  | .timeline p => p.lastTime.isFinite ∧ ∀ s ∈ p.schedule, s.time.isFinite ∧ ∃ id, s.dispatch = [id]
  | .region p => ∀ x ∈ p.test.lo.toList ++ p.test.hi.toList, x.isFinite
  | .link _ => True

namespace Lua

theorem numeral_eq_ok {x : Number} (h : x.isFinite) : numeral x = .ok x.text := if_pos h

theorem flag_inj {a b : Bool} : flag a = flag b ↔ a = b := by
  revert a b
  decide

/-! ### Region triggers -/

/-- The constants of a region trigger whose box is finite. -/
theorem regionConstants_eq {p : RegionProgram} (h : (Program.region p).Printable) :
    regionConstants p = .ok
      ["local LO = " ++ listText (p.test.lo.toList.map Number.text),
        "local HI = " ++ listText (p.test.hi.toList.map Number.text),
        "local INSIDE = " ++ flag (p.test.side = .inside),
        "local DETECT_ANY = " ++ flag (p.test.aggregate = .any),
        "local OBJECTS = " ++ quotedList p.test.objects,
        "local SUSTAIN_TICKS = " ++ p.sustainTicks.text,
        "local ACTIVE_TICKS = " ++ p.activeTicks.text,
        "local REMAIN_ENABLED = " ++ flag p.remainEnabled,
        "local DISPATCH = " ++ quotedList p.dispatch] := by
  rw [regionConstants, mapM_eq_ok fun x hx => numeral_eq_ok (h x (List.mem_append_left _ hx)),
    mapM_eq_ok fun x hx => numeral_eq_ok (h x (List.mem_append_right _ hx))]
  rfl

theorem map_toList_inj {f : Number → Number} {t u : Triple Number} :
    t.toList.map f = u.toList.map f ↔ t.map f = u.map f := by
  simp [Triple.toList, Triple.map]

theorem side_inj {s t : Side} : decide (s = .inside) = decide (t = .inside) ↔ s = t := by
  cases s <;> cases t <;> decide

theorem aggregate_inj {a b : Aggregate} : decide (a = .any) = decide (b = .any) ↔ a = b := by
  cases a <;> cases b <;> decide

/-- The constants of a region trigger tell all that is played of it. -/
theorem regionConstants_inj {p q : RegionProgram} (hp : (Program.region p).Printable)
    (hq : (Program.region q).Printable) :
    regionConstants p = regionConstants q ↔
      (Program.region p).canonical = (Program.region q).canonical := by
  rw [regionConstants_eq hp, regionConstants_eq hq]
  simp only [Except.ok.injEq, List.cons.injEq, String.append_right_inj, listText_text_inj,
    map_toList_inj, flag_inj, side_inj, aggregate_inj, quotedList_inj, Number.text_inj, and_true,
    Program.canonical, Containment.unsigned, Program.region.injEq, RegionProgram.mk.injEq,
    Containment.mk.injEq, and_assoc]
  tauto

/-! ### Tables with an entry on each line -/

/-- An empty table takes one line, and every other one more lines than it has entries. -/
theorem tableConstant_inj {name : String} {xs ys : List String} :
    tableConstant name xs = tableConstant name ys ↔ xs = ys := by
  constructor
  · intro h
    rw [tableConstant, tableConstant] at h
    split at h <;> split at h
    · next none none' => rw [none, none']
    · simp at h
    · simp at h
    · exact List.append_cancel_right (List.cons.inj h).2
  · rintro rfl
    rfl

/-! ### Links -/

theorem toList_bindingText (b : ClickBinding) : (bindingText b).toList =
    "\x7bactive = ".toList ++ (b.activeTicks.text.toList ++
      (", ids = ".toList ++ ((quotedList b.dispatch).toList ++ ['\x7d']))) := by
  simp [bindingText]

theorem bindingText_append_inj {a b : ClickBinding} {r r' : List Char}
    (h : (bindingText a).toList ++ r = (bindingText b).toList ++ r') :
    a.activeTicks.unsigned = b.activeTicks.unsigned ∧ a.dispatch = b.dispatch ∧ r = r' := by
  rw [toList_bindingText, toList_bindingText] at h
  simp only [List.append_assoc] at h
  have comma : ∀ u : List Char, Ends (", ids = ".toList ++ u) := by
    rintro u c ⟨⟩
    exact Or.inl rfl
  obtain ⟨ticks, h⟩ := Number.text_append_inj (comma _) (comma _) (List.append_cancel_left h)
  obtain ⟨dispatch, h⟩ := quotedList_append_inj (List.append_cancel_left h)
  exact ⟨ticks, dispatch, List.append_cancel_left h⟩

/-- The table of a binding tells all of it but the count it is bound to. -/
theorem bindingText_inj {a b : ClickBinding} : bindingText a = bindingText b ↔
    a.activeTicks.unsigned = b.activeTicks.unsigned ∧ a.dispatch = b.dispatch := by
  constructor
  · intro h
    have := bindingText_append_inj (congrArg (fun s => s.toList ++ []) h)
    exact ⟨this.1, this.2.1⟩
  · rintro ⟨ticks, dispatch⟩
    rw [bindingText, bindingText, Number.text_inj.2 ticks, dispatch]

/-- The line of a binding to a count. -/
def numberedLine (b : ClickBinding) : String := "  [" ++ b.clicks.text ++ "] = " ++ bindingText b ++ ","

theorem filterMap_numberedLine? (bindings : List ClickBinding) :
    bindings.filterMap numberedLine? = (bindings.filter (·.clicks ≠ .any)).map numberedLine := by
  induction bindings with
  | nil => rfl
  | cons b bindings ih =>
    rw [List.filterMap_cons, List.filter_cons, ih]
    cases b with
    | mk clicks dispatch activeTicks => cases clicks <;> rfl

theorem numberedLine_inj {a b : ClickBinding} (ha : a.clicks ≠ .any) (hb : b.clicks ≠ .any) :
    numberedLine a = numberedLine b ↔ a.unsigned = b.unsigned := by
  obtain ⟨⟨⟩ | m, dispatch, ticks⟩ := a
  · exact absurd rfl ha
  obtain ⟨⟨⟩ | n, dispatch', ticks'⟩ := b
  · exact absurd rfl hb
  simp only [ClickBinding.unsigned, ClickCount.unsigned, ClickBinding.mk.injEq,
    ClickCount.exactly.injEq]
  constructor
  · intro h
    have chars := congrArg String.toList h
    simp only [numberedLine, ClickCount.text, String.toList_append, List.append_assoc] at chars
    have bracket : ∀ u : List Char, Ends ("] = ".toList ++ u) := by
      rintro u c ⟨⟩
      exact Or.inr (Or.inl rfl)
    obtain ⟨count, chars⟩ :=
      Number.text_append_inj (bracket _) (bracket _) (List.append_cancel_left chars)
    obtain ⟨length, nodes, -⟩ := bindingText_append_inj (List.append_cancel_left chars)
    exact ⟨count, nodes, length⟩
  · rintro ⟨count, nodes, length⟩
    have table : bindingText ⟨.exactly m, dispatch, ticks⟩ =
        bindingText ⟨.exactly n, dispatch', ticks'⟩ := bindingText_inj.2 ⟨length, nodes⟩
    rw [numberedLine, numberedLine, ClickCount.text, ClickCount.text, Number.text_inj.2 count, table]

theorem anyBindingText_inj {as bs : List ClickBinding} :
    anyBindingText as = anyBindingText bs ↔
      (as.find? (·.clicks = .any)).map ClickBinding.unsigned =
        (bs.find? (·.clicks = .any)).map ClickBinding.unsigned := by
  have any : ∀ {xs : List ClickBinding} {b}, xs.find? (·.clicks = .any) = some b →
      b.clicks = .any := by
    intro xs b h
    simpa using List.find?_some h
  have brace : ∀ b : ClickBinding, bindingText b ≠ "nil" := by
    intro b h
    have chars := congrArg (fun s => s.toList.head?) h
    rw [toList_bindingText] at chars
    exact absurd chars (by simp)
  rw [anyBindingText, anyBindingText]
  cases ha : as.find? (·.clicks = .any) with
  | none =>
    cases hb : bs.find? (·.clicks = .any) with
    | none => simp
    | some b => simpa using (brace b).symm
  | some a =>
    cases hb : bs.find? (·.clicks = .any) with
    | none => simpa using brace a
    | some b =>
      simp only [bindingText_inj, Option.map_some, Option.some.injEq, ClickBinding.unsigned, any ha,
        any hb, ClickBinding.mk.injEq, true_and]
      exact and_comm

theorem unsigned_clicks (b : ClickBinding) : b.unsigned.clicks = .any ↔ b.clicks = .any := by
  obtain ⟨⟨⟩ | n, dispatch, ticks⟩ := b <;> simp [ClickBinding.unsigned, ClickCount.unsigned]

/-- Sorted bindings hold those to counts, and the first to any click. -/
theorem sorted_inj {as bs : List ClickBinding} :
    (ClickBinding.sorted as).map ClickBinding.unsigned =
        (ClickBinding.sorted bs).map ClickBinding.unsigned ↔
      (as.filter (·.clicks ≠ .any)).map ClickBinding.unsigned =
          (bs.filter (·.clicks ≠ .any)).map ClickBinding.unsigned ∧
        (as.find? (·.clicks = .any)).map ClickBinding.unsigned =
          (bs.find? (·.clicks = .any)).map ClickBinding.unsigned := by
  have numbered : ∀ xs : List ClickBinding,
      ((ClickBinding.sorted xs).map ClickBinding.unsigned).filter (·.clicks ≠ .any) =
        (xs.filter (·.clicks ≠ .any)).map ClickBinding.unsigned := by
    intro xs
    have same : (fun b => decide (b.clicks ≠ .any)) ∘ ClickBinding.unsigned =
        fun b => decide (b.clicks ≠ .any) := by
      funext b
      simp [unsigned_clicks]
    have none : (xs.find? (·.clicks = .any)).toList.filter (·.clicks ≠ .any) = [] := by
      rw [List.filter_eq_nil_iff]
      intro b hb
      simpa using List.find?_some (Option.mem_toList.1 hb)
    rw [List.filter_map, same, ClickBinding.sorted, List.filter_append, List.filter_filter, none]
    simp
  have any : ∀ xs : List ClickBinding,
      ((ClickBinding.sorted xs).map ClickBinding.unsigned).find? (·.clicks = .any) =
        (xs.find? (·.clicks = .any)).map ClickBinding.unsigned := by
    intro xs
    have same : (fun b => decide (b.clicks = .any)) ∘ ClickBinding.unsigned =
        fun b => decide (b.clicks = .any) := by
      funext b
      simp [unsigned_clicks]
    have none : (xs.filter (·.clicks ≠ .any)).find? (·.clicks = .any) = none := by
      rw [List.find?_eq_none]
      intro b hb
      simpa using (List.mem_filter.1 hb).2
    rw [List.find?_map, same, ClickBinding.sorted, List.find?_append, none, Option.none_or]
    cases h : xs.find? (·.clicks = .any) with
    | none => rfl
    | some b =>
      have found := List.find?_some h
      rw [Option.toList_some, List.find?_cons, found]
  constructor
  · intro h
    exact ⟨by rw [← numbered, h, numbered], by rw [← any, h, any]⟩
  · rintro ⟨counts, rest⟩
    rw [ClickBinding.sorted, ClickBinding.sorted, List.map_append, List.map_append, counts,
      ← Option.toList_map, ← Option.toList_map, rest]

/-- The constants of a link tell all that is played of it, but not where among the others the
binding to any click stands. -/
theorem linkConstants_inj {p q : LinkProgram} :
    linkConstants p = linkConstants q ↔ (Program.link p).canonical = (Program.link q).canonical := by
  have lines : ∀ p : LinkProgram, linkConstants p =
      ("local RESET = " ++ p.reset.text) :: ("local REMAIN_ENABLED = " ++ flag p.remainEnabled) ::
        (tableConstant "ACTIONS" (p.bindings.filterMap numberedLine?) ++
          ["local ANY = " ++ anyBindingText p.bindings]) := fun p => rfl
  have numbered : p.bindings.filterMap numberedLine? = q.bindings.filterMap numberedLine? ↔
      (p.bindings.filter (·.clicks ≠ .any)).map ClickBinding.unsigned =
        (q.bindings.filter (·.clicks ≠ .any)).map ClickBinding.unsigned := by
    rw [filterMap_numberedLine?, filterMap_numberedLine?]
    refine map_eq_map_congr fun a ha b hb => numberedLine_inj ?_ ?_
    · simpa using (List.mem_filter.1 ha).2
    · simpa using (List.mem_filter.1 hb).2
  have last : ∀ {xs ys : List String} {a b : String}, xs ++ [a] = ys ++ [b] ↔ xs = ys ∧ a = b := by
    intro xs ys a b
    simp
  rw [lines, lines, List.cons.injEq, List.cons.injEq, last, tableConstant_inj, numbered,
    String.append_right_inj, String.append_right_inj, String.append_right_inj, Number.text_inj,
    flag_inj, anyBindingText_inj]
  simp only [Program.canonical, Program.link.injEq, LinkProgram.mk.injEq, sorted_inj]
  tauto

/-! ### Timelines -/

/-- The line of a time that has one dispatch node. -/
def entryLine (s : Scheduled) : String :=
  "  \x7btime = " ++ s.time.text ++ ", id = " ++ quote (s.dispatch.headD "") ++ "\x7d,"

theorem scheduledLines_eq {s : Scheduled} (finite : s.time.isFinite)
    (single : ∃ id, s.dispatch = [id]) : scheduledLines s = .ok [entryLine s] := by
  obtain ⟨time, dispatch⟩ := s
  obtain ⟨id, rfl⟩ := single
  rw [scheduledLines, List.mapM_cons, numeral_eq_ok finite]
  rfl

theorem entryLine_inj {s t : Scheduled} (hs : ∃ id, s.dispatch = [id])
    (ht : ∃ id, t.dispatch = [id]) : entryLine s = entryLine t ↔ s.unsigned = t.unsigned := by
  obtain ⟨time, dispatch⟩ := s
  obtain ⟨time', dispatch'⟩ := t
  obtain ⟨id, rfl⟩ := hs
  obtain ⟨id', rfl⟩ := ht
  simp only [Scheduled.unsigned, Scheduled.mk.injEq, List.cons.injEq, and_true]
  constructor
  · intro h
    have chars := congrArg String.toList h
    simp only [entryLine, String.toList_append, List.append_assoc, List.headD_cons,
      toList_quote] at chars
    have comma : ∀ u : List Char, Ends (", id = ".toList ++ u) := by
      rintro u c ⟨⟩
      exact Or.inl rfl
    obtain ⟨same, chars⟩ :=
      Number.text_append_inj (comma _) (comma _) (List.append_cancel_left chars)
    exact ⟨same, String.toList_inj.1 (quoteChars_append_inj (List.append_cancel_left chars)).1⟩
  · rintro ⟨same, rfl⟩
    rw [entryLine, entryLine, Number.text_inj.2 same]

/-- The constants of a timeline whose times are finite and have one dispatch node each. -/
theorem timelineConstants_eq {p : TimelineProgram} (h : (Program.timeline p).Printable) :
    timelineConstants p = .ok
      (["local TICKS_PER_SECOND = " ++ p.ticksPerSecond.text,
        "local LAST_TIME = " ++ p.lastTime.text] ++
        tableConstant "SCHEDULE" (p.schedule.map entryLine)) := by
  have entries : p.schedule.mapM scheduledLines = .ok (p.schedule.map fun s => [entryLine s]) :=
    mapM_eq_ok fun s hs => scheduledLines_eq (h.2 s hs).1 (h.2 s hs).2
  have single : (p.schedule.map fun s => [entryLine s]).flatten = p.schedule.map entryLine := by
    rw [← List.flatMap_def, List.map_eq_flatMap]
  rw [timelineConstants, entries, numeral_eq_ok h.1, ← single]
  rfl

/-- The constants of a timeline tell all that is played of it. -/
theorem timelineConstants_inj {p q : TimelineProgram} (hp : (Program.timeline p).Printable)
    (hq : (Program.timeline q).Printable) :
    timelineConstants p = timelineConstants q ↔
      (Program.timeline p).canonical = (Program.timeline q).canonical := by
  have entries : p.schedule.map entryLine = q.schedule.map entryLine ↔
      p.schedule.map Scheduled.unsigned = q.schedule.map Scheduled.unsigned :=
    map_eq_map_congr fun s hs t ht => entryLine_inj (hp.2 s hs).2 (hq.2 t ht).2
  rw [timelineConstants_eq hp, timelineConstants_eq hq]
  simp only [Except.ok.injEq, List.cons_append, List.nil_append, List.cons.injEq,
    String.append_right_inj, Number.text_inj, tableConstant_inj, entries, Program.canonical,
    Program.timeline.injEq, TimelineProgram.mk.injEq]

/-! ### Whole scripts -/

theorem isLine_bindingText (b : ClickBinding) : isLine (bindingText b) := by
  simp only [bindingText, isLine_append, isLine_text, isLine_quotedList, Bool.and_true]
  decide

theorem isLine_anyBindingText (bindings : List ClickBinding) : isLine (anyBindingText bindings) := by
  rw [anyBindingText]
  split
  · exact isLine_bindingText _
  · decide

theorem isLine_named {name value : String} (named : isLine name) (h : isLine value) :
    isLine (name ++ value) := by
  rw [isLine_append, named, h]
  rfl

theorem isLine_tableConstant {name : String} {lines : List String} (named : isLine name)
    (h : ∀ l ∈ lines, isLine l) : ∀ l ∈ tableConstant name lines, isLine l := by
  have ends : isLine ("local " ++ name ++ " = \x7b\x7d") ∧ isLine ("local " ++ name ++ " = \x7b") ∧
      isLine "\x7d" := by
    rw [isLine_append, isLine_append, isLine_append, isLine_append, named]
    decide
  intro l hl
  rw [tableConstant] at hl
  split at hl
  · rw [List.mem_singleton.1 hl]
    exact ends.1
  · rw [List.cons_append, List.mem_cons, List.mem_append] at hl
    rcases hl with rfl | hl | hl
    · exact ends.2.1
    · exact h l hl
    · rw [List.mem_singleton.1 hl]
      exact ends.2.2

/-- What stands behind the constants of a program. -/
def functions : Program → List String
  | .region _ => regionFunctions
  | .link _ => linkFunctions
  | .timeline _ => timelineFunctions

/-- The constants of a program. -/
def constants : Program → Except Fault (List String)
  | .region p => regionConstants p
  | .link p => .ok (linkConstants p)
  | .timeline p => timelineConstants p

theorem body_eq (P : Program) :
    body P = (constants P).map fun lines => lines ++ "" :: functions P := by
  cases P with
  | timeline p =>
    rw [body, constants]
    cases timelineConstants p <;> rfl
  | region p =>
    rw [body, constants]
    cases regionConstants p <;> rfl
  | link p => rfl

theorem isLine_shared : (∀ l ∈ countDown, isLine l) ∧ ∀ l ∈ fire, isLine l := by
  simp only [countDown, fire, List.forall_mem_cons]
  repeat' apply And.intro
  all_goals first | exact isLine_ofList rfl | exact List.forall_mem_nil _

theorem isLine_functions (P : Program) : ∀ l ∈ functions P, isLine l := by
  obtain ⟨down, fired⟩ := isLine_shared
  cases P
  all_goals
    simp only [functions, timelineFunctions, regionFunctions, linkFunctions,
      List.forall_mem_append, List.forall_mem_cons]
    repeat' apply And.intro
    all_goals first | exact isLine_ofList rfl | assumption | exact List.forall_mem_nil _

theorem isLine_constants {P : Program} (h : P.Printable) :
    ∃ lines, constants P = .ok lines ∧ ∀ l ∈ lines, isLine l := by
  cases P with
  | timeline p =>
    refine ⟨_, timelineConstants_eq h, ?_⟩
    have entries : ∀ l ∈ p.schedule.map entryLine, isLine l := by
      intro l hl
      obtain ⟨s, -, rfl⟩ := List.mem_map.1 hl
      simp only [entryLine, isLine_append, isLine_text, isLine_quote, Bool.and_true]
      decide
    simp only [List.forall_mem_append, List.forall_mem_cons, isLine_append, isLine_text,
      Bool.and_true]
    exact ⟨by decide, isLine_tableConstant (by decide) entries⟩
  | region p =>
    refine ⟨_, regionConstants_eq h, ?_⟩
    simp only [List.forall_mem_cons, isLine_append, isLine_numbers, isLine_flag, isLine_quotedList,
      isLine_text, Bool.and_true]
    decide +kernel
  | link p =>
    refine ⟨_, rfl, ?_⟩
    have numbered : ∀ l ∈ p.bindings.filterMap numberedLine?, isLine l := by
      intro l hl
      rw [filterMap_numberedLine?] at hl
      obtain ⟨b, -, rfl⟩ := List.mem_map.1 hl
      rw [numberedLine, isLine_append, isLine_append, isLine_append, isLine_append,
        isLine_bindingText]
      cases b.clicks with
      | any => decide
      | exactly n =>
        rw [ClickCount.text, isLine_text]
        decide
    rw [linkConstants]
    simp only [List.forall_mem_append, List.forall_mem_cons]
    refine ⟨⟨⟨isLine_named (by decide) (isLine_text _), isLine_named (by decide) (isLine_flag _), ?_⟩,
      isLine_tableConstant (by decide) numbered⟩, isLine_named (by decide) ?_, ?_⟩
    · simp
    · exact isLine_anyBindingText _
    · simp

theorem isLine_body {P : Program} (h : P.Printable) :
    ∃ lines, body P = .ok lines ∧ ∀ l ∈ lines, isLine l := by
  obtain ⟨lines, written, all⟩ := isLine_constants h
  refine ⟨lines ++ "" :: functions P, by rw [body_eq, written]; rfl, ?_⟩
  rw [List.forall_mem_append, List.forall_mem_cons]
  exact ⟨all, by decide, isLine_functions P⟩

/-- The bodies of scripts of one kind tell what is played of their graphs. -/
theorem body_inj {P Q : Program} (kind : P.kind = Q.kind) (hP : P.Printable) (hQ : Q.Printable) :
    body P = body Q ↔ P.canonical = Q.canonical := by
  obtain ⟨xs, written, -⟩ := isLine_constants hP
  obtain ⟨ys, written', -⟩ := isLine_constants hQ
  have same : functions P = functions Q := by
    cases P <;> cases Q <;> first | rfl | cases kind
  have constants_only : body P = body Q ↔ constants P = constants Q := by
    rw [body_eq, body_eq, written, written', same]
    show Except.ok _ = Except.ok _ ↔ _
    rw [Except.ok.injEq, Except.ok.injEq, List.append_left_inj]
  rw [constants_only]
  cases P <;> cases Q <;> cases kind
  · exact timelineConstants_inj hP hQ
  · exact regionConstants_inj hP hQ
  · exact (Except.ok.injEq _ _).to_iff.trans linkConstants_inj

theorem dispatchIds_eq (g : Graph) (id : String) : dispatchIds g id = g.dispatchTargets id := by
  refine List.filter_congr fun target _ => ?_
  rw [Graph.action?]
  cases g.node? target with
  | none => rfl
  | some n =>
    obtain ⟨id, role⟩ := n
    cases role <;> rfl

theorem remainsEnabled_eq (g : Graph) : remainsEnabled g = g.remainsEnabled := by
  rw [remainsEnabled, Graph.remainsEnabled]
  cases g.nodesOf .disable <;> rfl

theorem regionParts_eq (g : Graph) : regionParts g = g.regionProgram := by
  simp only [regionParts, Graph.regionProgram, Graph.test, Graph.activation, dispatchIds_eq,
    remainsEnabled_eq]
  generalize g.firstOf? .detect = detecting, g.firstOf? .activate = activating
  obtain _ | ⟨_, role⟩ := detecting
  · rfl
  cases role with
  | detect test =>
    obtain _ | ⟨_, role⟩ := activating
    · rfl
    cases role <;> rfl
  | _ => rfl

theorem linkParts_eq (g : Graph) : linkParts g = g.linkProgram := by
  simp only [linkParts, Graph.linkProgram, Graph.clicks, remainsEnabled_eq]
  obtain _ | ⟨_, role⟩ := g.firstOf? .click
  · rfl
  cases role <;> rfl

theorem timelineParts_eq (g : Graph) : timelineParts g = g.timelineProgram := by
  simp only [timelineParts, Graph.timelineProgram, Graph.clock, Graph.schedule, dispatchIds_eq]
  obtain _ | ⟨_, role⟩ := g.firstOf? .clock
  · rfl
  cases role <;> rfl

/-- A script is written from what is played of its graph, and fails as this does if a node is
missing. -/
theorem parts_eq_program (g : Graph) : parts g = g.program := by
  rw [parts, Graph.program, regionParts_eq, linkParts_eq, timelineParts_eq]
  cases g.kind <;> rfl

theorem emit_eq {g : Graph} {P : Program} {lines : List String} (program : g.program = .ok P)
    (written : body P = .ok lines) :
    emit g = .ok (header g ++ "\n" ++ "\n".intercalate (afterHeader lines)) := by
  rw [emit, parts_eq_program, program]
  show (body P >>= _) = _
  rw [written]
  show Except.ok ("\n".intercalate (header g :: "" :: _)) = _
  rw [String.intercalate_cons_cons]
  rfl

/-- No line behind the header holds a line break. -/
theorem isLine_afterHeader {lines : List String} (h : ∀ l ∈ lines, isLine l) :
    ∀ l ∈ afterHeader lines, isLine l := by
  rw [afterHeader, List.forall_mem_append, List.forall_mem_append]
  exact ⟨⟨by decide, h⟩, by decide⟩

/-- **Scripts tell programs apart.**  Scripts of one kind with the same header are equal exactly if
what is played of their graphs is the same. -/
theorem emit_inj {g g' : Graph} {P Q : Program} (program : g.program = .ok P)
    (program' : g'.program = .ok Q) (kind : P.kind = Q.kind) (hP : P.Printable) (hQ : Q.Printable)
    (head : header g = header g') : ∃ text text', emit g = .ok text ∧ emit g' = .ok text' ∧
      (text = text' ↔ P.canonical = Q.canonical) := by
  obtain ⟨xs, written, lines⟩ := isLine_body hP
  obtain ⟨ys, written', lines'⟩ := isLine_body hQ
  refine ⟨_, _, emit_eq program written, emit_eq program' written', ?_⟩
  rw [head, String.append_right_inj, ← body_inj kind hP hQ, written, written', Except.ok.injEq]
  constructor
  · intro same
    have all := lines_inj (isLine_afterHeader lines) (isLine_afterHeader lines') (by simp [afterHeader])
      (by simp [afterHeader]) same
    rw [afterHeader, afterHeader, List.append_left_inj, List.append_right_inj] at all
    exact all
  · rintro rfl
    rfl

end Lua

/-! ### Linked graphs -/

theorem Number.isFinite_min {x y : Scalar} : (Number.min x y).isFinite := by
  rw [Number.min, if_neg (by simp)]
  split <;> rfl

theorem Number.isFinite_max {x y : Scalar} : (Number.max x y).isFinite := by
  rw [Number.max, if_neg (by simp)]
  split <;> rfl

/-- What is linked has a program, and one that can be written down. -/
theorem Subject.exists_program {s : Subject} {config : Config} {scene : Scene}
    {blueprint : Blueprint} {log : List Log.Entry}
    (plan : s.blueprint config scene = .ok (blueprint, log)) :
    ∃ P, (s.graph config blueprint).program = .ok P ∧ P.kind = s.kind ∧ P.Printable := by
  cases s with
  | timeline t carrier =>
    cases plan
    refine ⟨_, Blueprint.timeline_program .., rfl, rfl, ?_⟩
    intro entry hentry
    obtain ⟨⟨e, i⟩, -, rfl⟩ := List.mem_map.1 hentry
    exact ⟨rfl, _, rfl⟩
  | region t carrier =>
    obtain ⟨tracked, -, plan⟩ := bind_eq_ok.1 plan
    cases plan
    refine ⟨_, Blueprint.region_program .., rfl, ?_⟩
    simp only [Program.Printable, Blueprint.regionTest, Containment.between, Triple.map,
      Triple.toList, List.forall_mem_append, List.forall_mem_cons]
    simp [Number.isFinite_min, Number.isFinite_max]
  | link l object =>
    simp only [Subject.blueprint] at plan
    split at plan
    · cases plan
      exact ⟨_, Blueprint.link_program .., rfl, trivial⟩
    · cases plan

namespace Compilation

variable {c c' : Compilation} {config config' : Config} {scene scene' : Scene}
  {record record' : Record} {object object' : Option String} {g g' : Graph}

theorem program_of_linkedGraph (h : c.linkedGraph config scene record object = .ok g) :
    ∃ P, g.program = .ok P ∧ P.kind = g.kind ∧ P.Printable := by
  obtain ⟨subject, blueprint, log, -, plan, rfl⟩ := linkedGraph_eq_ok h
  exact Subject.exists_program plan

/-- **The script and the program of a graph determine each other.**  Two linked graphs of one kind,
with the same source and the same script name, get the same script exactly if what is played of
them is the same. -/
theorem script_eq_iff (h : c.linkedGraph config scene record object = .ok g)
    (h' : c'.linkedGraph config' scene' record' object' = .ok g') (kind : g.kind = g'.kind)
    (source : g.source = g'.source) (script : g.script = g'.script) :
    ∃ text text' P P', Lua.emit g = .ok text ∧ Lua.emit g' = .ok text' ∧
      g.program = .ok P ∧ g'.program = .ok P' ∧ (text = text' ↔ P.canonical = P'.canonical) := by
  obtain ⟨P, program, kind_eq, printable⟩ := program_of_linkedGraph h
  obtain ⟨P', program', kind_eq', printable'⟩ := program_of_linkedGraph h'
  have head : Lua.header g = Lua.header g' := by
    rw [Lua.header, Lua.header, kind, source, script]
  obtain ⟨text, text', written, written', same⟩ := Lua.emit_inj program program'
    (by rw [kind_eq, kind_eq', kind]) printable printable' head
  exact ⟨text, text', P, P', written, written', program, program', same⟩

end Compilation

/-- The graph of the link on a door, with some flags changed. -/
def doorGraph (enabled remainEnabled : Bool) : Except Fault Graph :=
  Compilation.linkedGraph { names := .empty } Compilation.plainConfig doorScene
    (.link { doorLink with enabled, remainEnabled }) (some "door")

/-- The program is that of a link that stays enabled, or of one that does not. -/
def Program.staysEnabled (remainEnabled : Bool) : Program → Bool
  | .link p => p.remainEnabled == remainEnabled
  | _ => false

/-- Whether a link is enabled at first does not show in its script, but whether it stays enabled
does. -/
theorem doorGraph_scripts :
    ∃ g g' g'' text text' text'', doorGraph true false = .ok g ∧ doorGraph false false = .ok g' ∧
      doorGraph true true = .ok g'' ∧ Lua.emit g = .ok text ∧ Lua.emit g' = .ok text' ∧
      Lua.emit g'' = .ok text'' ∧ text = text' ∧ text ≠ text'' := by
  have heads : ∀ enabled remainEnabled, (doorGraph enabled remainEnabled).map
      (fun g => (g.kind, g.source, g.script)) = .ok (.link, "door", "logic.link_door") := by
    decide +kernel
  have programs : ∀ remainEnabled,
      (doorGraph true remainEnabled >>= Graph.program) =
        (doorGraph false remainEnabled >>= Graph.program) ∧
      (doorGraph true remainEnabled >>= Graph.program).toOption.any
        (Program.staysEnabled remainEnabled) := by
    decide +kernel
  have linked : ∀ enabled remainEnabled, ∃ g, doorGraph enabled remainEnabled = .ok g ∧
      (g.kind, g.source, g.script) = (.link, "door", "logic.link_door") := by
    intro enabled remainEnabled
    have head := heads enabled remainEnabled
    cases h : doorGraph enabled remainEnabled with
    | error fault =>
      rw [h] at head
      cases head
    | ok g =>
      rw [h] at head
      exact ⟨g, rfl, Except.ok.inj head⟩
  obtain ⟨g, h, head⟩ := linked true false
  obtain ⟨g', h', head'⟩ := linked false false
  obtain ⟨g'', h'', head''⟩ := linked true true
  simp only [Prod.mk.injEq] at head head' head''
  obtain ⟨text, text', P, P', written, written', program, program', same⟩ :=
    Compilation.script_eq_iff h h' (by rw [head.1, head'.1]) (by rw [head.2.1, head'.2.1])
      (by rw [head.2.2, head'.2.2])
  obtain ⟨text₁, text'', P₁, P'', written₁, written'', program₁, program'', different⟩ :=
    Compilation.script_eq_iff h h'' (by rw [head.1, head''.1]) (by rw [head.2.1, head''.2.1])
      (by rw [head.2.2, head''.2.2])
  cases written.symm.trans written₁
  cases program.symm.trans program₁
  refine ⟨g, g', g'', text, text', text'', h, h', h'', written, written', written'', ?_, ?_⟩
  · have equal := (programs false).1
    rw [h, h'] at equal
    cases program.symm.trans (equal.trans program')
    exact same.2 rfl
  · intro equal
    have remains := (programs false).2
    have remains'' := (programs true).2
    rw [h] at remains
    rw [h''] at remains''
    change g.program.toOption.any _ at remains
    change g''.program.toOption.any _ at remains''
    rw [program] at remains
    rw [program''] at remains''
    have canonical := different.1 equal
    cases P <;> cases P'' <;> simp_all [Program.canonical, Program.staysEnabled, Except.toOption]

end SceneLogic
