/-
The numbers of a script.

The constants of a script are lines that are put together from words of its own, quoted texts and
numbers (`Lua.lines`).  Box bounds and the times of a timeline are checked before anything is
written, and nothing else of a program can be refused (`Lua.constants_eq`), so a script is written
exactly if these are finite (`Lua.emit_eq_ok_iff`).  All other numbers are written as they are
(`Lua.mem_numbers_iff`); which these are is told kind by kind (`Lua.mem_numbers_region`,
`Lua.mem_numbers_link`, `Lua.mem_numbers_timeline`).  The words of a script hold neither of the
names that stand for numbers which are not finite (`Lua.plain_lines`).
-/
import SceneLogic.Proofs.Lua.Scripts
import SceneLogic.Proofs.Number.Overflow
namespace SceneLogic

attribute [local irreducible] quantaPerUnit quantaLimit

namespace Lua

/-! ### Lines in pieces -/

/-- A piece of a line. -/
inductive Piece where
  /-- Words of the script's own. -/
  | words (s : String)
  /-- A text in quotes. -/
  | quoted (s : String)
  | number (x : Number)

namespace Piece

/-- A piece as it is written. -/
def text : Piece → String
  | words s => s
  | quoted s => quote s
  | number x => x.text

/-- The number that a piece is. -/
def number? : Piece → Option Number
  | number x => some x
  | _ => none

end Piece

/-- A line as it is written. -/
def lineText : List Piece → String
  | [] => ""
  | p :: ps => p.text ++ lineText ps

/-- Pieces with commas between them. -/
def separated : List Piece → List Piece
  | [] => []
  | [p] => [p]
  | p :: ps => p :: .words ", " :: separated ps

/-- A table of items. -/
def table (items : List Piece) : List Piece :=
  .words "\x7b" :: (separated items ++ [.words "\x7d"])

/-- A constant that is a table with an entry on each line. -/
def tableLines (name : String) (entries : List (List Piece)) : List (List Piece) :=
  if entries.isEmpty then [[.words "local ", .words name, .words " = \x7b\x7d"]]
  else [.words "local ", .words name, .words " = \x7b"] :: (entries ++ [[.words "\x7d"]])

/-- The constants of a region trigger. -/
def regionLines (p : RegionProgram) : List (List Piece) :=
  [.words "local LO = " :: table (p.test.lo.toList.map .number),
    .words "local HI = " :: table (p.test.hi.toList.map .number),
    [.words "local INSIDE = ", .words (flag (p.test.side = .inside))],
    [.words "local DETECT_ANY = ", .words (flag (p.test.aggregate = .any))],
    .words "local OBJECTS = " :: table (p.test.objects.map .quoted),
    [.words "local SUSTAIN_TICKS = ", .number p.sustainTicks],
    [.words "local ACTIVE_TICKS = ", .number p.activeTicks],
    [.words "local REMAIN_ENABLED = ", .words (flag p.remainEnabled)],
    .words "local DISPATCH = " :: table (p.dispatch.map .quoted)]

/-- The table of a binding. -/
def bindingPieces (b : ClickBinding) : List Piece :=
  .words "\x7bactive = " :: .number b.activeTicks :: .words ", ids = " ::
    (table (b.dispatch.map .quoted) ++ [.words "\x7d"])

/-- The entry of a binding to a count. -/
def numberedPieces? (b : ClickBinding) : Option (List Piece) :=
  match b.clicks with
  | .exactly n =>
    some (.words "  [" :: .number n :: .words "] = " :: (bindingPieces b ++ [.words ","]))
  | .any => none

/-- The binding to any click, if there is one. -/
def anyPieces (bindings : List ClickBinding) : List Piece :=
  match bindings.find? (fun b => b.clicks = .any) with
  | some b => bindingPieces b
  | none => [.words "nil"]

/-- The constants of a link. -/
def linkLines (p : LinkProgram) : List (List Piece) :=
  [[.words "local RESET = ", .number p.reset],
    [.words "local REMAIN_ENABLED = ", .words (flag p.remainEnabled)]] ++
    tableLines "ACTIONS" (p.bindings.filterMap numberedPieces?) ++
    [.words "local ANY = " :: anyPieces p.bindings]

/-- The entry of a dispatch node at a time. -/
def entryPieces (time : Number) (id : String) : List Piece :=
  [.words "  \x7btime = ", .number time, .words ", id = ", .quoted id, .words "\x7d,"]

/-- The constants of a timeline. -/
def timelineLines (p : TimelineProgram) : List (List Piece) :=
  [[.words "local TICKS_PER_SECOND = ", .number p.ticksPerSecond],
    [.words "local LAST_TIME = ", .number p.lastTime]] ++
    tableLines "SCHEDULE" (p.schedule.map fun s => s.dispatch.map (entryPieces s.time)).flatten

/-- The constants of a program, line by line. -/
def lines : Program → List (List Piece)
  | .timeline p => timelineLines p
  | .region p => regionLines p
  | .link p => linkLines p

/-- The numbers of a script, as they stand in it. -/
def numbers (P : Program) : List Number := (lines P).flatten.filterMap Piece.number?

/-- The numbers that are checked before a script is written. -/
def checked : Program → List Number
  | .timeline p => (p.schedule.flatMap fun s => s.dispatch.map fun _ => s.time) ++ [p.lastTime]
  | .region p => p.test.lo.toList ++ p.test.hi.toList
  | .link _ => []

/-- The numbers of a binding to a count. -/
def countNumbers (b : ClickBinding) : List Number :=
  match b.clicks with
  | .exactly n => [n, b.activeTicks]
  | .any => []

/-- The numbers that are written as they are. -/
def unchecked : Program → List Number
  | .timeline p => [p.ticksPerSecond]
  | .region p => [p.sustainTicks, p.activeTicks]
  | .link p => p.reset :: (p.bindings.flatMap countNumbers ++
      (p.bindings.find? (·.clicks = .any)).toList.map (·.activeTicks))

/-- Refuses the first number that is not finite. -/
def checkFinite : List Number → Except Fault Unit
  | [] => .ok ()
  | x :: xs => if x.isFinite then checkFinite xs else .error (.notFinite x)

/-! ### What is written -/

theorem lineText_append (ps qs : List Piece) :
    lineText (ps ++ qs) = lineText ps ++ lineText qs := by
  induction ps with
  | nil => rw [List.nil_append, lineText, String.empty_append]
  | cons p ps ih => rw [List.cons_append, lineText, lineText, ih, String.append_assoc]

theorem lineText_separated (items : List Piece) :
    lineText (separated items) = ", ".intercalate (items.map Piece.text) := by
  induction items with
  | nil => rfl
  | cons p ps ih =>
    cases ps with
    | nil => simp [separated, lineText]
    | cons q qs =>
      rw [separated, lineText, lineText, ih, List.map_cons, List.map_cons, List.map_cons,
        String.intercalate_cons_cons, String.append_assoc]
      · rfl
      · rintro ⟨⟩

theorem lineText_table (items : List Piece) :
    lineText (table items) = listText (items.map Piece.text) := by
  rw [table, lineText, lineText_append, lineText_separated]
  simp [lineText, Piece.text, listText, String.append_assoc]

theorem map_tableLines (name : String) (entries : List (List Piece)) :
    (tableLines name entries).map lineText = tableConstant name (entries.map lineText) := by
  cases entries with
  | nil =>
    simp only [tableLines, List.isEmpty_nil, if_true, List.map_cons, List.map_nil, lineText,
      Piece.text, String.append_empty, ← String.append_assoc]
    rfl
  | cons e es =>
    simp only [tableLines, List.isEmpty_cons, Bool.false_eq_true, if_false, List.map_cons,
      List.map_append, List.map_nil, lineText, Piece.text, String.append_empty,
      ← String.append_assoc]
    rfl

theorem lineText_bindingPieces (b : ClickBinding) : lineText (bindingPieces b) = bindingText b := by
  simp [bindingPieces, bindingText, lineText, lineText_append, lineText_table, Piece.text,
    quotedList, String.append_assoc, Function.comp_def]

/-! ### What is checked -/

theorem checkFinite_append (xs ys : List Number) :
    checkFinite (xs ++ ys) = checkFinite xs >>= fun _ => checkFinite ys := by
  induction xs with
  | nil => rfl
  | cons x xs ih =>
    rw [List.cons_append, checkFinite, checkFinite]
    split
    · exact ih
    · rfl

theorem checkFinite_eq_ok {xs : List Number} : checkFinite xs = .ok () ↔ ∀ x ∈ xs, x.isFinite := by
  induction xs with
  | nil => simp [checkFinite]
  | cons x xs ih =>
    rw [checkFinite, List.forall_mem_cons]
    split
    · next finite => rw [ih, and_iff_right finite]
    · next infinite =>
      constructor
      · rintro ⟨⟩
      · exact fun all => absurd all.1 infinite

/-- Steps that fail only where a number is not finite check their numbers in order. -/
theorem mapM_checkFinite {α β : Type} {f : α → Except Fault β} {check : α → List Number}
    {result : α → β} (step : ∀ a, f a = (checkFinite (check a)).map fun _ => result a)
    (items : List α) :
    items.mapM f = (checkFinite (items.flatMap check)).map fun _ => items.map result := by
  induction items with
  | nil => rfl
  | cons a items ih =>
    rw [List.mapM_cons, step, ih, List.flatMap_cons, checkFinite_append]
    cases checkFinite (check a) with
    | error fault => rfl
    | ok => cases checkFinite (items.flatMap check) <;> rfl

theorem numeral_eq (x : Number) : numeral x = (checkFinite [x]).map fun _ => x.text := by
  rw [numeral, checkFinite]
  split <;> rfl

theorem mapM_numeral (xs : List Number) :
    xs.mapM numeral = (checkFinite xs).map fun _ => xs.map Number.text := by
  rw [mapM_checkFinite numeral_eq, List.flatMap_singleton']

theorem scheduledLines_check (s : Scheduled) :
    scheduledLines s = (checkFinite (s.dispatch.map fun _ => s.time)).map fun _ =>
      s.dispatch.map fun id => lineText (entryPieces s.time id) := by
  have step : ∀ id,
      (do return "  \x7btime = " ++ (← numeral s.time) ++ ", id = " ++ quote id ++ "\x7d,") =
        (checkFinite [s.time]).map fun _ => lineText (entryPieces s.time id) := by
    intro id
    rw [numeral_eq]
    cases checkFinite [s.time] with
    | error fault => rfl
    | ok =>
      refine congrArg Except.ok ?_
      simp [entryPieces, lineText, Piece.text, String.append_assoc]
  rw [scheduledLines, mapM_checkFinite step, ← List.map_eq_flatMap]

theorem timelineConstants_check (p : TimelineProgram) :
    timelineConstants p =
      (checkFinite (checked (.timeline p))).map fun _ => (timelineLines p).map lineText := by
  rw [timelineConstants, mapM_checkFinite scheduledLines_check, numeral_eq, checked,
    checkFinite_append]
  cases checkFinite (p.schedule.flatMap fun s => s.dispatch.map fun _ => s.time) with
  | error fault => rfl
  | ok =>
    cases checkFinite [p.lastTime] with
    | error fault => rfl
    | ok =>
      refine congrArg Except.ok ?_
      rw [timelineLines, List.map_append, map_tableLines, List.map_flatten, List.map_map]
      simp [lineText, Piece.text, Function.comp_def, toString]

theorem regionConstants_check (p : RegionProgram) :
    regionConstants p =
      (checkFinite (checked (.region p))).map fun _ => (regionLines p).map lineText := by
  rw [regionConstants, mapM_numeral, mapM_numeral, checked, checkFinite_append]
  cases checkFinite p.test.lo.toList with
  | error fault => rfl
  | ok =>
    cases checkFinite p.test.hi.toList with
    | error fault => rfl
    | ok =>
      refine congrArg Except.ok ?_
      simp [regionLines, lineText, lineText_table, Piece.text, quotedList, Function.comp_def,
        toString]

theorem linkConstants_eq (p : LinkProgram) : linkConstants p = (linkLines p).map lineText := by
  have numbered : (p.bindings.filterMap numberedPieces?).map lineText =
      p.bindings.filterMap numberedLine? := by
    rw [List.map_filterMap]
    refine List.filterMap_congr fun b _ => ?_
    rw [numberedPieces?, numberedLine?]
    cases b.clicks with
    | any => rfl
    | exactly n =>
      simp [lineText, lineText_append, lineText_bindingPieces, Piece.text, String.append_assoc,
        toString]
  have any : lineText (anyPieces p.bindings) = anyBindingText p.bindings := by
    rw [anyPieces, anyBindingText]
    cases p.bindings.find? (fun b => b.clicks = .any) with
    | none => simp [lineText, Piece.text]
    | some b => exact lineText_bindingPieces b
  rw [linkConstants, linkLines, List.map_append, List.map_append, map_tableLines, numbered]
  simp [lineText, Piece.text, any, toString]

/-- **The constants of a program** are its lines, once the numbers that are checked are finite. -/
theorem constants_eq (P : Program) :
    constants P = (checkFinite (checked P)).map fun _ => (lines P).map lineText := by
  cases P with
  | timeline p => exact timelineConstants_check p
  | region p => exact regionConstants_check p
  | link p => exact congrArg Except.ok (linkConstants_eq p)

/-! ### The words of a script -/

/-- The characters stand somewhere among others. -/
def standsIn (word : List Char) : List Char → Bool
  | [] => word.isEmpty
  | c :: cs => word.isPrefixOf (c :: cs) || standsIn word cs

theorem standsIn_iff {word s : List Char} : standsIn word s ↔ word <:+: s := by
  induction s with
  | nil => rw [standsIn, List.isEmpty_iff, List.infix_nil]
  | cons c cs ih =>
    rw [standsIn, Bool.or_eq_true, List.isPrefixOf_iff_prefix, ih, List.infix_cons_iff]

/-- No part of a text is the written form of a number that is not finite. -/
def NamesNoNumber (s : String) : Prop := ∀ name ∈ ["Infinity", "NaN"], ¬ name.toList <:+: s.toList

/-- For literals, whose characters are known without reading them out of a text. -/
theorem namesNoNumber_ofList {cs : List Char}
    (h : !standsIn ['I', 'n', 'f', 'i', 'n', 'i', 't', 'y'] cs && !standsIn ['N', 'a', 'N'] cs) :
    NamesNoNumber (String.ofList cs) := by
  have names : "Infinity".toList = ['I', 'n', 'f', 'i', 'n', 'i', 't', 'y'] ∧
      "NaN".toList = ['N', 'a', 'N'] := by decide
  rw [Bool.and_eq_true, Bool.not_eq_true', Bool.not_eq_true', ← Bool.not_eq_true,
    ← Bool.not_eq_true, standsIn_iff, standsIn_iff, ← names.1, ← names.2] at h
  intro name mem
  rw [String.toList_ofList]
  simp only [List.mem_cons, List.not_mem_nil, or_false] at mem
  rcases mem with rfl | rfl
  · exact h.1
  · exact h.2

/-- If a piece is words of the script's own, these name no number. -/
def Piece.Plain : Piece → Prop
  | .words s => NamesNoNumber s
  | _ => True

@[simp] theorem plain_words {s : String} : (Piece.words s).Plain ↔ NamesNoNumber s := Iff.rfl

@[simp] theorem plain_quoted {s : String} : (Piece.quoted s).Plain := trivial

@[simp] theorem plain_number {x : Number} : (Piece.number x).Plain := trivial

@[simp] theorem namesNoNumber_flag (b : Bool) : NamesNoNumber (flag b) := by
  cases b
  · exact namesNoNumber_ofList rfl
  · exact namesNoNumber_ofList rfl

theorem plain_separated {items : List Piece} (plain : ∀ p ∈ items, p.Plain) :
    ∀ p ∈ separated items, p.Plain := by
  induction items with
  | nil => exact plain
  | cons p ps ih =>
    cases ps with
    | nil => exact plain
    | cons q qs =>
      obtain ⟨first, rest⟩ := List.forall_mem_cons.1 plain
      rw [separated, List.forall_mem_cons, List.forall_mem_cons]
      · exact ⟨first, namesNoNumber_ofList rfl, ih rest⟩
      · rintro ⟨⟩

theorem plain_table {items : List Piece} (plain : ∀ p ∈ items, p.Plain) :
    ∀ p ∈ table items, p.Plain := by
  rw [table, List.forall_mem_cons, List.forall_mem_append, List.forall_mem_singleton]
  refine ⟨?_, plain_separated plain, ?_⟩
  · exact namesNoNumber_ofList rfl
  · exact namesNoNumber_ofList rfl

theorem plain_numbers (xs : List Number) : ∀ p ∈ table (xs.map .number), p.Plain :=
  plain_table (List.forall_mem_map.2 fun _ _ => plain_number)

theorem plain_texts (texts : List String) : ∀ p ∈ table (texts.map .quoted), p.Plain :=
  plain_table (List.forall_mem_map.2 fun _ _ => plain_quoted)

theorem plain_tableLines {name : String} {entries : List (List Piece)}
    (named : NamesNoNumber name) (plain : ∀ e ∈ entries, ∀ p ∈ e, p.Plain) :
    ∀ l ∈ tableLines name entries, ∀ p ∈ l, p.Plain := by
  have words : NamesNoNumber "local " ∧ NamesNoNumber " = \x7b\x7d" ∧ NamesNoNumber " = \x7b" ∧
      NamesNoNumber "\x7d" := by
    refine ⟨?_, ?_, ?_, ?_⟩ <;> exact namesNoNumber_ofList rfl
  rw [tableLines]
  split
  · simp [words, named]
  · simp only [List.forall_mem_cons, List.forall_mem_append]
    exact ⟨⟨words.1, named, words.2.2.1, List.forall_mem_nil _⟩, plain,
      ⟨words.2.2.2, List.forall_mem_nil _⟩, List.forall_mem_nil _⟩

theorem plain_bindingPieces (b : ClickBinding) : ∀ p ∈ bindingPieces b, p.Plain := by
  have words : NamesNoNumber "\x7bactive = " ∧ NamesNoNumber ", ids = " ∧ NamesNoNumber "\x7d" := by
    refine ⟨?_, ?_, ?_⟩ <;> exact namesNoNumber_ofList rfl
  have dispatch := plain_texts b.dispatch
  rw [bindingPieces]
  simp only [List.forall_mem_cons, List.forall_mem_append]
  exact ⟨words.1, plain_number, words.2.1, dispatch, words.2.2, List.forall_mem_nil _⟩

theorem plain_entryPieces (time : Number) (id : String) : ∀ p ∈ entryPieces time id, p.Plain := by
  have words : NamesNoNumber "  \x7btime = " ∧ NamesNoNumber ", id = " ∧ NamesNoNumber "\x7d," := by
    refine ⟨?_, ?_, ?_⟩ <;> exact namesNoNumber_ofList rfl
  simp [entryPieces, words]

theorem plain_numberedPieces {b : ClickBinding} {ps : List Piece} (h : numberedPieces? b = some ps) :
    ∀ p ∈ ps, p.Plain := by
  have words : NamesNoNumber "  [" ∧ NamesNoNumber "] = " ∧ NamesNoNumber "," := by
    refine ⟨?_, ?_, ?_⟩ <;> exact namesNoNumber_ofList rfl
  rw [numberedPieces?] at h
  split at h
  · cases h
    simp only [List.forall_mem_cons, List.forall_mem_append]
    exact ⟨words.1, plain_number, words.2.1, plain_bindingPieces b, words.2.2,
      List.forall_mem_nil _⟩
  · cases h

theorem plain_anyPieces (bindings : List ClickBinding) : ∀ p ∈ anyPieces bindings, p.Plain := by
  rw [anyPieces]
  split
  · exact plain_bindingPieces _
  · exact List.forall_mem_singleton.2 (namesNoNumber_ofList rfl)

/-- The words of a script name no number. -/
theorem plain_lines (P : Program) : ∀ l ∈ lines P, ∀ p ∈ l, p.Plain := by
  cases P with
  | timeline p =>
    have entries : ∀ e ∈ (p.schedule.map fun s => s.dispatch.map (entryPieces s.time)).flatten,
        ∀ q ∈ e, q.Plain := by
      intro e mem
      obtain ⟨es, mem, own⟩ := List.mem_flatten.1 mem
      obtain ⟨s, -, rfl⟩ := List.mem_map.1 mem
      obtain ⟨id, -, rfl⟩ := List.mem_map.1 own
      exact plain_entryPieces s.time id
    have named : NamesNoNumber "SCHEDULE" := namesNoNumber_ofList rfl
    have table := plain_tableLines named entries
    simp only [lines, timelineLines, List.forall_mem_append, List.forall_mem_cons]
    refine ⟨⟨⟨?_, plain_number, List.forall_mem_nil _⟩, ⟨?_, plain_number, List.forall_mem_nil _⟩,
      List.forall_mem_nil _⟩, table⟩
    all_goals exact namesNoNumber_ofList rfl
  | region p =>
    simp only [lines, regionLines, List.forall_mem_cons]
    refine ⟨⟨?_, plain_numbers _⟩, ⟨?_, plain_numbers _⟩,
      ⟨?_, namesNoNumber_flag _, List.forall_mem_nil _⟩,
      ⟨?_, namesNoNumber_flag _, List.forall_mem_nil _⟩, ⟨?_, plain_texts _⟩,
      ⟨?_, plain_number, List.forall_mem_nil _⟩, ⟨?_, plain_number, List.forall_mem_nil _⟩,
      ⟨?_, namesNoNumber_flag _, List.forall_mem_nil _⟩, ⟨?_, plain_texts _⟩,
      List.forall_mem_nil _⟩
    all_goals exact namesNoNumber_ofList rfl
  | link p =>
    have entries : ∀ e ∈ p.bindings.filterMap numberedPieces?, ∀ q ∈ e, q.Plain := by
      intro e mem
      obtain ⟨b, -, numbered⟩ := List.mem_filterMap.1 mem
      exact plain_numberedPieces numbered
    have named : NamesNoNumber "ACTIONS" := namesNoNumber_ofList rfl
    have table := plain_tableLines named entries
    simp only [lines, linkLines, List.forall_mem_append, List.forall_mem_cons]
    refine ⟨⟨⟨⟨?_, plain_number, List.forall_mem_nil _⟩,
      ⟨?_, namesNoNumber_flag _, List.forall_mem_nil _⟩, List.forall_mem_nil _⟩, table⟩,
      ⟨?_, plain_anyPieces _⟩, List.forall_mem_nil _⟩
    all_goals exact namesNoNumber_ofList rfl

theorem functions_name_no_number (P : Program) : ∀ l ∈ functions P, NamesNoNumber l := by
  have shared : (∀ l ∈ countDown, NamesNoNumber l) ∧ ∀ l ∈ fire, NamesNoNumber l := by
    simp only [countDown, fire, List.forall_mem_cons]
    repeat' apply And.intro
    all_goals first | exact namesNoNumber_ofList rfl | exact List.forall_mem_nil _
  obtain ⟨down, fired⟩ := shared
  cases P
  all_goals
    simp only [functions, timelineFunctions, regionFunctions, linkFunctions,
      List.forall_mem_append, List.forall_mem_cons]
    repeat' apply And.intro
    all_goals first
      | exact namesNoNumber_ofList rfl
      | assumption
      | exact List.forall_mem_nil _

/-! ### Scripts -/

/-- The script of a graph with a program. -/
def render (g : Graph) (P : Program) : String :=
  "\n".intercalate (header g :: afterHeader ((lines P).map lineText ++ "" :: functions P))

/-- A script is written once the numbers that are checked are finite. -/
theorem emit_eq_check (g : Graph) :
    emit g = g.program >>= fun P => (checkFinite (checked P)).map fun _ => render g P := by
  rw [emit, parts_eq_program]
  cases g.program with
  | error fault => rfl
  | ok P =>
    show (body P >>= _) = (checkFinite (checked P)).map _
    rw [body_eq, constants_eq]
    cases checkFinite (checked P) <;> rfl

theorem emit_eq_ok_iff {g : Graph} {text : String} :
    emit g = .ok text ↔
      ∃ P, g.program = .ok P ∧ (∀ x ∈ checked P, x.isFinite) ∧ text = render g P := by
  rw [emit_eq_check, bind_eq_ok]
  refine exists_congr fun P => and_congr_right fun _ => ?_
  rw [← checkFinite_eq_ok]
  cases checkFinite (checked P) with
  | error fault =>
    constructor
    · rintro ⟨⟩
    · rintro ⟨⟨⟩, -⟩
  | ok =>
    show Except.ok _ = Except.ok _ ↔ _
    rw [Except.ok.injEq, and_iff_right rfl, eq_comm]

theorem kind_of_checkFinite {xs : List Number} {fault : Fault} (h : checkFinite xs = .error fault) :
    fault.kind = .precondition := by
  induction xs with
  | nil => cases h
  | cons x xs ih =>
    rw [checkFinite] at h
    split at h
    · exact ih h
    · cases h
      rfl

theorem kind_of_map {α β : Type} {x : Except Fault α} {f : α → β} {fault : Fault}
    (refused : ∀ fault, x = .error fault → fault.kind = .precondition)
    (h : x.map f = .error fault) : fault.kind = .precondition := by
  cases x with
  | error fault' =>
    cases h
    exact refused fault rfl
  | ok a => cases h

/-- A graph without a program misses a node. -/
theorem kind_of_program {g : Graph} {fault : Fault} (h : g.program = .error fault) :
    fault.kind = .precondition := by
  have clock : ∀ fault, g.clock = .error fault → fault.kind = .precondition := by
    intro fault h
    rw [Graph.clock] at h
    split at h
    · cases h
    · cases h
      rfl
  have test : ∀ fault, g.test = .error fault → fault.kind = .precondition := by
    intro fault h
    rw [Graph.test] at h
    split at h
    · cases h
    · cases h
      rfl
  have activation : ∀ fault, g.activation = .error fault → fault.kind = .precondition := by
    intro fault h
    rw [Graph.activation] at h
    split at h
    · cases h
    · cases h
      rfl
  have clicks : ∀ fault, g.clicks = .error fault → fault.kind = .precondition := by
    intro fault h
    rw [Graph.clicks] at h
    split at h
    · cases h
    · cases h
      rfl
  rw [Graph.program] at h
  split at h
  · refine kind_of_map (fun fault h => ?_) h
    rcases bind_eq_error.1 h with missing | ⟨_, -, h⟩
    · exact clock fault missing
    · cases h
  · refine kind_of_map (fun fault h => ?_) h
    rcases bind_eq_error.1 h with missing | ⟨_, -, h⟩
    · exact test fault missing
    · rcases bind_eq_error.1 h with missing | ⟨_, -, h⟩
      · exact activation fault missing
      · cases h
  · refine kind_of_map (fun fault h => ?_) h
    rcases bind_eq_error.1 h with missing | ⟨_, -, h⟩
    · exact clicks fault missing
    · cases h

/-- What refuses to write a script says that something is missing. -/
theorem kind_of_emit {g : Graph} {fault : Fault} (h : emit g = .error fault) :
    fault.kind = .precondition := by
  rw [emit_eq_check, bind_eq_error] at h
  rcases h with none | ⟨P, -, h⟩
  · exact kind_of_program none
  · cases infinite : checkFinite (checked P) with
    | error fault' =>
      rw [infinite] at h
      cases h
      exact kind_of_checkFinite infinite
    | ok =>
      rw [infinite] at h
      cases h

/-! ### Numbers of scripts -/

section Members

variable {x : Number}

theorem mem_numbers {P : Program} : x ∈ numbers P ↔ ∃ l ∈ lines P, Piece.number x ∈ l := by
  rw [numbers, List.mem_filterMap]
  constructor
  · rintro ⟨p, mem, own⟩
    obtain ⟨l, line, mem⟩ := List.mem_flatten.1 mem
    cases p with
    | number y =>
      cases own
      exact ⟨l, line, mem⟩
    | _ => cases own
  · rintro ⟨l, line, mem⟩
    exact ⟨_, List.mem_flatten.2 ⟨l, line, mem⟩, rfl⟩

theorem mem_separated {items : List Piece} :
    Piece.number x ∈ separated items ↔ Piece.number x ∈ items := by
  induction items with
  | nil => rfl
  | cons p ps ih =>
    cases ps with
    | nil => rfl
    | cons q qs =>
      rw [separated, List.mem_cons, List.mem_cons, ih, List.mem_cons (b := p)]
      · simp
      · rintro ⟨⟩

theorem mem_table {items : List Piece} :
    Piece.number x ∈ table items ↔ Piece.number x ∈ items := by
  simp [table, mem_separated]

theorem mem_tableLines {name : String} {entries : List (List Piece)} :
    (∃ l ∈ tableLines name entries, Piece.number x ∈ l) ↔ ∃ e ∈ entries, Piece.number x ∈ e := by
  rw [tableLines]
  cases entries with
  | nil => simp
  | cons e es => simp

theorem mem_numbers_region {p : RegionProgram} : x ∈ numbers (.region p) ↔
    x ∈ p.test.lo.toList ∨ x ∈ p.test.hi.toList ∨ x = p.sustainTicks ∨ x = p.activeTicks := by
  simp [mem_numbers, lines, regionLines, mem_table]

theorem mem_numbers_timeline {p : TimelineProgram} : x ∈ numbers (.timeline p) ↔
    x = p.ticksPerSecond ∨ x = p.lastTime ∨ ∃ s ∈ p.schedule, s.dispatch ≠ [] ∧ x = s.time := by
  have entries : (∃ e ∈ (p.schedule.map fun s => s.dispatch.map (entryPieces s.time)).flatten,
      Piece.number x ∈ e) ↔ ∃ s ∈ p.schedule, s.dispatch ≠ [] ∧ x = s.time := by
    constructor
    · rintro ⟨e, mem, own⟩
      obtain ⟨es, mem, entry⟩ := List.mem_flatten.1 mem
      obtain ⟨s, scheduled, rfl⟩ := List.mem_map.1 mem
      obtain ⟨id, dispatched, rfl⟩ := List.mem_map.1 entry
      refine ⟨s, scheduled, List.ne_nil_of_mem dispatched, ?_⟩
      simpa [entryPieces] using own
    · rintro ⟨s, scheduled, nonempty, rfl⟩
      obtain ⟨id, dispatched⟩ := List.exists_mem_of_ne_nil _ nonempty
      refine ⟨entryPieces s.time id, ?_, by simp [entryPieces]⟩
      exact List.mem_flatten.2 ⟨_, List.mem_map_of_mem scheduled, List.mem_map_of_mem dispatched⟩
  simp only [mem_numbers, lines, timelineLines, List.mem_append, or_and_right, exists_or,
    mem_tableLines, entries]
  simp [or_assoc]

theorem mem_bindingPieces {b : ClickBinding} :
    Piece.number x ∈ bindingPieces b ↔ x = b.activeTicks := by
  simp [bindingPieces, mem_table]

theorem mem_numbers_link {p : LinkProgram} : x ∈ numbers (.link p) ↔
    x = p.reset ∨
      (∃ b ∈ p.bindings, ∃ n, b.clicks = .exactly n ∧ (x = n ∨ x = b.activeTicks)) ∨
      ∃ b, p.bindings.find? (·.clicks = .any) = some b ∧ x = b.activeTicks := by
  have entries : (∃ e ∈ p.bindings.filterMap numberedPieces?, Piece.number x ∈ e) ↔
      ∃ b ∈ p.bindings, ∃ n, b.clicks = .exactly n ∧ (x = n ∨ x = b.activeTicks) := by
    constructor
    · rintro ⟨e, mem, own⟩
      obtain ⟨b, bound, numbered⟩ := List.mem_filterMap.1 mem
      rw [numberedPieces?] at numbered
      split at numbered
      · next n count =>
        cases numbered
        exact ⟨b, bound, n, count, by simpa [mem_bindingPieces] using own⟩
      · cases numbered
    · rintro ⟨b, bound, n, count, own⟩
      refine ⟨_, List.mem_filterMap.2 ⟨b, bound, by rw [numberedPieces?, count]⟩, ?_⟩
      simpa [mem_bindingPieces] using own
  have any : Piece.number x ∈ anyPieces p.bindings ↔
      ∃ b, p.bindings.find? (·.clicks = .any) = some b ∧ x = b.activeTicks := by
    rw [anyPieces]
    cases p.bindings.find? (fun b => b.clicks = .any) with
    | none => simp
    | some b => simp [mem_bindingPieces]
  simp only [mem_numbers, lines, linkLines, List.mem_append, or_and_right, exists_or,
    mem_tableLines, entries]
  simp [any, or_assoc]

theorem mem_countNumbers {b : ClickBinding} :
    x ∈ countNumbers b ↔ ∃ n, b.clicks = .exactly n ∧ (x = n ∨ x = b.activeTicks) := by
  rw [countNumbers]
  cases b.clicks with
  | any => simp
  | exactly n => simp

/-- A number of a script is checked or written as it is. -/
theorem mem_numbers_iff (P : Program) : x ∈ numbers P ↔ x ∈ checked P ∨ x ∈ unchecked P := by
  cases P with
  | timeline p =>
    have times : x ∈ (p.schedule.flatMap fun s => s.dispatch.map fun _ => s.time) ↔
        ∃ s ∈ p.schedule, s.dispatch ≠ [] ∧ x = s.time := by
      rw [List.mem_flatMap]
      refine exists_congr fun s => and_congr_right fun _ => ?_
      rw [List.map_const', List.mem_replicate, ne_eq, List.length_eq_zero_iff]
    rw [mem_numbers_timeline, checked, unchecked, List.mem_append, times, List.mem_singleton,
      List.mem_singleton, or_comm, or_comm (a := x = p.lastTime)]
  | region p =>
    rw [mem_numbers_region, checked, unchecked, List.mem_append, or_assoc]
    simp
  | link p =>
    rw [mem_numbers_link, checked, unchecked]
    simp [mem_countNumbers, eq_comm]

theorem numbers_finite_iff (P : Program) : (∀ x ∈ numbers P, x.isFinite) ↔
    (∀ x ∈ checked P, x.isFinite) ∧ ∀ x ∈ unchecked P, x.isFinite := by
  simp only [mem_numbers_iff, or_imp, forall_and]

end Members

end Lua

end SceneLogic
