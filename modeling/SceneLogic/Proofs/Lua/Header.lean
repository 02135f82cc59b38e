/-
The header of a script and the lines behind it.

Behind the header stand the lines of the kind, none of which holds a line break
(`Lua.isLine_body`).  The header is a comment, so it must not hold one either: what follows a break
would be code.  The name of the source has its breaks joined, but the script is named after the
carrier as it is, and the carrier after the object that was given.  So the header is one line
exactly if the name of the object holds no break (`Compilation.script_lines`), and a name that holds
one adds a line of code (`brokenDoor_script`).
-/
import SceneLogic.Proofs.Lua.Scripts
namespace SceneLogic

namespace Lua

/-! ### Names in the header -/

theorem isLine_joinLines (broken : Bool) (s : List Char) :
    ∀ c ∈ joinLines broken s, isLineBreak c = false := by
  fun_induction joinLines broken s with
  | case1 => simp
  | case2 c cs h ih => exact ih
  | case3 broken c cs h h' ih =>
    rw [List.forall_mem_cons]
    exact ⟨by decide, ih⟩
  | case4 broken c cs h ih =>
    rw [List.forall_mem_cons]
    exact ⟨by simpa using h, ih⟩

theorem isLineBreak_of_isNamePart {c : Char} (h : Text.isNamePart c) : isLineBreak c = false := by
  rw [isLineBreak, Bool.or_eq_false_iff]
  constructor <;> rw [beq_eq_false_iff_ne] <;> rintro rfl <;> revert h <;> decide

/-- A text that begins and goes on as names do holds no line break. -/
theorem isLine_of_headTail {rest : Char → Bool} {s : String}
    (none : ∀ c, rest c → isLineBreak c = false)
    (h : Text.headTail Text.isNameStart rest s.toList) : isLine s := by
  rw [isLine_iff]
  cases chars : s.toList with
  | nil => simp
  | cons c cs =>
    rw [chars, Text.headTail, Bool.and_eq_true, List.all_eq_true] at h
    have start : Text.isNamePart c := by
      have := h.1
      simp only [Text.isNameStart, Text.isNamePart, Char.isAlphanum, Bool.or_eq_true] at this ⊢
      tauto
    rw [List.forall_mem_cons]
    exact ⟨isLineBreak_of_isNamePart start, fun c hc => none c (h.2 c hc)⟩

theorem isLine_identifier (name : Text.Identifier) : isLine name.text :=
  isLine_of_headTail (fun _ => isLineBreak_of_isNamePart) name.valid

theorem isLine_modulePrefix {s : String} (h : Text.isModulePrefix s) : isLine s := by
  refine isLine_of_headTail (fun c hc => ?_) h
  rw [Bool.or_eq_true, beq_iff_eq] at hc
  rcases hc with part | rfl
  · exact isLineBreak_of_isNamePart part
  · decide

/-- The header is one line exactly if the name of the script is. -/
theorem isLine_header (g : Graph) : isLine (header g) = isLine g.script := by
  have head : header g = "-- " ++ g.script ++ ": " ++ g.kind.text ++ " logic for " ++
      String.ofList (joinLines false g.source.toList) := rfl
  have source : isLine (String.ofList (joinLines false g.source.toList)) := by
    rw [isLine_iff, String.toList_ofList]
    exact isLine_joinLines _ _
  have kind : isLine g.kind.text := by
    cases g.kind <;> decide
  have words : isLine "-- " ∧ isLine ": " ∧ isLine " logic for " := by decide
  rw [head]
  simp only [isLine_append, source, kind, words, Bool.true_and, Bool.and_true]

/-- The first break of a text that begins with a line comes behind the line. -/
theorem takeWhile_line {head rest : String} :
    (head ++ "\n" ++ rest).toList.takeWhile (fun c => !isLineBreak c) = head.toList ↔
      isLine head := by
  rw [String.toList_append, String.toList_append, List.append_assoc]
  constructor
  · intro h
    rw [isLine, ← h, List.all_takeWhile]
  · intro h
    have all : ∀ c ∈ head.toList, !isLineBreak c := List.all_eq_true.1 h
    rw [List.takeWhile_append_of_pos all]
    exact List.append_nil _

end Lua

/-! ### Carriers -/

/-- The names of timelines and triggers hold no break, so a carrier holds one exactly if the object
that was given does. -/
theorem Subject.isLine_carrier {s : Subject} {record : Record} {object : Option String}
    (made : Subject.make record object = .ok s) :
    Lua.isLine s.carrier ↔ ∀ name ∈ object, Lua.isLine name := by
  cases record with
  | timeline t =>
    cases made
    cases object with
    | none =>
      have line : Lua.isLine (timelineCarrier t.name.text) :=
        Lua.isLine_named (by decide) (Lua.isLine_identifier t.name)
      simp [carrier, line]
    | some name => simp [carrier]
  | region t =>
    cases made
    cases object with
    | none =>
      have line : Lua.isLine (triggerCarrier t.name.text) :=
        Lua.isLine_named (by decide) (Lua.isLine_identifier t.name)
      simp [carrier, line]
    | some name => simp [carrier]
  | link l =>
    simp only [make] at made
    split at made
    · next target found =>
      cases made
      obtain ⟨name, rfl, named⟩ := Option.bind_eq_some_iff.1 found
      have same : target.name = name := by
        rw [Target.ofText?] at named
        split at named
        · cases named
        · cases named
          rfl
      have prefixed : carrier (link l target) = "link_" ++ name := by
        rw [← same]
        rfl
      rw [prefixed, Lua.isLine_append]
      simp [show Lua.isLine "link_" from by decide]
    · cases made

namespace Compilation

variable {c : Compilation} {config : Config} {scene : Scene} {record : Record}
  {object : Option String} {g : Graph}

/-- Behind the header of a script stand lines. -/
theorem emit_of_linkedGraph (h : c.linkedGraph config scene record object = .ok g) :
    ∃ lines, g.program >>= Lua.body = .ok lines ∧
      Lua.emit g =
        .ok (Lua.header g ++ "\n" ++ "\n".intercalate (Lua.afterHeader lines)) ∧
      ∀ l ∈ lines, Lua.isLine l := by
  obtain ⟨P, program, -, printable⟩ := program_of_linkedGraph h
  obtain ⟨lines, written, all⟩ := Lua.isLine_body printable
  exact ⟨lines, by rw [program]; exact written, Lua.emit_eq program written, all⟩

/-- **The lines of a script.**  The script of a linked graph is its header and, behind a line feed,
the lines of its kind, none of which holds a line break.  Its first line break comes behind the
whole header exactly if the object that the record was compiled against has none in its name. -/
theorem script_lines (valid : config.Valid)
    (h : c.linkedGraph config scene record object = .ok g) :
    ∃ lines text, g.program >>= Lua.body = .ok lines ∧ Lua.emit g = .ok text ∧
      text = Lua.header g ++ "\n" ++
        "\n".intercalate (["", "local M = \x7b\x7d", ""] ++ lines ++ ["", "return M", ""]) ∧
      (∀ l ∈ lines, Lua.isLine l) ∧
      (text.toList.takeWhile (fun c => !Lua.isLineBreak c) = (Lua.header g).toList ↔
        ∀ name ∈ object, Lua.isLine name) := by
  obtain ⟨lines, written, emitted, all⟩ := emit_of_linkedGraph h
  obtain ⟨subject, blueprint, log, made, plan, rfl⟩ := linkedGraph_eq_ok h
  have script : Lua.isLine (scriptName config subject.carrier) = Lua.isLine subject.carrier := by
    have head : scriptName config subject.carrier =
        config.logicModulePrefix ++ "." ++ subject.carrier := rfl
    rw [head, Lua.isLine_append, Lua.isLine_append, Lua.isLine_modulePrefix valid.2]
    rfl
  refine ⟨lines, _, written, emitted, rfl, all, ?_⟩
  rw [Lua.takeWhile_line, Lua.isLine_header, ← Subject.isLine_carrier made, ← script]
  rfl

end Compilation

theorem plainConfig_valid : Compilation.plainConfig.Valid := by
  refine ⟨⟨?_, ?_⟩, ?_⟩ <;> decide +kernel

/-- The script of the link on a door begins with its header, which is one line. -/
theorem doorGraph_script_lines :
    ∃ g text, doorGraph true false = .ok g ∧ Lua.emit g = .ok text ∧
      text.toList.takeWhile (fun c => !Lua.isLineBreak c) = (Lua.header g).toList := by
  have links : (doorGraph true false).isOk := by decide +kernel
  cases h : doorGraph true false with
  | error fault =>
    rw [h] at links
    cases links
  | ok g =>
    obtain ⟨lines, text, -, written, -, -, first⟩ := Compilation.script_lines plainConfig_valid h
    exact ⟨g, text, rfl, written, first.2 (by decide)⟩

/-- A name that goes on in a second line. -/
def brokenName : String := "door\nos.exit() --"

/-- The graph of the link on an object of that name. -/
def brokenDoorGraph : Except Fault Graph :=
  Compilation.linkedGraph { names := .empty } Compilation.plainConfig
    { Scene.empty with objects := Table.empty.insert brokenName ⟨0, 0, 0⟩ } (.link doorLink)
    (some brokenName)

/-- The header of its script goes on in a second line too, which is code. -/
theorem brokenDoor_script :
    Compilation.plainConfig.Valid ∧ ∃ g text, brokenDoorGraph = .ok g ∧ Lua.emit g = .ok text ∧
      Lua.header g = "-- logic.link_door\nos.exit() --: link logic for door os.exit() --" ∧
      text.toList.takeWhile (fun c => !Lua.isLineBreak c) = "-- logic.link_door".toList := by
  have heads : brokenDoorGraph.map Lua.header =
      .ok "-- logic.link_door\nos.exit() --: link logic for door os.exit() --" := by
    decide +kernel
  cases linked : brokenDoorGraph with
  | error fault =>
    rw [linked] at heads
    cases heads
  | ok g =>
    rw [linked] at heads
    have head := Except.ok.inj heads
    obtain ⟨lines, -, written, -⟩ := Compilation.emit_of_linkedGraph linked
    refine ⟨plainConfig_valid, g, _, rfl, written, head, ?_⟩
    -- The break within the header comes first, whatever the lines behind it are.
    rw [head, String.append_assoc, String.toList_append, List.takeWhile_append, if_neg (by decide)]
    decide

end SceneLogic
