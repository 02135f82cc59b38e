/-
What a compilation that fails leaves behind in a workspace.

A compilation that is refused leaves the registries and the shelf of records as they were.  One
whose script is rejected has claimed its carrier and closed its record by then, and takes neither
back (`Workspace.compile_failure`): releasing the carrier would give the registry that there was
before.  `Workspace.rejected_keeps_claim` is an instance, a timeline whose carrier name breaks the
line that the script begins with.
-/
import Mathlib.Data.List.GetD
import SceneLogic.Proofs.Compile.Steps
import SceneLogic.Proofs.Scene.Names
import SceneLogic.Proofs.Text.Plain
import SceneLogic.Workspace.Compile
namespace SceneLogic

namespace Workspace

variable {w w' : Workspace} {place : Nat} {record : Record} {object : Option String}

/-! ### Taking over -/

/-- The workspace with a record put back, unless the assembly took no step. -/
def settled (w : Workspace) (place : Nat) (a : Assembly) : Workspace :=
  if a.stage = .fresh then w else w.putBack place a.subject.record

/-- The workspace with what a compilation of the records at some places leaves behind. -/
def takenOver (w : Workspace) (places : List Nat) (c : Compilation) : Workspace :=
  let w := (places.zip c.assemblies).foldl (fun w p => w.settled p.1 p.2)
    (w.withNames w.context.registry c.names)
  { w with log := w.log ++ c.log }

/-- Takes over what the compilation of a record came to. -/
def finish (place : Nat) (outcome : Except Fault Compiled × Compilation) : Work Compiled := do
  takeOver [place] outcome.2
  let compiled ← ofResult outcome.1
  keepGraph compiled.graph
  return compiled

/-- Compiling fails as the compilation does that it asks for. -/
theorem compile_eq_error {fault : Fault} :
    (compile place record object).run.run w = (.error fault, w') ↔
      ∃ c, Compilation.compile { names := w.names } w.context.config w.scene record object =
        (.error fault, c) ∧ w' = w.takenOver [place] c := by
  have steps : (compile place record object).run.run w = (finish place (Compilation.compile
      { names := w.names } w.context.config w.scene record object)).run.run w := rfl
  rw [steps]
  generalize Compilation.compile { names := w.names } w.context.config w.scene record object =
    outcome
  obtain ⟨fault' | compiled, c⟩ := outcome
  · have fails : (finish place (.error fault', c)).run.run w =
        (.error fault', w.takenOver [place] c) := rfl
    rw [fails]
    constructor
    · rintro ⟨⟩
      exact ⟨c, rfl, rfl⟩
    · rintro ⟨_, ⟨⟩, rfl⟩
      rfl
  · constructor
    · intro h
      have succeeds : ((finish place (.ok compiled, c)).run.run w).1 = .ok compiled := rfl
      rw [h] at succeeds
      cases succeeds
    · rintro ⟨_, ⟨⟩, -⟩

theorem set_namesAt (w : Workspace) (place : Nat) :
    w.registries.set place (w.namesAt place) = w.registries := by
  rw [namesAt]
  by_cases inside : place < w.registries.length
  · rw [List.getD_eq_getElem _ _ inside, List.set_getElem_self]
  · exact List.set_eq_of_length_le (by omega)

theorem set_names (w : Workspace) :
    w.registries.set w.context.registry w.names = w.registries :=
  w.set_namesAt w.context.registry

theorem settled_of_fresh {a : Assembly} (fresh : a.stage = .fresh) : w.settled place a = w :=
  if_pos fresh

theorem settled_of_ne_fresh {a : Assembly} (begun : a.stage ≠ .fresh) :
    w.settled place a = w.putBack place a.subject.record :=
  if_neg begun

/-- What is taken over of one assembly. -/
theorem takenOver_eq (w : Workspace) (place : Nat) (names : Names) (a : Assembly)
    (log : List Log.Entry) :
    let w₁ := (w.withNames w.context.registry names).settled place a
    w.takenOver [place] ⟨names, [a], log⟩ = { w₁ with log := w₁.log ++ log } := rfl

/-- An assembly that was linked leaves its claim and a closed record. -/
theorem takenOver_linked {config : Config} {subject : Subject} {b : Bench} {g : Graph}
    {text : String}
    (linked : Bench.Linked ⟨w.names, ⟨config, subject, .fresh⟩, []⟩ w.scene b g text)
    (place : Nat) (log : List Log.Entry) :
    let w₁ := w.takenOver [place] ⟨b.names, [b.assembly], log⟩
    w₁.context = w.context ∧ w₁.registries = w.registries.set w.context.registry b.names ∧
      w₁.records = w.records.set place subject.close.record := by
  have begun : b.assembly.stage ≠ .fresh := by
    rw [linked.assembly]
    exact Stage.noConfusion
  rw [takenOver_eq, settled_of_ne_fresh begun, linked.assembly]
  exact ⟨rfl, rfl, rfl⟩

/-! ### Failures -/

/-- **What a compilation that fails leaves behind.**  If it is refused, the registries and the
records are as before.  If its script is rejected, the carrier stays claimed and the record closed;
releasing the carrier would give the registry of before. -/
theorem compile_failure {fault : Fault}
    (h : (compile place record object).run.run w = (.error fault, w')) :
    (fault.kind ≠ .generatedLogic ∧ w'.registries = w.registries ∧ w'.records = w.records) ∨
    (fault.kind = .generatedLogic ∧ w.context.config.checkGeneratedLogic ∧
      ∃ subject g text names, Subject.make record object = .ok subject ∧
        Lua.emit g = .ok text ∧ Lua.checkScript text g.script = .error fault ∧
        w.names.claim subject.carrier .logic = .ok names ∧
        w'.registries = w.registries.set w.context.registry names ∧
        names.release subject.carrier = w.names ∧
        w'.records = w.records.set place subject.close.record) := by
  obtain ⟨c, compiles, rfl⟩ := compile_eq_error.1 h
  rcases Compilation.compile_cases { names := w.names } w.context.config w.scene record object with
    ⟨other, unmade, fails⟩ | ⟨subject, result, b, made, out, ends⟩
  · rw [fails] at compiles
    cases compiles
    refine .inl ⟨?_, w.set_names, rfl⟩
    rw [Subject.kind_of_make_eq_error unmade]
    exact Fault.Kind.noConfusion
  · rw [ends] at compiles
    cases compiles
    cases out with
    | refused refused =>
      refine .inl ⟨refused.kind_ne, ?_, ?_⟩ <;>
        rw [Compilation.after, List.nil_append, takenOver_eq, settled_of_fresh rfl]
      · exact w.set_names
      · rfl
    | @rejected b₂ g text _ linked checked =>
      obtain ⟨asked, rejects, kind⟩ := Bench.check_eq_error checked
      obtain ⟨-, registries, records⟩ := takenOver_linked linked place
        (b₂.log ++ [Bench.rejectedLog b₂.assembly])
      exact .inr ⟨kind, asked, subject, g, text, b₂.names, made, linked.script, rejects,
        linked.claimed, registries, Names.release_of_claim linked.claimed, records⟩

/-- A link on an object that is not there leaves nothing behind. -/
theorem ghostLink_leaves_nothing :
    ∃ fault w', (compile 0 (.link doorLink) (some "ghost")).run.run {} = (.error fault, w') ∧
      fault.kind = .unresolvedReference ∧ w'.registries = [.empty] ∧ w'.records = [] := by
  have fails : (match ((compile 0 (.link doorLink) (some "ghost")).run.run {}).1 with
      | .error fault => decide (fault.kind = .unresolvedReference)
      | .ok _ => false) = true := by decide +kernel
  rcases h : (compile 0 (.link doorLink) (some "ghost")).run.run {} with ⟨fault | compiled, w'⟩
  · rw [h] at fails
    have kind : fault.kind = .unresolvedReference := of_decide_eq_true fails
    rcases compile_failure h with ⟨-, registries, records⟩ | ⟨rejected, -⟩
    · exact ⟨fault, w', rfl, kind, registries, records⟩
    · rw [kind] at rejected
      cases rejected
  · rw [h] at fails
    cases fails

/-! ### A rejected script -/

/-- A comment ends with its line, and no token begins with a dollar sign. -/
theorem lex_comment_dollar (n : Nat) {c : Char} {comment : List Char} (s : List Char)
    (single : c ≠ '[') (line : (c :: comment).all fun x => !(x == '\n' || x == '\r')) :
    Lua.lex n ('-' :: '-' :: (c :: comment) ++ '\n' :: '$' :: s) = none := by
  have passes : Lua.passComment ((c :: comment) ++ '\n' :: '$' :: s) = some ('\n' :: '$' :: s) := by
    rw [List.cons_append, Lua.passComment.eq_2 _ (by rintro rest ⟨⟩; exact single rfl),
      ← List.cons_append, List.dropWhile_append_of_pos (List.all_eq_true.1 line)]
    rfl
  have first : Lua.lexeme? ('-' :: '-' :: (c :: comment) ++ '\n' :: '$' :: s) =
      (Lua.passComment ((c :: comment) ++ '\n' :: '$' :: s)).map .filler := rfl
  have second : Lua.lexeme? ('\n' :: '$' :: s) = some (.filler ('$' :: s)) := rfl
  have third : Lua.lexeme? ('$' :: s) = none := rfl
  cases n with
  | zero => rfl
  | succ n =>
    rw [Lua.lex, first, passes]
    cases n with
    | zero => rfl
    | succ n =>
      show Lua.lex (n + 1) ('\n' :: '$' :: s) = none
      rw [Lua.lex, second]
      cases n with
      | zero => rfl
      | succ n =>
        show Lua.lex (n + 1) ('$' :: s) = none
        rw [Lua.lex, third]

/-- A script that cannot be split into tokens is rejected. -/
theorem check_ne_ok {config : Config} {text script : String} (asked : config.checkGeneratedLogic)
    (unread : Lua.tokens? text = none) : Bench.check config text script ≠ .ok () := by
  have unparsed : Lua.Grammar.parse? text = none := by
    rw [Lua.Grammar.parse?, unread]
    rfl
  rw [Bench.check, if_pos asked]
  show (Lua.Interpreter.parse text script).map (fun _ => ()) ≠ .ok ()
  rw [Lua.Interpreter.parse, unparsed]
  rintro ⟨⟩

theorem intro_isIdentifier : Text.isIdentifier "intro" := by decide

/-- A timeline without entries. -/
def introTimeline : Timeline := Timeline.empty ⟨"intro", intro_isIdentifier⟩ false

/-- The line that its script begins with is broken by the name of the carrier. -/
theorem tokens?_intro {blueprint : Blueprint} {text : String}
    (written : Lua.emit (Subject.graph (.timeline introTimeline (some "intro\n$")) Config.standard
      blueprint) = .ok text) : Lua.tokens? text = none := by
  obtain ⟨P, program, h⟩ := bind_eq_ok.1 written
  obtain ⟨lines, body, -⟩ := bind_eq_ok.1 h
  rw [Lua.parts_eq_program] at program
  rw [Lua.emit_eq program body] at written
  cases written
  have header : Lua.header (Subject.graph (.timeline introTimeline (some "intro\n$"))
      Config.standard blueprint) =
      Lua.header ⟨"", .timeline, "intro", "logic.intro\n$", [], [], []⟩ := rfl
  have words : (Lua.header ⟨"", .timeline, "intro", "logic.intro\n$", [], [], []⟩).toList =
      ('-' :: '-' :: (' ' :: "logic.intro".toList) ++ ['\n', '$']) ++
        ": timeline logic for intro".toList := by decide +kernel
  rw [header, Lua.tokens?, String.toList_append, String.toList_append, words, List.append_assoc,
    List.append_assoc, Text.byteChars_encode_append (by decide), List.append_assoc]
  exact lex_comment_dollar _ _ (by decide) (by decide)

/-- **A script that is rejected keeps its carrier claimed and its timeline closed.** -/
theorem rejected_keeps_claim :
    ∃ fault w', (compile 0 (.timeline introTimeline) (some "intro\n$")).run.run
        { records := [.timeline introTimeline] } = (.error fault, w') ∧
      fault.kind = .generatedLogic ∧ Names.empty.isTaken "intro\n$" = false ∧
      w'.names.isTaken "intro\n$" ∧ introTimeline.compiled = false ∧
      w'.records = [.timeline introTimeline.markCompiled] := by
  rcases Compilation.compile_cases { names := .empty } Config.standard Scene.empty
    (.timeline introTimeline) (some "intro\n$") with
    ⟨other, unmade, -⟩ | ⟨subject, result, b, made, out, ends⟩
  · cases unmade
  · cases made
    cases out with
    | refused refused =>
      cases refused with
      | blank blank => exact absurd blank (by decide)
      | taken held => cases held
      | unresolved missing => cases missing
    | written linked checked =>
      obtain ⟨blueprint, log, -, rfl⟩ := linked.planned
      exact absurd checked (check_ne_ok rfl (tokens?_intro linked.script))
    | @rejected b₂ g text fault linked checked =>
      obtain ⟨-, -, kind⟩ := Bench.check_eq_error checked
      obtain ⟨context, registries, records⟩ := takenOver_linked
        (w := { records := [.timeline introTimeline] }) linked 0
        (b₂.log ++ [Bench.rejectedLog b₂.assembly])
      refine ⟨fault, takenOver { records := [.timeline introTimeline] } [0]
        ⟨b₂.names, [b₂.assembly], b₂.log ++ [Bench.rejectedLog b₂.assembly]⟩,
        compile_eq_error.2 ⟨_, ends, rfl⟩, kind, by decide, ?_, rfl, records⟩
      rw [names, namesAt, context, registries]
      exact (Names.isTaken_of_claim linked.claimed _).2 (.inl rfl)

end Workspace

end SceneLogic
