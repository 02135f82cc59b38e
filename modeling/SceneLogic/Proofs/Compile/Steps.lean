/-
Taking the steps of an assembly.

From the first step on, an assembly is refused for its carrier or for a name that the scene does
not have (`Subject.Refused`), or its graph is laid out, wired and written down
(`Bench.createNodes_cases`); all that can still go wrong is the check of the script, and
`Bench.compile_outcome` lists what is left behind in each case.  `Bench.refused_or_sound` is the
account for graphs: they are well formed, have a script and can be loaded.
-/
import SceneLogic.Playback.Basic
import SceneLogic.Proofs.Lua.Scripts
namespace SceneLogic

namespace Subject

@[simp] theorem close_carrier (s : Subject) : s.close.carrier = s.carrier := by cases s <;> rfl

/-! ### Refusals -/

/-- A name that a subject refers to and a scene does not have, with the words for who refers to
it. -/
inductive Unresolved (scene : Scene) : Subject → String → String → Prop
  | region {t : RegionTrigger} {carrier : Option String} {name : String} :
      name ∈ t.tracked.names → scene.resolve? name = none →
      Unresolved scene (.region t carrier) name (RegionTrigger.label t.name.text)
  | link {l : ClickLink} {object : Target} : scene.position? object.name = none →
      Unresolved scene (.link l object) object.name "Link"

/-- Why the nodes of a subject cannot be created. -/
inductive Refused (s : Subject) (names : Names) (scene : Scene) : Fault → Prop
  | blank : Text.Blank s.carrier → Refused s names scene .blankClaim
  | taken {holder : String} : names.holder? s.carrier = some holder →
      Refused s names scene (.nameTaken s.carrier holder)
  | unresolved {name context : String} : s.Unresolved scene name context →
      Refused s names scene (.unresolved name context)

theorem refused_of_claim {s : Subject} {names : Names} {scene : Scene} {fault : Fault}
    (h : names.claim s.carrier .logic = .error fault) : s.Refused names scene fault := by
  rw [Names.claim] at h
  split at h
  · next blank =>
    cases h
    exact .blank blank
  · split at h
    · next holder held =>
      cases h
      exact .taken held
    · cases h

theorem refused_of_blueprint {s : Subject} {config : Config} {names : Names} {scene : Scene}
    {fault : Fault} (h : s.blueprint config scene = .error fault) :
    s.Refused names scene fault := by
  cases s with
  | timeline t carrier => cases h
  | region t carrier =>
    rcases bind_eq_error.1 h with h | ⟨tracked, -, h⟩
    · rcases bind_eq_error.1 h with h | ⟨members, -, h⟩
      · obtain ⟨name, mem, fails⟩ := mapM_eq_error h
        split at fails
        · cases fails
        · next missing =>
          cases fails
          exact .unresolved (.region mem missing)
      · cases h
    · cases h
  | link l object =>
    rw [blueprint] at h
    split at h
    · cases h
    · next missing =>
      cases h
      exact .unresolved (.link missing)

theorem kind_of_make_eq_error {record : Record} {object : Option String} {fault : Fault}
    (h : make record object = .error fault) : fault.kind = .validation := by
  cases record with
  | timeline t => cases h
  | region t => cases h
  | link l =>
    rw [make] at h
    split at h
    · cases h
    · cases h
      rfl

theorem Refused.kind_ne {s : Subject} {names : Names} {scene : Scene} {fault : Fault}
    (h : s.Refused names scene fault) : fault.kind ≠ .generatedLogic := by
  cases h <;> exact Fault.Kind.noConfusion

end Subject

/-- A graph that has a program is loaded wherever its carrier is not. -/
theorem Playback.load_of_program {p : Playback} {g : Graph} {P : Program} (program : g.program = .ok P)
    (apart : p.hasLoaded g.carrier = false) :
    p.load g = .ok { p with loaded := p.loaded ++ [⟨g, P, g.initialHolder, {}⟩] } := by
  have made : Loaded.ofGraph g = .ok ⟨g, P, g.initialHolder, {}⟩ := bind_of_eq_ok program rfl
  rw [hasLoaded] at apart
  rw [load, apart]
  exact bind_of_eq_ok made rfl

namespace Bench

variable {b : Bench} {scene : Scene}

/-! ### Nodes -/

/-- What a bench is like once a graph is wired there, and what its script will be. -/
structure Linked (b : Bench) (scene : Scene) (b₂ : Bench) (g : Graph) (text : String) : Prop where
  claimed : b.names.claim b.assembly.carrier .logic = .ok b₂.names
  planned : ∃ blueprint log,
    b.assembly.subject.blueprint b.assembly.config scene = .ok (blueprint, log) ∧
      g = b.assembly.subject.graph b.assembly.config blueprint
  assembly : b₂.assembly = ⟨b.assembly.config, b.assembly.subject.close, .linked g⟩
  script : Lua.emit g = .ok text

/-- Nodes that are created are linked. -/
theorem createNodes_cases (fresh : b.assembly.stage = .fresh) :
    (∃ fault, b.createNodes scene = .error fault ∧
      b.assembly.subject.Refused b.names scene fault) ∨
    ∃ b₁ b₂ g text, b.createNodes scene = .ok b₁ ∧ b₁.linkNodes = .ok b₂ ∧
      b.Linked scene b₂ g text := by
  cases claim : b.names.claim b.assembly.carrier .logic with
  | error fault =>
    refine .inl ⟨fault, ?_, Subject.refused_of_claim claim⟩
    simp only [createNodes]
    rw [fresh]
    exact bind_eq_error.2 (.inl claim)
  | ok names =>
    cases plan : b.assembly.subject.blueprint b.assembly.config scene with
    | error fault =>
      refine .inl ⟨fault, ?_, Subject.refused_of_blueprint plan⟩
      simp only [createNodes]
      rw [fresh]
      exact bind_of_eq_ok claim (bind_eq_error.2 (.inl plan))
    | ok planned =>
      obtain ⟨blueprint, log⟩ := planned
      have created := (createNodes_eq_ok fresh).2 ⟨names, blueprint, log, claim, plan, rfl⟩
      have linked := linkNodes_laidOut b names log (Subject.blueprint_sound plan)
      obtain ⟨P, program, -, printable⟩ := Subject.exists_program plan
      obtain ⟨lines, written, -⟩ := Lua.isLine_body printable
      exact .inr ⟨_, _, _, _, created, linked, claim, ⟨blueprint, log, plan, rfl⟩, rfl,
        Lua.emit_eq program written⟩

/-! ### Whole compilations -/

/-- How a compilation from the first step on can end, and what it leaves behind: it is refused,
its script is rejected, or it succeeds. -/
inductive Outcome (b : Bench) (scene : Scene) : Except Fault Compiled × Bench → Prop
  | refused {fault : Fault} : b.assembly.subject.Refused b.names scene fault →
      Outcome b scene (.error fault, b)
  | rejected {b₂ : Bench} {g : Graph} {text : String} {fault : Fault} :
      b.Linked scene b₂ g text → check b.assembly.config text g.script = .error fault →
      Outcome b scene (.error fault, { b₂ with log := b₂.log ++ [rejectedLog b₂.assembly] })
  | written {b₂ : Bench} {g : Graph} {text : String} :
      b.Linked scene b₂ g text → check b.assembly.config text g.script = .ok () →
      Outcome b scene (.ok ⟨g, text⟩,
        { b₂ with assembly := { b₂.assembly with stage := .written g },
                  log := b₂.log ++ [writtenLog b₂.assembly g] })

theorem Linked.script_name {b₂ : Bench} {g : Graph} {text : String}
    (h : b.Linked scene b₂ g text) : b₂.assembly.script = g.script := by
  obtain ⟨blueprint, log, -, rfl⟩ := h.planned
  rw [h.assembly, Assembly.script, Assembly.carrier, Subject.close_carrier]
  rfl

theorem compile_outcome (fresh : b.assembly.stage = .fresh) :
    b.Outcome scene (b.compile scene) := by
  rcases createNodes_cases fresh with ⟨fault, fails, refused⟩ |
    ⟨b₁, b₂, g, text, created, linked, h⟩
  · rw [compile, fails]
    exact .refused refused
  · have stage : b₂.assembly.stage = .linked g := by rw [h.assembly]
    have config : b₂.assembly.config = b.assembly.config := by rw [h.assembly]
    rw [compile, created]
    dsimp only
    rw [linked]
    dsimp only
    cases checked : check b.assembly.config text g.script with
    | error fault =>
      have writes : b₂.writeScript =
          (.error fault, { b₂ with log := b₂.log ++ [rejectedLog b₂.assembly] }) := by
        simp only [writeScript]
        rw [stage]
        simp only [h.script, config, h.script_name, checked]
      rw [writes]
      exact .rejected h checked
    | ok =>
      have writes : b₂.writeScript =
          (.ok text, { b₂ with assembly := { b₂.assembly with stage := .written g },
                               log := b₂.log ++ [writtenLog b₂.assembly g] }) := by
        simp only [writeScript]
        rw [stage]
        simp only [h.script, config, h.script_name, checked]
      rw [writes]
      exact .written h checked

/-- Only the check of a script rejects it, and only where checks are asked for. -/
theorem check_eq_error {config : Config} {text script : String} {fault : Fault}
    (h : check config text script = .error fault) :
    config.checkGeneratedLogic ∧ Lua.checkScript text script = .error fault ∧
      fault.kind = .generatedLogic := by
  rw [check] at h
  split at h
  · next asked =>
    refine ⟨asked, h, ?_⟩
    have parsed : (Lua.Interpreter.parse text script).map (fun _ => ()) = .error fault := h
    unfold Lua.Interpreter.parse at parsed
    split at parsed
    · split at parsed <;> cases parsed
      rfl
    · cases parsed
      rfl
  · cases h

/-! ### Graphs -/

/-- **Behind a refusal nothing goes wrong.**  The nodes of a new assembly are refused for its
carrier or for a name that the scene does not have; or they are created and linked, the graph is
well formed, its script can be written, and it can be loaded wherever its carrier is not loaded. -/
theorem refused_or_sound (b : Bench) (scene : Scene) (fresh : b.assembly.stage = .fresh) :
    (∃ fault, b.createNodes scene = .error fault ∧
      b.assembly.subject.Refused b.names scene fault) ∨
    ∃ b₁ b₂ g text l, b.createNodes scene = .ok b₁ ∧ b₁.linkNodes = .ok b₂ ∧
      b₂.assembly.graph = .ok g ∧ g.carrier = b.assembly.subject.carrier ∧ g.WellFormed ∧
      Lua.emit g = .ok text ∧ l.graph = g ∧
      ∀ p : Playback, p.hasLoaded g.carrier = false →
        p.load g = .ok { p with loaded := p.loaded ++ [l] } := by
  rcases createNodes_cases fresh with refused | ⟨b₁, b₂, g, text, created, linked, h⟩
  · exact .inl refused
  · obtain ⟨blueprint, log, plan, rfl⟩ := h.planned
    have graph : b₂.assembly.graph = .ok (b.assembly.subject.graph b.assembly.config blueprint) := by
      rw [h.assembly]
      rfl
    have wellFormed := (Subject.blueprint_sound plan).wellFormed b.assembly.subject.carrier
      b.assembly.subject.kind b.assembly.subject.source
      (scriptName b.assembly.config b.assembly.subject.carrier)
    obtain ⟨P, program, -, -⟩ := Subject.exists_program plan
    exact .inr ⟨b₁, b₂, _, text, _, created, linked, graph, rfl, wellFormed, h.script, rfl,
      fun p apart => Playback.load_of_program program apart⟩

/-- The link on a door is made into a graph that can be loaded. -/
theorem doorLink_sound :
    ∃ b₁ b₂ g text p, Bench.createNodes ⟨.empty, ⟨Compilation.plainConfig,
        .link doorLink doorTarget, .fresh⟩, []⟩ doorScene = .ok b₁ ∧ b₁.linkNodes = .ok b₂ ∧
      b₂.assembly.graph = .ok g ∧ g.WellFormed ∧ Lua.emit g = .ok text ∧
      ({} : Playback).load g = .ok p := by
  rcases refused_or_sound ⟨.empty, ⟨Compilation.plainConfig, .link doorLink doorTarget, .fresh⟩, []⟩
    doorScene rfl with ⟨fault, fails, -⟩ |
    ⟨b₁, b₂, g, text, l, created, linked, graph, -, wellFormed, script, -, loads⟩
  · have creates : (Bench.createNodes ⟨.empty, ⟨Compilation.plainConfig,
        .link doorLink doorTarget, .fresh⟩, []⟩ doorScene).isOk := by decide +kernel
    rw [fails] at creates
    cases creates
  · exact ⟨b₁, b₂, g, text, _, created, linked, graph, wellFormed, script, loads {} rfl⟩

end Bench

namespace Compilation

/-- A record is compiled at a bench of its own, unless it is a link without an object. -/
theorem compile_cases (c : Compilation) (config : Config) (scene : Scene) (record : Record)
    (object : Option String) :
    (∃ fault, Subject.make record object = .error fault ∧
      c.compile config scene record object = (.error fault, c)) ∨
    ∃ subject result b, Subject.make record object = .ok subject ∧
      Bench.Outcome ⟨c.names, ⟨config, subject, .fresh⟩, c.log⟩ scene (result, b) ∧
      c.compile config scene record object = (result, c.after b) := by
  rw [compile]
  cases Subject.make record object with
  | error fault => exact .inl ⟨fault, rfl, rfl⟩
  | ok subject =>
    have out : Bench.Outcome ⟨c.names, ⟨config, subject, .fresh⟩, c.log⟩ scene _ :=
      Bench.compile_outcome rfl
    exact .inr ⟨subject, _, _, rfl, out, rfl⟩

end Compilation

end SceneLogic
