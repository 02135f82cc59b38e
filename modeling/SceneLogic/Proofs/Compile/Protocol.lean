/-
The protocol of an assembly.

An assembly can be asked for its steps, for its graph or to be compiled in one go, at any time and
in any order.  What it answers depends on the steps taken before (`Bench.ask_heeds`): a call in
order takes its steps, unless something outside of the assembly is in the way (`Bench.Hindered`),
and a call out of order is refused.  A call that takes no step leaves names and assembly alone,
and a graph that is linked stays the same.
-/
import SceneLogic.Proofs.Compile.Steps
namespace SceneLogic

/-! ### Calls and steps -/

/-- The steps of an assembly. -/
inductive Assembly.Step where
  | create
  | link
  | write
deriving DecidableEq

/-- The steps that led to a stage. -/
def Stage.steps : Stage → List Assembly.Step
  | fresh => []
  | created .. => [.create]
  | linked _ => [.create, .link]
  | written _ => [.create, .link, .write]

theorem Stage.steps_prefix (s : Stage) : s.steps <+: [.create, .link, .write] := by
  cases s with
  | fresh => exact List.nil_prefix
  | created => exact ⟨[.link, .write], rfl⟩
  | linked => exact ⟨[.write], rfl⟩
  | written => exact List.prefix_rfl

namespace Assembly

/-- What an assembly can be asked for. -/
inductive Call where
  | createNodes
  | linkNodes
  | writeScript
  | graph
  | compile

/-- What an assembly answers if it does not fail. -/
inductive Answer where
  | done
  | script (text : String)
  | graph (g : Graph)
  | compiled (c : Compiled)

namespace Call

/-- The steps that a call has taken, going by the answer: whoever has an assembly compiled can tell
from a rejected script that its nodes are linked. -/
def steps : Call → Except Fault Answer → List Step
  | createNodes, .ok _ => [.create]
  | linkNodes, .ok _ => [.link]
  | writeScript, .ok _ => [.write]
  | compile, .ok _ => [.create, .link, .write]
  | compile, .error fault => if fault.kind = .generatedLogic then [.create, .link] else []
  | _, _ => []

/-- A call comes at its time, behind the steps taken before. -/
def isInOrder : Call → List Step → Bool
  | createNodes, taken | compile, taken => taken = []
  | linkNodes, taken => taken = [.create]
  | writeScript, taken => taken = [.create, .link]
  | graph, taken => .link ∈ taken

theorem steps_error {k : Call} {fault : Fault} (other : fault.kind ≠ .generatedLogic) :
    k.steps (.error fault) = [] := by
  cases k with
  | compile => exact if_neg other
  | createNodes | linkNodes | writeScript | graph => rfl

end Call

/-- Nodes that are created can be linked, and a graph that is linked has a script. -/
def Sound (a : Assembly) : Prop :=
  match a.stage with
  | .fresh => True
  | .created blueprint nodes => ∃ g text, blueprint.wire nodes = .ok g ∧ Lua.emit g = .ok text
  | .linked g | .written g => ∃ text, Lua.emit g = .ok text

end Assembly

namespace Bench

open Assembly (Answer Call)

variable {b b' : Bench} {scene : Scene} {k : Call} {answer : Except Fault Answer} {fault : Fault}

/-- Answers a call. -/
def ask (b : Bench) (scene : Scene) : Call → Except Fault Answer × Bench
  | .createNodes =>
    match b.createNodes scene with
    | .ok b' => (.ok .done, b')
    | .error fault => (.error fault, b)
  | .linkNodes =>
    match b.linkNodes with
    | .ok b' => (.ok .done, b')
    | .error fault => (.error fault, b)
  | .writeScript => (b.writeScript.1.map .script, b.writeScript.2)
  | .graph => (b.assembly.graph.map .graph, b)
  | .compile => ((b.compile scene).1.map .compiled, (b.compile scene).2)

/-- A graph is the one that an assembly has, or the one that its first two steps lead to. -/
def Reaches (b : Bench) (scene : Scene) (g : Graph) : Prop :=
  b.assembly.graph = .ok g ∨
    ∃ b₁ b₂, b.createNodes scene = .ok b₁ ∧ b₁.linkNodes = .ok b₂ ∧ b₂.assembly.graph = .ok g

/-- What outside of an assembly makes a call in order fail: its carrier or a name that the scene
does not have, before the nodes are created, and the check of the script, if one is asked for. -/
inductive Hindered (b : Bench) (scene : Scene) : Call → Fault → Prop
  | refused {k : Call} {fault : Fault} : k = .createNodes ∨ k = .compile →
      b.assembly.subject.Refused b.names scene fault → Hindered b scene k fault
  | rejected {k : Call} {fault : Fault} {g : Graph} {text : String} :
      k = .writeScript ∨ k = .compile → b.Reaches scene g → b.assembly.config.checkGeneratedLogic →
      Lua.emit g = .ok text → Lua.checkScript text b.assembly.script = .error fault →
      Hindered b scene k fault

/-- What a call comes to. -/
structure Heeds (b : Bench) (scene : Scene) (k : Call) (answer : Except Fault Answer)
    (b' : Bench) : Prop where
  steps : b'.assembly.stage.steps = b.assembly.stage.steps ++ k.steps answer
  inOrder : k.isInOrder b.assembly.stage.steps →
    ∀ fault, answer = .error fault → b.Hindered scene k fault
  outOfOrder : ¬ k.isInOrder b.assembly.stage.steps →
    ∃ fault, answer = .error fault ∧ fault.kind = .precondition
  idle : k.steps answer = [] → b'.names = b.names ∧ b'.assembly = b.assembly
  graph : ∀ g, b.assembly.graph = .ok g → b'.assembly.graph = .ok g
  sound : b'.assembly.Sound

/-! ### Calls that change nothing -/

/-- A call that is refused because it is out of order. -/
theorem heeds_of_precondition (sound : b.assembly.Sound)
    (late : k.isInOrder b.assembly.stage.steps = false) (kind : fault.kind = .precondition) :
    b.Heeds scene k (.error fault) b where
  steps := by
    rw [Call.steps_error (by rw [kind]; exact Fault.Kind.noConfusion), List.append_nil]
  inOrder := by
    intro early
    rw [late] at early
    cases early
  outOfOrder _ := ⟨fault, rfl, kind⟩
  idle _ := ⟨rfl, rfl⟩
  graph _ h := h
  sound := sound

/-- A call in order that fails outside of the assembly. -/
theorem heeds_of_refused (sound : b.assembly.Sound) (early : k.isInOrder b.assembly.stage.steps)
    (which : k = .createNodes ∨ k = .compile)
    (refused : b.assembly.subject.Refused b.names scene fault) :
    b.Heeds scene k (.error fault) b where
  steps := by rw [Call.steps_error refused.kind_ne, List.append_nil]
  inOrder := by
    rintro - _ ⟨⟩
    exact .refused which refused
  outOfOrder late := absurd early late
  idle _ := ⟨rfl, rfl⟩
  graph _ h := h
  sound := sound

/-! ### Single steps -/

/-- A call in order that is answered and takes its steps. -/
theorem heeds_of_ok {given : Answer} (early : k.isInOrder b.assembly.stage.steps)
    (steps : b'.assembly.stage.steps = b.assembly.stage.steps ++ k.steps (.ok given))
    (busy : k.steps (.ok given) ≠ [])
    (graph : ∀ g, b.assembly.graph = .ok g → b'.assembly.graph = .ok g)
    (sound : b'.assembly.Sound) : b.Heeds scene k (.ok given) b' where
  steps := steps
  inOrder := by rintro - _ ⟨⟩
  outOfOrder late := absurd early late
  idle still := absurd still busy
  graph := graph
  sound := sound

theorem graph_of_stage (h : b.assembly.stage.steps = [] ∨ b.assembly.stage.steps = [.create])
    (g : Graph) : b.assembly.graph ≠ .ok g := by
  rw [Assembly.graph]
  cases stage : b.assembly.stage with
  | fresh | created => rintro ⟨⟩
  | linked | written =>
    rw [stage] at h
    rcases h with h | h <;> cases h

/-- What a bench is like once nodes are created there. -/
theorem createNodes_ok (fresh : b.assembly.stage = .fresh)
    (created : b.createNodes scene = .ok b') :
    b'.assembly.stage.steps = [.create] ∧ b'.assembly.Sound := by
  rcases @createNodes_cases b scene fresh with ⟨fault, fails, -⟩ |
    ⟨b₁, b₂, g, text, made, linked, h⟩
  · rw [fails] at created
    cases created
  · rw [made] at created
    cases created
    obtain ⟨names, blueprint, log, -, plan, rfl⟩ := (createNodes_eq_ok fresh).1 made
    obtain ⟨g', wired, same⟩ := bind_eq_ok.1 linked
    cases same
    have script : Lua.emit g' = .ok text := by
      have stage : Stage.linked g' = .linked g := congrArg Assembly.stage h.assembly
      cases stage
      exact h.script
    exact ⟨rfl, g', text, wired, script⟩

theorem heeds_createNodes (sound : b.assembly.Sound) :
    b.Heeds scene .createNodes (b.ask scene .createNodes).1 (b.ask scene .createNodes).2 := by
  rw [ask]
  cases stage : b.assembly.stage with
  | fresh =>
    have early : Call.createNodes.isInOrder b.assembly.stage.steps := by
      rw [stage]
      rfl
    rcases @createNodes_cases b scene stage with ⟨fault, fails, refused⟩ |
      ⟨b₁, b₂, g, text, created, -, -⟩
    · rw [fails]
      exact heeds_of_refused sound early (.inl rfl) refused
    · obtain ⟨steps, sound₁⟩ := createNodes_ok stage created
      rw [created]
      refine heeds_of_ok early ?_ (List.cons_ne_nil _ _) ?_ sound₁
      · rw [steps, stage]
        rfl
      · exact fun g h => absurd h (graph_of_stage (.inl (by rw [stage]; rfl)) g)
  | created | linked | written =>
    have fails : b.createNodes scene = .error (.alreadyCreated b.assembly.carrier) := by
      simp only [createNodes]
      rw [stage]
    rw [fails]
    refine heeds_of_precondition sound ?_ rfl
    rw [stage]
    rfl

theorem heeds_linkNodes (sound : b.assembly.Sound) :
    b.Heeds scene .linkNodes (b.ask scene .linkNodes).1 (b.ask scene .linkNodes).2 := by
  rw [ask]
  cases stage : b.assembly.stage with
  | created blueprint nodes =>
    obtain ⟨g, text, wired, script⟩ : ∃ g text, blueprint.wire nodes = .ok g ∧
        Lua.emit g = .ok text := by
      rw [Assembly.Sound, stage] at sound
      exact sound
    have links : b.linkNodes =
        .ok { b with assembly := { b.assembly with stage := .linked g } } := by
      simp only [linkNodes]
      rw [stage]
      exact bind_of_eq_ok wired rfl
    rw [links]
    refine heeds_of_ok ?_ ?_ (List.cons_ne_nil _ _) ?_ ⟨text, script⟩
    · rw [stage]
      rfl
    · rw [stage]
      rfl
    · exact fun g h => absurd h (graph_of_stage (.inr (by rw [stage]; rfl)) g)
  | fresh | linked | written =>
    have fails : b.linkNodes = .error (.notCreated b.assembly.carrier) := by
      simp only [linkNodes]
      rw [stage]
    rw [fails]
    refine heeds_of_precondition sound ?_ rfl
    rw [stage]
    rfl

theorem heeds_writeScript (sound : b.assembly.Sound) :
    b.Heeds scene .writeScript (b.ask scene .writeScript).1 (b.ask scene .writeScript).2 := by
  rw [ask]
  cases stage : b.assembly.stage with
  | linked g =>
    obtain ⟨text, script⟩ : ∃ text, Lua.emit g = .ok text := by
      rw [Assembly.Sound, stage] at sound
      exact sound
    have early : Call.writeScript.isInOrder b.assembly.stage.steps := by
      rw [stage]
      rfl
    cases checked : check b.assembly.config text b.assembly.script with
    | error fault =>
      obtain ⟨asked, rejects, -⟩ := check_eq_error checked
      have fails : b.writeScript =
          (.error fault, { b with log := b.log ++ [rejectedLog b.assembly] }) := by
        simp only [writeScript]
        rw [stage]
        simp only [script, checked]
      rw [fails]
      refine ⟨(List.append_nil _).symm, ?_, fun late => absurd early late, fun _ => ⟨rfl, rfl⟩,
        fun _ h => h, sound⟩
      rintro - _ ⟨⟩
      have graph : b.assembly.graph = .ok g := by rw [Assembly.graph, stage]
      exact .rejected (.inl rfl) (.inl graph) asked script rejects
    | ok =>
      have writes : b.writeScript =
          (.ok text, { b with assembly := { b.assembly with stage := .written g },
                              log := b.log ++ [writtenLog b.assembly g] }) := by
        simp only [writeScript]
        rw [stage]
        simp only [script, checked]
      rw [writes]
      refine heeds_of_ok early ?_ (List.cons_ne_nil _ _) ?_ ⟨text, script⟩
      · rw [stage]
        rfl
      · intro g' h
        rw [Assembly.graph, stage] at h
        exact h
  | fresh | created | written =>
    have fails : b.writeScript = (.error (.notLinked b.assembly.carrier), b) := by
      simp only [writeScript]
      rw [stage]
    rw [fails]
    refine heeds_of_precondition sound ?_ rfl
    rw [stage]
    rfl

theorem heeds_graph (sound : b.assembly.Sound) :
    b.Heeds scene .graph (b.ask scene .graph).1 (b.ask scene .graph).2 := by
  rw [ask, Assembly.graph]
  cases stage : b.assembly.stage with
  | linked g | written g =>
    refine ⟨(List.append_nil _).symm, by rintro - _ ⟨⟩, fun late => absurd ?_ late,
      fun _ => ⟨rfl, rfl⟩, fun _ h => h, sound⟩
    rw [stage]
    rfl
  | fresh | created =>
    refine heeds_of_precondition sound ?_ rfl
    rw [stage]
    rfl

/-! ### All steps at once -/

/-- A graph that is wired in one go is wired step by step as well. -/
theorem Linked.reaches {b₂ : Bench} {g : Graph} {text : String} (h : b.Linked scene b₂ g text)
    (fresh : b.assembly.stage = .fresh) : b.Reaches scene g := by
  obtain ⟨blueprint, log, plan, rfl⟩ := h.planned
  have created : b.createNodes scene = .ok (b.laidOut b₂.names blueprint log) :=
    (createNodes_eq_ok fresh).2 ⟨b₂.names, blueprint, log, h.claimed, plan, rfl⟩
  exact .inr ⟨_, _, created, linkNodes_laidOut b b₂.names log (Subject.blueprint_sound plan), rfl⟩

theorem heeds_compile (sound : b.assembly.Sound) :
    b.Heeds scene .compile (b.ask scene .compile).1 (b.ask scene .compile).2 := by
  rw [ask]
  cases stage : b.assembly.stage with
  | fresh =>
    have early : Call.compile.isInOrder b.assembly.stage.steps := by
      rw [stage]
      rfl
    have none := graph_of_stage (.inl (by rw [stage]; rfl) :
      b.assembly.stage.steps = [] ∨ b.assembly.stage.steps = [.create])
    have out : b.Outcome scene (b.compile scene) := compile_outcome stage
    generalize b.compile scene = outcome at out
    cases out with
    | refused refused => exact heeds_of_refused sound early (.inr rfl) refused
    | @rejected b₂ g text fault linked checked =>
      -- The nodes are linked by then, so this failure has taken two steps.
      obtain ⟨asked, rejects, kind⟩ := check_eq_error checked
      have named : g.script = b.assembly.script := by
        obtain ⟨blueprint, log, -, rfl⟩ := linked.planned
        rfl
      have two : Call.compile.steps (.error fault) = [.create, .link] := if_pos kind
      refine ⟨?_, ?_, fun late => absurd early late, ?_, fun g h => absurd h (none g), ?_⟩
      · rw [stage]
        show b₂.assembly.stage.steps = _
        rw [linked.assembly]
        exact two.symm
      · rintro - _ ⟨⟩
        exact .rejected (.inr rfl) (linked.reaches stage) asked linked.script (named ▸ rejects)
      · intro still
        exact absurd (two.symm.trans still) (List.cons_ne_nil _ _)
      · show b₂.assembly.Sound
        rw [linked.assembly]
        exact ⟨text, linked.script⟩
    | @written b₂ g text linked checked =>
      refine heeds_of_ok early ?_ (List.cons_ne_nil _ _) (fun g h => absurd h (none g))
        ⟨text, linked.script⟩
      rw [stage]
      rfl
  | created | linked | written =>
    have fails : b.compile scene = (.error (.alreadyCreated b.assembly.carrier), b) := by
      simp only [compile, createNodes]
      rw [stage]
    rw [fails]
    refine heeds_of_precondition sound ?_ rfl
    rw [stage]
    rfl

/-- **What an assembly answers.**  Calls in order take their steps unless they are hindered, and
calls out of order are refused. -/
theorem ask_heeds (sound : b.assembly.Sound) (scene : Scene) (k : Call) :
    b.Heeds scene k (b.ask scene k).1 (b.ask scene k).2 := by
  cases k with
  | createNodes => exact heeds_createNodes sound
  | linkNodes => exact heeds_linkNodes sound
  | writeScript => exact heeds_writeScript sound
  | graph => exact heeds_graph sound
  | compile => exact heeds_compile sound

end Bench

end SceneLogic
