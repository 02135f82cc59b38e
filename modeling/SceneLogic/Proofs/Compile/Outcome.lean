/-
What compiling a record gives.

A compilation that succeeds gives the graph of the blueprint of its subject
(`Compilation.compile_eq_ok`): laying out the nodes and wiring them decide the graph, and writing
the script only reads it.  `compile_timeline`, `compile_region` and `compile_link` say so of each
kind of record.  A graph is complete once its nodes are linked, whether or not its script passes
the check that follows (`Compilation.linkedGraph`).  `exists_of_playsAs` is for instances: it takes
a compilation and a run of what was compiled from one evaluation.
-/
import SceneLogic.Compile.Scene
import SceneLogic.Playback.Basic
import SceneLogic.Proofs.Compile.Sound
namespace SceneLogic

namespace Subject

/-- The graph of a blueprint of a subject, without its edges. -/
def laidOut (s : Subject) (config : Config) (b : Blueprint) : Graph :=
  b.unlinked s.carrier s.kind s.source (scriptName config s.carrier)

/-- The graph of a blueprint of a subject. -/
def graph (s : Subject) (config : Config) (b : Blueprint) : Graph :=
  b.graph s.carrier s.kind s.source (scriptName config s.carrier)

theorem record_of_make {record : Record} {object : Option String} {s : Subject}
    (made : make record object = .ok s) : s.record = record := by
  cases record with
  | timeline t =>
    cases made
    rfl
  | region t =>
    cases made
    rfl
  | link l =>
    rw [make] at made
    split at made
    · cases made
      rfl
    · cases made

end Subject

namespace Bench

/-- The bench with the nodes of a blueprint laid out. -/
def laidOut (b : Bench) (names : Names) (blueprint : Blueprint) (log : List Log.Entry) : Bench where
  names
  assembly := ⟨b.assembly.config, b.assembly.subject.close,
    .created blueprint (b.assembly.subject.laidOut b.assembly.config blueprint)⟩
  log := b.log ++ log

/-- Nodes are created for a carrier that can be claimed and a blueprint that the scene allows. -/
theorem createNodes_eq_ok {b b' : Bench} {scene : Scene} (fresh : b.assembly.stage = .fresh) :
    b.createNodes scene = .ok b' ↔
      ∃ names blueprint log, b.names.claim b.assembly.carrier .logic = .ok names ∧
        b.assembly.subject.blueprint b.assembly.config scene = .ok (blueprint, log) ∧
        b' = b.laidOut names blueprint log := by
  simp only [createNodes]
  rw [fresh]
  dsimp only
  rw [bind_eq_ok]
  refine exists_congr fun names => ?_
  constructor
  · rintro ⟨claimed, h⟩
    obtain ⟨⟨blueprint, log⟩, plan, h⟩ := bind_eq_ok.1 h
    obtain ⟨g, laid, h⟩ := bind_eq_ok.1 h
    rw [Subject.emptyGraph, (Subject.blueprint_sound plan).layOut_eq] at laid
    cases laid
    cases h
    exact ⟨blueprint, log, claimed, plan, rfl⟩
  · rintro ⟨blueprint, log, claimed, plan, rfl⟩
    refine ⟨claimed, bind_of_eq_ok plan ?_⟩
    exact bind_of_eq_ok ((Subject.blueprint_sound plan).layOut_eq _ _ _ _) rfl

/-- Linking the nodes of a sound blueprint does not fail. -/
theorem linkNodes_laidOut (b : Bench) (names : Names) {blueprint : Blueprint}
    (log : List Log.Entry) (sound : blueprint.Sound) :
    (b.laidOut names blueprint log).linkNodes = .ok { b.laidOut names blueprint log with
      assembly := ⟨b.assembly.config, b.assembly.subject.close,
        .linked (b.assembly.subject.graph b.assembly.config blueprint)⟩ } :=
  bind_of_eq_ok (sound.wire_eq _ _ _ _) rfl

/-- The nodes of a bench are linked as its blueprint says. -/
theorem linked_eq_ok {b b₁ b₂ : Bench} {scene : Scene} (fresh : b.assembly.stage = .fresh)
    (created : b.createNodes scene = .ok b₁) (linked : b₁.linkNodes = .ok b₂) :
    ∃ blueprint log, b.assembly.subject.blueprint b.assembly.config scene = .ok (blueprint, log) ∧
      b₂.assembly.stage = .linked (b.assembly.subject.graph b.assembly.config blueprint) := by
  obtain ⟨names, blueprint, log, -, plan, rfl⟩ := (createNodes_eq_ok fresh).1 created
  rw [linkNodes_laidOut _ _ _ (Subject.blueprint_sound plan)] at linked
  cases linked
  exact ⟨blueprint, log, plan, rfl⟩

theorem writeScript_eq_ok {b b' : Bench} {g : Graph} {text : String}
    (linked : b.assembly.stage = .linked g) (h : b.writeScript = (.ok text, b')) :
    b'.assembly.stage = .written g := by
  simp only [writeScript] at h
  rw [linked] at h
  dsimp only at h
  split at h
  · cases h
  · split at h
    · cases h
    · cases h
      rfl

/-- Writing the script only reads the graph. -/
theorem linked_of_compile {b b' : Bench} {scene : Scene} {compiled : Compiled}
    (fresh : b.assembly.stage = .fresh) (h : b.compile scene = (.ok compiled, b')) :
    ∃ b₁ b₂, b.createNodes scene = .ok b₁ ∧ b₁.linkNodes = .ok b₂ ∧
      b₂.assembly.graph = .ok compiled.graph := by
  rw [compile] at h
  split at h
  · cases h
  · next b₁ created =>
    split at h
    · cases h
    · next b₂ linked =>
      obtain ⟨blueprint, log, -, wired⟩ := linked_eq_ok fresh created linked
      split at h
      · cases h
      · next script b₃ written =>
        have final := writeScript_eq_ok wired written
        rw [Assembly.graph, final] at h
        cases h
        exact ⟨b₁, b₂, created, linked, by rw [Assembly.graph, wired]⟩

/-- The graph of a bench whose nodes are linked is that of the blueprint. -/
theorem graph_eq_ok {b b₁ b₂ : Bench} {scene : Scene} {g : Graph}
    (fresh : b.assembly.stage = .fresh) (created : b.createNodes scene = .ok b₁)
    (linked : b₁.linkNodes = .ok b₂) (h : b₂.assembly.graph = .ok g) :
    ∃ blueprint log, b.assembly.subject.blueprint b.assembly.config scene = .ok (blueprint, log) ∧
      g = b.assembly.subject.graph b.assembly.config blueprint := by
  obtain ⟨blueprint, log, plan, wired⟩ := linked_eq_ok fresh created linked
  rw [Assembly.graph, wired] at h
  cases h
  exact ⟨blueprint, log, plan, rfl⟩

theorem compile_eq_ok {b b' : Bench} {scene : Scene} {compiled : Compiled}
    (fresh : b.assembly.stage = .fresh) (h : b.compile scene = (.ok compiled, b')) :
    ∃ blueprint log, b.assembly.subject.blueprint b.assembly.config scene = .ok (blueprint, log) ∧
      compiled.graph = b.assembly.subject.graph b.assembly.config blueprint := by
  obtain ⟨b₁, b₂, created, linked, graph⟩ := linked_of_compile fresh h
  exact graph_eq_ok fresh created linked graph

end Bench

namespace Compilation

variable {c c' : Compilation} {config : Config} {scene : Scene} {object : Option String}
  {compiled : Compiled}

/-- **What a successful compilation gives**: the graph of the blueprint of its subject. -/
theorem compile_eq_ok {record : Record}
    (h : c.compile config scene record object = (.ok compiled, c')) :
    ∃ subject blueprint log, Subject.make record object = .ok subject ∧
      subject.blueprint config scene = .ok (blueprint, log) ∧
      compiled.graph = subject.graph config blueprint := by
  rw [compile] at h
  split at h
  · cases h
  · next subject made =>
    obtain ⟨result, h⟩ := Prod.mk.inj h
    obtain ⟨blueprint, log, plan, graph⟩ := Bench.compile_eq_ok rfl (Prod.ext result rfl)
    exact ⟨subject, blueprint, log, made, plan, graph⟩

theorem compile_timeline {t : Timeline}
    (h : c.compile config scene (.timeline t) object = (.ok compiled, c')) :
    ∃ carrier script,
      compiled.graph =
        (Blueprint.timeline config t).graph carrier .timeline t.name.text script := by
  obtain ⟨subject, blueprint, log, made, plan, graph⟩ := compile_eq_ok h
  cases made
  cases plan
  exact ⟨_, _, graph⟩

theorem compile_region {t : RegionTrigger}
    (h : c.compile config scene (.region t) object = (.ok compiled, c')) :
    ∃ carrier script tracked, t.trackedIn scene = .ok tracked ∧
      compiled.graph =
        (Blueprint.region config t tracked).graph carrier .region t.name.text script := by
  obtain ⟨subject, blueprint, log, made, plan, graph⟩ := compile_eq_ok h
  cases made
  obtain ⟨tracked, found, plan⟩ := bind_eq_ok.1 plan
  cases plan
  exact ⟨_, _, tracked, found, graph⟩

theorem compile_link {l : ClickLink}
    (h : c.compile config scene (.link l) object = (.ok compiled, c')) :
    ∃ target script, object.bind Target.ofText? = some target ∧
      compiled.graph = (Blueprint.link config (linkCarrier target.name) l target.name).graph
        (linkCarrier target.name) .link target.name script := by
  obtain ⟨subject, blueprint, log, made, plan, graph⟩ := compile_eq_ok h
  simp only [Subject.make] at made
  split at made
  · next target named =>
    cases made
    simp only [Subject.blueprint] at plan
    split at plan
    · cases plan
      exact ⟨target, _, named, graph⟩
    · cases plan
  · cases made

/-! ### Linked graphs -/

/-- The graph of a record once its nodes are created and linked. -/
def linkedGraph (c : Compilation) (config : Config) (scene : Scene) (record : Record)
    (object : Option String) : Except Fault Graph := do
  let subject ← Subject.make record object
  let b ← Bench.createNodes { names := c.names, assembly := { config, subject }, log := c.log } scene
  let b ← b.linkNodes
  b.assembly.graph

theorem linkedGraph_eq_ok {record : Record} {g : Graph}
    (h : c.linkedGraph config scene record object = .ok g) :
    ∃ subject blueprint log, Subject.make record object = .ok subject ∧
      subject.blueprint config scene = .ok (blueprint, log) ∧ g = subject.graph config blueprint := by
  obtain ⟨subject, made, h⟩ := bind_eq_ok.1 h
  obtain ⟨b, created, h⟩ := bind_eq_ok.1 h
  obtain ⟨b', linked, h⟩ := bind_eq_ok.1 h
  obtain ⟨blueprint, log, plan, graph⟩ := Bench.graph_eq_ok rfl created linked h
  exact ⟨subject, blueprint, log, made, plan, graph⟩

/-! ### Instances -/

/-- A record compiles, its graph can be loaded, and what is loaded passes a check. -/
def playsAs (c : Compilation) (config : Config) (scene : Scene) (record : Record)
    (object : Option String) (check : Graph → Playback → Bool) : Bool :=
  match (c.compile config scene record object).1 with
  | .ok compiled =>
    match ({} : Playback).load compiled.graph with
    | .ok p => check compiled.graph p
    | .error _ => false
  | .error _ => false

theorem exists_of_playsAs {record : Record} {check : Graph → Playback → Bool}
    (h : c.playsAs config scene record object check) :
    ∃ compiled c' p, c.compile config scene record object = (.ok compiled, c') ∧
      ({} : Playback).load compiled.graph = .ok p ∧ check compiled.graph p := by
  rw [playsAs] at h
  rcases made : c.compile config scene record object with ⟨fault | compiled, c'⟩
  · rw [made] at h
    cases h
  · rw [made] at h
    dsimp only at h
    split at h
    · next p loads => exact ⟨compiled, c', p, rfl, loads, h⟩
    · cases h

/-- One tick in a second, and no check of scripts. -/
def plainConfig : Config :=
  { Config.standard with ticksPerSecond := 1, checkGeneratedLogic := false }

end Compilation

end SceneLogic
