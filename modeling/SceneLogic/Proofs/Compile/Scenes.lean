/-
What compiling a scene gives.

The records of a scene are compiled in a row, each against the names that those before it have
claimed (`Compilation.compileAll_eq_ok`, `Compilation.compileAll_eq_error`).  So carriers differ,
and with them the names of scripts and the full names of nodes: no script takes the place of
another, and no node is known by the name of another.  A name is in use for a record only if it
was so before or an earlier record has claimed it, and records that differ in kind or name ask for
different carriers (`Graph.Kind.stem_append_inj`).
-/
import SceneLogic.Proofs.Compile.Steps
import SceneLogic.Proofs.Scene.Names
namespace SceneLogic

/-! ### Scripts by name -/

theorem enterScript_of_new {name text : String} {scripts : List (String × String)}
    (h : name ∉ scripts.map Prod.fst) :
    enterScript name text scripts = scripts ++ [(name, text)] := by
  induction scripts with
  | nil => rfl
  | cons s scripts ih =>
    obtain ⟨k, old⟩ := s
    rw [List.map_cons, List.mem_cons, not_or] at h
    rw [enterScript, if_neg (Ne.symm h.1), ih h.2]
    rfl

/-- Nothing is replaced by graphs whose scripts have new and different names. -/
theorem CompiledScene.foldl_add (s : CompiledScene) (ones : List Compiled)
    (h : (s.scripts.map Prod.fst ++ ones.map (·.graph.script)).Nodup) :
    ones.foldl add s =
      ⟨s.graphs ++ ones.map (·.graph), s.scripts ++ ones.map fun c => (c.graph.script, c.script)⟩ := by
  induction ones generalizing s with
  | nil => simp
  | cons one ones ih =>
    have new : one.graph.script ∉ s.scripts.map Prod.fst := by
      intro mem
      exact (List.nodup_append.1 h).2.2 _ mem _ List.mem_cons_self rfl
    have added : s.add one =
        ⟨s.graphs ++ [one.graph], s.scripts ++ [(one.graph.script, one.script)]⟩ := by
      rw [add, enterScript_of_new new]
    rw [List.foldl_cons, added, ih _ (by simpa using h)]
    simp

/-! ### Carriers -/

/-- What the carriers of a kind of record begin with. -/
def Graph.Kind.stem : Graph.Kind → String
  | timeline => "timeline_"
  | region => "trigger_"
  | link => "link_"

/-- The carriers of different records are different, also across the kinds. -/
theorem Graph.Kind.stem_append_inj {kind kind' : Graph.Kind} {source source' : String} :
    kind.stem ++ source = kind'.stem ++ source' ↔ kind = kind' ∧ source = source' := by
  constructor
  · intro h
    have start : ∀ (kind : Graph.Kind) (source : String),
        (kind.stem ++ source).toList.take 2 = kind.stem.toList.take 2 := by
      intro kind source
      rw [String.toList_append, List.take_append_of_le_length (by cases kind <;> decide)]
    have stems : kind.stem.toList.take 2 = kind'.stem.toList.take 2 := by
      rw [← start kind source, h, start]
    have same : kind = kind' := by
      cases kind <;> cases kind' <;> first | rfl | exact absurd stems (by decide)
    subst same
    exact ⟨rfl, (String.append_right_inj _).1 h⟩
  · rintro ⟨rfl, rfl⟩
    rfl

namespace Compilation

variable {c c' : Compilation} {config : Config} {scene : Scene}

/-! ### Records in a row -/

/-- An entry of a scene compiles to the graph of its blueprint and to the script of that graph. -/
def CompilesTo (config : Config) (scene : Scene) (e : Record × Option String) (one : Compiled) :
    Prop :=
  ∃ subject blueprint log, Subject.make e.1 e.2 = .ok subject ∧
    subject.blueprint config scene = .ok (blueprint, log) ∧
    one.graph = subject.graph config blueprint ∧ Lua.emit one.graph = .ok one.script

theorem compilesTo_of_compile {e : Record × Option String} {one : Compiled}
    (h : c.compile config scene e.1 e.2 = (.ok one, c')) :
    CompilesTo config scene e one ∧ c.names.claim one.graph.carrier .logic = .ok c'.names := by
  rcases c.compile_cases config scene e.1 e.2 with ⟨fault, -, fails⟩ |
    ⟨subject, result, b, made, out, ends⟩
  · rw [fails] at h
    cases h
  · rw [ends] at h
    cases h
    cases out with
    | written linked checked =>
      obtain ⟨blueprint, log, plan, rfl⟩ := linked.planned
      exact ⟨⟨subject, blueprint, log, made, plan, rfl, linked.script⟩, linked.claimed⟩

/-- Names collide only in a carrier that is taken. -/
theorem isTaken_of_compile {e : Record × Option String} {fault : Fault}
    (h : c.compile config scene e.1 e.2 = (.error fault, c'))
    (collides : fault.kind = .nameCollision) :
    ∃ subject, Subject.make e.1 e.2 = .ok subject ∧ c.names.isTaken subject.carrier := by
  rcases c.compile_cases config scene e.1 e.2 with ⟨other, unmade, fails⟩ |
    ⟨subject, result, b, made, out, ends⟩
  · rw [fails] at h
    cases h
    rw [Subject.kind_of_make_eq_error unmade] at collides
    cases collides
  · rw [ends] at h
    cases h
    refine ⟨subject, made, ?_⟩
    cases out with
    | refused refused =>
      cases refused with
      | blank => cases collides
      | taken held => rw [Names.isTaken, held]; rfl
      | unresolved => cases collides
    | rejected linked checked =>
      rw [(Bench.check_eq_error checked).2.2] at collides
      cases collides

/-- What records in a row compile to, and what they claim. -/
structure InRow (config : Config) (scene : Scene) (c : Compilation)
    (records : List (Record × Option String)) (ones : List Compiled) (c' : Compilation) : Prop where
  each : List.Forall₂ (CompilesTo config scene) records ones
  claims : c.names.ClaimsAll (ones.map (·.graph.carrier)) c'.names

theorem InRow.cons {e : Record × Option String} {one : Compiled} {c₁ : Compilation}
    {records : List (Record × Option String)} {ones : List Compiled}
    (first : c.compile config scene e.1 e.2 = (.ok one, c₁))
    (rest : InRow config scene c₁ records ones c') :
    InRow config scene c (e :: records) (one :: ones) c' := by
  obtain ⟨compiles, claimed⟩ := compilesTo_of_compile first
  exact ⟨.cons compiles rest.each, .cons claimed rest.claims⟩

theorem compileAll_eq_ok {records : List (Record × Option String)} {before after : CompiledScene}
    (h : c.compileAll config scene before records = (.ok after, c')) :
    ∃ ones, InRow config scene c records ones c' ∧ after = ones.foldl CompiledScene.add before := by
  induction records generalizing c before with
  | nil =>
    cases h
    exact ⟨[], ⟨.nil, .nil⟩, rfl⟩
  | cons e records ih =>
    obtain ⟨record, object⟩ := e
    rw [compileAll] at h
    split at h
    · cases h
    · next one c₁ first =>
      obtain ⟨ones, rest, rfl⟩ := ih h
      exact ⟨one :: ones, rest.cons first, rfl⟩

/-- Records fail at the first that does not compile. -/
theorem compileAll_eq_error {records : List (Record × Option String)} {compiled : CompiledScene}
    {fault : Fault} (h : c.compileAll config scene compiled records = (.error fault, c')) :
    ∃ before e after ones c₁, records = before ++ e :: after ∧
      InRow config scene c before ones c₁ ∧
      c₁.compile config scene e.1 e.2 = (.error fault, c') := by
  induction records generalizing c compiled with
  | nil => cases h
  | cons e records ih =>
    obtain ⟨record, object⟩ := e
    rw [compileAll] at h
    split at h
    · next first =>
      cases h
      exact ⟨[], (record, object), records, [], c, rfl, ⟨.nil, .nil⟩, first⟩
    · next one c₁ first =>
      obtain ⟨before, e, after, ones, c₂, rfl, rest, fails⟩ := ih h
      exact ⟨_ :: before, e, after, one :: ones, c₂, rfl, rest.cons first, fails⟩

/-! ### Scenes -/

/-- Nothing is lost in a compiled scene: every entry has its graph, every graph its script under a
name of its own, every node a name of its own, and the carriers are claimed. -/
structure Complete (config : Config) (scene : Scene) (c : Compilation)
    (records : List (Record × Option String)) (compiled : CompiledScene) (c' : Compilation) :
    Prop where
  graphs : List.Forall₂ (fun e g => ∃ subject blueprint log, Subject.make e.1 e.2 = .ok subject ∧
    subject.blueprint config scene = .ok (blueprint, log) ∧ g = subject.graph config blueprint)
    records compiled.graphs
  carriers : (compiled.graphs.map Graph.carrier).Nodup
  free : ∀ g ∈ compiled.graphs, c.names.isTaken g.carrier = false
  scripts : List.Forall₂ (fun g s => s.1 = g.script ∧ Lua.emit g = .ok s.2)
    compiled.graphs compiled.scripts
  modules : (compiled.scripts.map Prod.fst).Nodup
  nodes : (compiled.graphs.flatMap fun g => g.nodes.map Node.id).Nodup
  claims : ∀ name, c'.names.claims.get? name =
    if name ∈ compiled.graphs.map Graph.carrier then some .logic else c.names.claims.get? name

namespace InRow

variable {records : List (Record × Option String)} {ones : List Compiled}

theorem exists_compilesTo (h : InRow config scene c records ones c') {one : Compiled}
    (hone : one ∈ ones) : ∃ e ∈ records, CompilesTo config scene e one := by
  obtain ⟨each, -⟩ := h
  induction each with
  | nil => cases hone
  | @cons e first records ones compiles _ ih =>
    rcases List.mem_cons.1 hone with rfl | later
    · exact ⟨e, List.mem_cons_self, compiles⟩
    · obtain ⟨e', mem, compiles'⟩ := ih later
      exact ⟨e', List.mem_cons_of_mem _ mem, compiles'⟩

theorem script (h : InRow config scene c records ones c') {one : Compiled} (hone : one ∈ ones) :
    one.graph.script = scriptName config one.graph.carrier := by
  obtain ⟨e, -, subject, blueprint, log, -, -, graph, -⟩ := h.exists_compilesTo hone
  rw [graph]
  rfl

theorem wellFormed (h : InRow config scene c records ones c') {one : Compiled}
    (hone : one ∈ ones) : one.graph.WellFormed := by
  obtain ⟨e, -, subject, blueprint, log, -, plan, graph, -⟩ := h.exists_compilesTo hone
  rw [graph]
  exact (Subject.blueprint_sound plan).wellFormed _ _ _ _

/-- The scripts of different carriers have different names. -/
theorem nodup_scripts (h : InRow config scene c records ones c') :
    (ones.map (·.graph.script)).Nodup := by
  have names : ones.map (·.graph.script) =
      (ones.map (·.graph.carrier)).map (nodeId config.logicModulePrefix) := by
    rw [List.map_map]
    exact List.map_congr_left fun one hone => h.script hone
  rw [names]
  exact h.claims.fresh.1.map fun _ _ => nodeId_inj.1

/-- Nodes of different carriers have different full names, whatever dots the carriers have. -/
theorem nodup_nodes (h : InRow config scene c records ones c') :
    ((ones.map (·.graph)).flatMap fun g => g.nodes.map Node.id).Nodup := by
  rw [List.nodup_flatMap, List.forall_mem_map, List.pairwise_map]
  refine ⟨fun one hone => (h.wellFormed hone).nodes, ?_⟩
  have apart := List.pairwise_map.1 h.claims.fresh.1
  refine apart.imp_of_mem fun {one other} hone hother different => ?_
  intro id hid hid'
  obtain ⟨n, hn, rfl⟩ := List.mem_map.1 hid
  obtain ⟨n', hn', same⟩ := List.mem_map.1 hid'
  obtain ⟨name, full, free⟩ := (h.wellFormed hone).names n hn
  obtain ⟨name', full', free'⟩ := (h.wellFormed hother).names n' hn'
  rw [full, full', nodeId_inj_of_dotFree free' free] at same
  exact different same.1.symm

theorem complete (h : InRow config scene c records ones c') :
    Complete config scene c records (ones.foldl CompiledScene.add {}) c' := by
  have final : ones.foldl CompiledScene.add {} =
      ⟨ones.map (·.graph), ones.map fun one => (one.graph.script, one.script)⟩ := by
    rw [CompiledScene.foldl_add _ _ (by simpa using h.nodup_scripts)]
    rfl
  have carriers : (ones.map (·.graph)).map Graph.carrier = ones.map (·.graph.carrier) := by
    rw [List.map_map]
    rfl
  obtain ⟨nodup, free⟩ := h.claims.fresh
  rw [final]
  refine ⟨?_, carriers ▸ nodup, ?_, ?_, ?_, h.nodup_nodes, ?_⟩
  · refine List.forall₂_map_right_iff.2 (h.each.imp fun e one compiles => ?_)
    obtain ⟨subject, blueprint, log, made, plan, graph, -⟩ := compiles
    exact ⟨subject, blueprint, log, made, plan, graph⟩
  · intro g hg
    exact free _ (carriers ▸ List.mem_map_of_mem hg)
  · refine List.forall₂_map_left_iff.2 (List.forall₂_map_right_iff.2 (List.forall₂_same.2 ?_))
    intro one hone
    obtain ⟨e, -, subject, blueprint, log, -, -, -, script⟩ := h.exists_compilesTo hone
    exact ⟨rfl, script⟩
  · rw [List.map_map]
    exact h.nodup_scripts
  · intro name
    rw [carriers]
    exact h.claims.get? name

end InRow

/-- No carrier is asked for other than the one named after the record, or after the object of a
link. -/
def NoOverride : Record × Option String → Prop
  | (.link _, _) => True
  | (_, object) => object = none

/-- Two entries are not of one kind and one name. -/
def Distinct (e e' : Record × Option String) : Prop :=
  ∀ s s', Subject.make e.1 e.2 = .ok s → Subject.make e'.1 e'.2 = .ok s' →
    (s.kind, s.source) ≠ (s'.kind, s'.source)

theorem carrier_of_noOverride {e : Record × Option String} {s : Subject} (h : NoOverride e)
    (made : Subject.make e.1 e.2 = .ok s) : s.carrier = s.kind.stem ++ s.source := by
  obtain ⟨record, object⟩ := e
  cases record with
  | timeline t =>
    cases h
    cases made
    rfl
  | region t =>
    cases h
    cases made
    rfl
  | link l =>
    simp only [Subject.make] at made
    split at made
    · cases made
      rfl
    · cases made

/-- **Compiling a scene loses nothing.**  A scene that compiles is complete.  If it fails for a
name that is in use, that is the carrier of one of its entries, which something held before or an
earlier entry has claimed; entries of different kinds or names that ask for no other carriers
leave only the former. -/
theorem compileScene_complete (c : Compilation) (config : Config) (scene : Scene)
    (records : List (Record × Option String)) :
    (∀ compiled c', c.compileScene config scene records = (.ok compiled, c') →
      Complete config scene c records compiled c') ∧
    ∀ fault c', c.compileScene config scene records = (.error fault, c') →
      fault.kind = .nameCollision →
      ∃ before e after subject, records = before ++ e :: after ∧
        Subject.make e.1 e.2 = .ok subject ∧
        (c.names.isTaken subject.carrier ∨
          ∃ e' ∈ before, ∃ s, Subject.make e'.1 e'.2 = .ok s ∧ s.carrier = subject.carrier) ∧
        (records.Pairwise Distinct → (∀ e ∈ records, NoOverride e) →
          c.names.isTaken subject.carrier) := by
  constructor
  · intro compiled c' h
    rw [compileScene] at h
    split at h
    · cases h
    · next after c₁ all =>
      cases h
      obtain ⟨ones, inRow, rfl⟩ := compileAll_eq_ok all
      exact InRow.complete ⟨inRow.each, inRow.claims⟩
  · intro fault c' h collides
    rw [compileScene] at h
    split at h
    · next first c₁ all =>
      cases h
      obtain ⟨before, e, after, ones, c₂, rfl, inRow, fails⟩ := compileAll_eq_error all
      obtain ⟨subject, made, taken⟩ := isTaken_of_compile fails collides
      have earlier : c.names.isTaken subject.carrier ∨
          ∃ e' ∈ before, ∃ s, Subject.make e'.1 e'.2 = .ok s ∧ s.carrier = subject.carrier := by
        rcases (inRow.claims.isTaken _).1 taken with claimed | held
        · obtain ⟨one, hone, same⟩ := List.mem_map.1 claimed
          obtain ⟨e', mem, s, blueprint, log, made', -, graph, -⟩ := inRow.exists_compilesTo hone
          rw [graph] at same
          exact .inr ⟨e', mem, s, made', same⟩
        · exact .inl held
      refine ⟨before, e, after, subject, rfl, made, earlier, fun distinct standard => ?_⟩
      rcases earlier with held | ⟨e', mem, s, made', same⟩
      · exact held
      · have mem' : e' ∈ before ++ e :: after := List.mem_append_left _ mem
        have here : e ∈ before ++ e :: after := List.mem_append_right _ List.mem_cons_self
        rw [carrier_of_noOverride (standard e' mem') made',
          carrier_of_noOverride (standard e here) made, Graph.Kind.stem_append_inj] at same
        have apart := (List.pairwise_append.1 distinct).2.2 e' mem e List.mem_cons_self
        exact absurd (Prod.ext same.1 same.2) (apart s subject made' made)
    · cases h

/-- The outcome of compiling the link on a door some times over. -/
def compileDoors (times : Nat) : Except Fault CompiledScene × Compilation :=
  compileScene { names := .empty } plainConfig doorScene
    (List.replicate times (.link doorLink, some "door"))

/-- A link on a door makes a scene, and a second one collides with it. -/
theorem doorLink_scenes :
    (∃ compiled c', compileDoors 1 = (.ok compiled, c') ∧
      Complete plainConfig doorScene { names := .empty } [(.link doorLink, some "door")]
        compiled c') ∧
    ∃ fault c' before e after subject, compileDoors 2 = (.error fault, c') ∧
      fault.kind = .nameCollision ∧
      [(.link doorLink, some "door"), (.link doorLink, some "door")] = before ++ e :: after ∧
      Subject.make e.1 e.2 = .ok subject ∧
      ∃ e' ∈ before, ∃ s, Subject.make e'.1 e'.2 = .ok s ∧ s.carrier = subject.carrier := by
  have one : (compileDoors 1).1.isOk := by decide +kernel
  have two : (match (compileDoors 2).1 with
      | .error fault => decide (fault.kind = .nameCollision)
      | .ok _ => false) = true := by decide +kernel
  constructor
  · cases h : compileDoors 1 with
    | mk result c' =>
      rw [h] at one
      cases result with
      | error fault => cases one
      | ok compiled =>
        exact ⟨compiled, c', rfl, (compileScene_complete _ _ _ _).1 compiled c' h⟩
  · cases h : compileDoors 2 with
    | mk result c' =>
      rw [h] at two
      cases result with
      | ok compiled => cases two
      | error fault =>
        have collides : fault.kind = .nameCollision := of_decide_eq_true two
        obtain ⟨before, e, after, subject, split, made, earlier, -⟩ :=
          (compileScene_complete _ _ _ _).2 fault c' h collides
        refine ⟨fault, c', before, e, after, subject, rfl, collides, split, made, ?_⟩
        rcases earlier with held | found
        · -- Nothing is claimed before, and no carrier of a link is reserved.
          have link : e = (.link doorLink, some "door") := by
            have mem : e ∈ List.replicate 2 (Record.link doorLink, some "door") := by
              rw [split]
              exact List.mem_append_right _ List.mem_cons_self
            exact List.eq_of_mem_replicate mem
          subst link
          cases made
          exact absurd held (by decide +kernel)
        · exact found

end Compilation

end SceneLogic
