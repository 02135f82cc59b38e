/-
Commissions are worked on by the protocol.

A commission may be called at any time, and between the calls the scene and the registries may
change in any way (`Occasion`).  Still its steps are taken each once and in their order
(`Workspace.protocol_law`): a call out of order is refused, a call that takes no step leaves the
registries, the records and the commission as they were, so that one whose nodes could not be
created is as good as new, and once its nodes are linked it has one graph for good.
-/
import SceneLogic.Proofs.Compile.Protocol
import SceneLogic.Proofs.Workspace.Failures
namespace SceneLogic

theorem Subject.renewed_record (s : Subject) : s.renewed s.record = s := by
  cases s <;> rfl

namespace Workspace

open Assembly (Answer Call Step)

/-! ### Asking a commission -/

/-- Asks something of a commission. -/
def ask (name : String) (c : Commission) : Call → Work Answer
  | .createNodes => do
    createNodes name c
    return .done
  | .linkNodes => do
    linkNodes name c
    return .done
  | .writeScript => return .script (← writeScript name c)
  | .graph => return .graph (← ofResult c.assembly.graph)
  | .compile => return .compiled (← compileCommission name c)

/-- A commission is known by a name, and its record lies at its place. -/
structure Has (w : Workspace) (name : String) (c : Commission) : Prop where
  known : w.commissions.lookup name = some c
  shelved : w.records[c.place]? = some c.assembly.subject.record

variable {w w' : Workspace} {name : String} {c : Commission}

theorem Has.benchOf (h : w.Has name c) :
    w.benchOf c = { names := w.namesAt c.registry, assembly := c.assembly } := by
  rw [Workspace.benchOf, h.shelved]
  dsimp only
  rw [Subject.renewed_record]

/-- The workspace with what is left of the work on a commission at a bench. -/
def worked (w : Workspace) (name : String) (c : Commission) (b : Bench) : Workspace :=
  { (w.withNames c.registry b.names).putBack c.place b.assembly.subject.record with
    commissions := (name, { c with assembly := b.assembly }) ::
      w.commissions.filter (·.1 != name)
    log := w.log ++ b.log }

theorem run_workOn_bind {α β : Type} (step : Scene → Bench → Except Fault α × Bench)
    (next : α → Work β) :
    (workOn name c step >>= next).run.run w =
      match step w.scene (w.benchOf c) with
      | (.ok a, b) => (next a).run.run (w.worked name c b)
      | (.error fault, b) => (.error fault, w.worked name c b) := by
  have steps : (workOn name c step >>= next).run.run w =
      (ofResult (step w.scene (w.benchOf c)).1 >>= next).run.run
        (w.worked name c (step w.scene (w.benchOf c)).2) := rfl
  rw [steps]
  rcases step w.scene (w.benchOf c) with ⟨_ | _, b⟩ <;> rfl

/-- Work on a commission at a bench goes into another workspace. -/
structure Enters (w : Workspace) (name : String) (c : Commission) (b : Bench)
    (w' : Workspace) : Prop where
  scene : w'.scene = w.scene
  registries : w'.registries = w.registries.set c.registry b.names
  records : w'.records = w.records.set c.place b.assembly.subject.record
  known : w'.commissions.lookup name = some { c with assembly := b.assembly }

theorem worked_enters (b : Bench) : w.Enters name c b (w.worked name c b) :=
  ⟨rfl, rfl, rfl, List.lookup_cons_self⟩

theorem Has.enters (h : w.Has name c) : w.Enters name c (w.benchOf c) w where
  scene := rfl
  registries := by rw [h.benchOf, set_namesAt]
  records := by
    obtain ⟨inside, same⟩ := List.getElem?_eq_some_iff.1 h.shelved
    rw [h.benchOf]
    dsimp only
    rw [← same, List.set_getElem_self]
  known := by rw [h.known, h.benchOf]

theorem Enters.has {b : Bench} (enters : w.Enters name c b w') (h : w.Has name c) :
    w'.Has name { c with assembly := b.assembly } where
  known := enters.known
  shelved := by
    obtain ⟨inside, -⟩ := List.getElem?_eq_some_iff.1 h.shelved
    rw [enters.records, List.getElem?_set_self inside]

/-- A call is answered at the bench of the commission. -/
theorem ask_run (h : w.Has name c) (k : Call) :
    ∃ w', (ask name c k).run.run w = (((w.benchOf c).ask w.scene k).1, w') ∧
      w.Enters name c ((w.benchOf c).ask w.scene k).2 w' := by
  cases k with
  | createNodes =>
    have run : (ask name c .createNodes).run.run w =
        (workOn name c (fun scene b => orStay b (b.createNodes scene)) >>=
          fun _ => pure .done).run.run w := rfl
    rw [run, run_workOn_bind, Bench.ask]
    cases (w.benchOf c).createNodes w.scene with
    | error | ok => exact ⟨_, rfl, worked_enters _⟩
  | linkNodes =>
    have run : (ask name c .linkNodes).run.run w =
        (workOn name c (fun _ b => orStay b b.linkNodes) >>= fun _ => pure .done).run.run w := rfl
    rw [run, run_workOn_bind, Bench.ask]
    cases (w.benchOf c).linkNodes with
    | error | ok => exact ⟨_, rfl, worked_enters _⟩
  | writeScript =>
    have run : (ask name c .writeScript).run.run w =
        (workOn name c (fun _ b => b.writeScript) >>= fun text => pure (.script text)).run.run w :=
      rfl
    rw [run, run_workOn_bind, Bench.ask]
    rcases (w.benchOf c).writeScript with ⟨_ | _, b⟩ <;> exact ⟨_, rfl, worked_enters b⟩
  | graph =>
    refine ⟨w, ?_, h.enters⟩
    have run : (ask name c .graph).run.run w =
        (ofResult c.assembly.graph >>= fun g => pure (.graph g)).run.run w := rfl
    rw [run, Bench.ask, h.benchOf]
    cases c.assembly.graph with
    | error | ok => rfl
  | compile =>
    have run : ask name c .compile = workOn name c (fun scene b => b.compile scene) >>=
        fun compiled => keepGraph compiled.graph >>= fun _ => pure (.compiled compiled) := by
      simp only [ask, compileCommission, bind_assoc, pure_bind]
    rw [run, run_workOn_bind, Bench.ask]
    rcases (w.benchOf c).compile w.scene with ⟨fault | compiled, b⟩
    · exact ⟨_, rfl, worked_enters b⟩
    · exact ⟨_, rfl, rfl, rfl, rfl, (worked_enters b).known⟩

/-! ### Occasions -/

/-- What may happen to a workspace where a commission is worked on: it is called, or the scene or
a registry becomes another. -/
inductive Occasion where
  | call (k : Call)
  | scene (s : Scene)
  | names (place : Nat) (names : Names)

/-- What a call to the commission of a name answers, if there is one. -/
def answer? (w : Workspace) (name : String) (k : Call) : Option (Except Fault Answer) :=
  (w.commissions.lookup name).map fun c => ((ask name c k).run.run w).1

/-- The workspace after an occasion. -/
def meet (w : Workspace) (name : String) : Occasion → Workspace
  | .call k =>
    match w.commissions.lookup name with
    | some c => ((ask name c k).run.run w).2
    | none => w
  | .scene scene => { w with scene }
  | .names place names => w.withNames place names

/-- The workspace after some occasions. -/
def meetAll (w : Workspace) (name : String) (occasions : List Occasion) : Workspace :=
  occasions.foldl (fun w o => w.meet name o) w

/-- The steps that are taken on an occasion. -/
def stepsOn (w : Workspace) (name : String) : Occasion → List Step
  | .call k => ((w.answer? name k).map k.steps).getD []
  | _ => []

/-- The steps that are taken on some occasions, one after the other. -/
def taken (w : Workspace) (name : String) : List Occasion → List Step
  | [] => []
  | o :: rest => w.stepsOn name o ++ (w.meet name o).taken name rest

theorem answer?_eq (h : w.Has name c) (k : Call) :
    w.answer? name k = some ((w.benchOf c).ask w.scene k).1 := by
  obtain ⟨w', run, -⟩ := ask_run h k
  rw [answer?, h.known, Option.map_some, run]

theorem meet_call (h : w.Has name c) (k : Call) :
    w.Enters name c ((w.benchOf c).ask w.scene k).2 (w.meet name (.call k)) := by
  obtain ⟨w', run, enters⟩ := ask_run h k
  rw [meet, h.known]
  dsimp only
  rw [run]
  exact enters

theorem Has.heeds (h : w.Has name c) (sound : c.assembly.Sound) (k : Call) :
    (w.benchOf c).Heeds w.scene k ((w.benchOf c).ask w.scene k).1
      ((w.benchOf c).ask w.scene k).2 :=
  Bench.ask_heeds (by rw [h.benchOf]; exact sound) w.scene k

theorem Has.assembly_benchOf (h : w.Has name c) : (w.benchOf c).assembly = c.assembly := by
  rw [h.benchOf]

/-- What a commission comes to on an occasion. -/
theorem meet_keeps (h : w.Has name c) (sound : c.assembly.Sound) (o : Occasion) :
    ∃ c', (w.meet name o).Has name c' ∧ c'.assembly.Sound ∧
      c'.assembly.stage.steps = c.assembly.stage.steps ++ w.stepsOn name o ∧
      (w.stepsOn name o = [] → c' = c) ∧
      ∀ g, c.assembly.graph = .ok g → c'.assembly.graph = .ok g := by
  cases o with
  | call k =>
    have heeds := h.heeds sound k
    have steps : w.stepsOn name (.call k) = k.steps ((w.benchOf c).ask w.scene k).1 := by
      rw [stepsOn, answer?_eq h]
      rfl
    refine ⟨{ c with assembly := ((w.benchOf c).ask w.scene k).2.assembly },
      (meet_call h k).has h, heeds.sound, ?_, ?_, ?_⟩
    · rw [steps, ← h.assembly_benchOf]
      exact heeds.steps
    · intro still
      obtain ⟨-, same⟩ := heeds.idle (steps ▸ still)
      rw [same, h.assembly_benchOf]
    · intro g known
      rw [← h.assembly_benchOf] at known
      exact heeds.graph g known
  | scene | names =>
    exact ⟨c, ⟨h.known, h.shelved⟩, sound, (List.append_nil _).symm, fun _ => rfl, fun _ h => h⟩

/-- What a commission comes to on some occasions. -/
theorem meetAll_keeps (occasions : List Occasion) (h : w.Has name c) (sound : c.assembly.Sound) :
    ∃ c', (w.meetAll name occasions).Has name c' ∧ c'.assembly.Sound ∧
      c'.assembly.stage.steps = c.assembly.stage.steps ++ w.taken name occasions ∧
      (w.taken name occasions = [] → c' = c) ∧
      ∀ g, c.assembly.graph = .ok g → c'.assembly.graph = .ok g := by
  induction occasions generalizing w c with
  | nil => exact ⟨c, h, sound, (List.append_nil _).symm, fun _ => rfl, fun _ h => h⟩
  | cons o rest ih =>
    obtain ⟨c₁, h₁, sound₁, steps₁, still₁, graph₁⟩ := meet_keeps h sound o
    obtain ⟨c₂, h₂, sound₂, steps₂, still₂, graph₂⟩ := ih h₁ sound₁
    refine ⟨c₂, h₂, sound₂, ?_, ?_, fun g known => graph₂ g (graph₁ g known)⟩
    · rw [steps₂, steps₁, List.append_assoc, taken]
    · intro none
      rw [taken, List.append_eq_nil_iff] at none
      rw [still₂ none.2, still₁ none.1]

/-! ### The protocol -/

/-- Some steps of a commission are taken in a workspace, and calls come out accordingly. -/
structure Follows (w : Workspace) (name : String) (c : Commission) (taken : List Step) : Prop where
  ordered : taken <+: [.create, .link, .write]
  /-- Only what is outside of the commission makes a call in order fail. -/
  inOrder : ∀ k fault, k.isInOrder taken → w.answer? name k = some (.error fault) →
    (w.benchOf c).Hindered w.scene k fault
  outOfOrder : ∀ k, ¬ k.isInOrder taken → w.stepsOn name (.call k) = [] ∧
    ∃ fault, w.answer? name k = some (.error fault) ∧ fault.kind = .precondition
  /-- A call that takes no step changes nothing. -/
  idle : ∀ k, w.stepsOn name (.call k) = [] →
    (w.meet name (.call k)).registries = w.registries ∧
    (w.meet name (.call k)).records = w.records ∧
    (w.meet name (.call k)).commissions.lookup name = some c
  /-- Once the nodes are linked, there is one graph for good. -/
  graph : .link ∈ taken →
    ∃ g, ∀ later, (w.meetAll name later).answer? name .graph = some (.ok (.graph g))

theorem graph_of_link {a : Assembly} (linked : .link ∈ a.stage.steps) :
    ∃ g, a.graph = .ok g := by
  rw [Assembly.graph]
  cases stage : a.stage with
  | linked g | written g => exact ⟨g, rfl⟩
  | fresh | created =>
    rw [stage] at linked
    simp only [Stage.steps, List.not_mem_nil, List.mem_singleton, reduceCtorEq] at linked

theorem Has.follows (h : w.Has name c) (sound : c.assembly.Sound) :
    w.Follows name c c.assembly.stage.steps where
  ordered := c.assembly.stage.steps_prefix
  inOrder := by
    intro k fault early fails
    rw [answer?_eq h, Option.some_inj] at fails
    rw [← h.assembly_benchOf] at early
    exact (h.heeds sound k).inOrder early fault fails
  outOfOrder := by
    intro k late
    rw [← h.assembly_benchOf] at late
    obtain ⟨fault, fails, kind⟩ := (h.heeds sound k).outOfOrder late
    have answer : w.answer? name k = some (.error fault) := by rw [answer?_eq h, fails]
    refine ⟨?_, fault, answer, kind⟩
    rw [stepsOn, answer]
    exact Call.steps_error (by rw [kind]; exact Fault.Kind.noConfusion)
  idle := by
    intro k still
    rw [stepsOn, answer?_eq h, Option.map_some, Option.getD_some] at still
    obtain ⟨names, same⟩ := (h.heeds sound k).idle still
    have enters := meet_call h k
    have stays := h.enters
    rw [enters.registries, enters.records, enters.known, names, same, ← stays.registries,
      ← stays.records, h.assembly_benchOf]
    exact ⟨rfl, rfl, rfl⟩
  graph := by
    intro linked
    obtain ⟨g, known⟩ := graph_of_link linked
    refine ⟨g, fun later => ?_⟩
    obtain ⟨c', h', -, -, -, graph⟩ := meetAll_keeps later h sound
    have answer : ((w.meetAll name later).benchOf c').assembly.graph = .ok g := by
      rw [h'.assembly_benchOf]
      exact graph g known
    rw [answer?_eq h', Bench.ask, answer]
    rfl

section Commission

variable {w₀ w₁ : Workspace} {place : Nat} {record : Record} {object : Option String}
  {a : Assembly}

/-- A commission that is new has taken no step. -/
theorem has_of_commission (shelved : w₀.records[place]? = some record)
    (made : (commission name place record object).run.run w₀ = (.ok a, w₁)) :
    w₁.Has name ⟨place, w₀.context.registry, a⟩ ∧ a.stage = .fresh ∧
      a.subject.record = record := by
  have run : (commission name place record object).run.run w₀ =
      (ofResult (Subject.make record object) >>= fun subject => do
        let assembly : Assembly := { config := w₀.context.config, subject }
        set { w₀ with commissions := (name, ⟨place, w₀.context.registry, assembly⟩) ::
                        w₀.commissions.filter (·.1 != name) }
        return assembly).run.run w₀ := rfl
  rw [run] at made
  cases subject : Subject.make record object with
  | error fault =>
    rw [subject] at made
    cases made
  | ok s =>
    have same := Subject.record_of_make subject
    rw [subject] at made
    cases made
    exact ⟨⟨List.lookup_cons_self, shelved.trans (congrArg some same.symm)⟩, rfl, same⟩

/-- **Commissions are worked on by the protocol.**  Whatever happens to a commission, its steps
are taken once each and in their order; until the first is taken, it is as it was made. -/
theorem protocol_law (shelved : w₀.records[place]? = some record)
    (made : (commission name place record object).run.run w₀ = (.ok a, w₁))
    (occasions : List Occasion) :
    ∃ c, (w₁.meetAll name occasions).commissions.lookup name = some c ∧
      (w₁.meetAll name occasions).Follows name c (w₁.taken name occasions) ∧
      (w₁.taken name occasions = [] → c = ⟨place, w₀.context.registry, a⟩ ∧
        (w₁.meetAll name occasions).records[place]? = some record) := by
  obtain ⟨new, fresh, same⟩ := has_of_commission shelved made
  have unbegun : a.Sound := by
    rw [Assembly.Sound, fresh]
    trivial
  obtain ⟨c, has, sound, steps, still, -⟩ := meetAll_keeps occasions new unbegun
  refine ⟨c, has.known, ?_, fun none => ?_⟩
  · have follows := has.follows sound
    rw [steps, fresh] at follows
    exact follows
  · obtain rfl := still none
    exact ⟨rfl, has.shelved.trans (congrArg some same)⟩

end Commission

/-- The door is not there at first, its carrier is claimed by something else for a while, and it
goes again once the nodes of its link are created. -/
def doorOccasions : List Occasion :=
  [.call .linkNodes, .call .createNodes, .scene doorScene,
    .names 0 ⟨Table.empty.insert "link_door" .logic⟩, .call .compile, .names 0 .empty,
    .call .createNodes, .scene .empty, .call .createNodes, .call .linkNodes, .call .graph]

/-- The link on the door gets its nodes and their links from these. -/
theorem doorLink_follows :
    ∃ a w₁ c, (commission "door" 0 (.link doorLink) (some "door")).run.run
        { records := [.link doorLink], context := ⟨0, Compilation.plainConfig⟩ } = (.ok a, w₁) ∧
      w₁.taken "door" doorOccasions = [.create, .link] ∧
      (w₁.meetAll "door" doorOccasions).Follows "door" c [.create, .link] := by
  obtain ⟨a, w₁, made, steps⟩ : ∃ a w₁,
      (commission "door" 0 (.link doorLink) (some "door")).run.run
        { records := [.link doorLink], context := ⟨0, Compilation.plainConfig⟩ } = (.ok a, w₁) ∧
      w₁.taken "door" doorOccasions = [.create, .link] :=
    ⟨_, _, rfl, by decide +kernel⟩
  obtain ⟨c, -, follows, -⟩ := protocol_law List.getElem?_cons_zero made doorOccasions
  rw [steps] at follows
  exact ⟨a, w₁, c, made, steps, follows⟩

end Workspace
end SceneLogic
