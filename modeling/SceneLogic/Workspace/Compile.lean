/-
Compiling in a workspace.

Records are compiled against the registry and the configuration of the context, commissions
against those of the context they were made in.  Whatever comes of it, the names claimed and the
records closed on the way are put back into the workspace; graphs that were compiled are kept by
carrier.
-/
import SceneLogic.Workspace.Basic
namespace SceneLogic

/-- The subject with the record as it is now: only timelines change. -/
def Subject.renewed : Subject → Record → Subject
  | .timeline _ carrier, .timeline t => .timeline t carrier
  | s, _ => s

namespace Workspace

/-- Keeps a graph by its carrier. -/
def keepGraph (g : Graph) : Work Unit :=
  modify fun w => { w with graphs := (g.carrier, g) :: w.graphs.filter (·.1 != g.carrier) }

/-! ### Whole records -/

/-- Takes over what a compilation of the records at some places leaves behind.  An assembly that
took no step has left its record alone. -/
def takeOver (places : List Nat) (c : Compilation) : Work Unit := do
  modify fun w => w.withNames w.context.registry c.names
  modify fun w => (places.zip c.assemblies).foldl
    (fun w (place, a) => if a.stage = .fresh then w else w.putBack place a.subject.record) w
  report c.log

/-- Compiles the record at a place against an object. -/
def compile (place : Nat) (record : Record) (object : Option String) : Work Compiled := do
  let w ← get
  let (result, c) :=
    Compilation.compile { names := w.names } w.context.config w.scene record object
  takeOver [place] c
  let compiled ← ofResult result
  keepGraph compiled.graph
  return compiled

/-- Compiles the records at some places, each with the object it is compiled against. -/
def compileScene (entries : List (Nat × Record × Option String)) : Work CompiledScene := do
  let w ← get
  let (result, c) :=
    Compilation.compileScene { names := w.names } w.context.config w.scene (entries.map Prod.snd)
  takeOver (entries.map Prod.fst) c
  let compiled ← ofResult result
  compiled.graphs.forM keepGraph
  return compiled

/-! ### Commissions -/

/-- Commissions an assembly of the record at a place under a name. -/
def commission (name : String) (place : Nat) (record : Record) (object : Option String) :
    Work Assembly := do
  let w ← get
  let subject ← ofResult (Subject.make record object)
  let assembly : Assembly := { config := w.context.config, subject }
  let c : Commission := ⟨place, w.context.registry, assembly⟩
  set { w with commissions := (name, c) :: w.commissions.filter (·.1 != name) }
  return assembly

/-- The bench at which a commission is worked on. -/
def benchOf (w : Workspace) (c : Commission) : Bench where
  names := w.namesAt c.registry
  assembly :=
    match w.records[c.place]? with
    | some record => { c.assembly with subject := c.assembly.subject.renewed record }
    | none => c.assembly

/-- Works on a commission. -/
def workOn {α : Type} (name : String) (c : Commission)
    (step : Scene → Bench → Except Fault α × Bench) : Work α := do
  let w ← get
  let (result, b) := step w.scene (w.benchOf c)
  let w := (w.withNames c.registry b.names).putBack c.place b.assembly.subject.record
  let c := { c with assembly := b.assembly }
  set { w with commissions := (name, c) :: w.commissions.filter (·.1 != name) }
  report b.log
  ofResult result

/-- The outcome of a step that leaves the bench alone if it fails. -/
def orStay (b : Bench) : Except Fault Bench → Except Fault Unit × Bench
  | .ok b => (.ok (), b)
  | .error fault => (.error fault, b)

/-- Creates the nodes of a commission. -/
def createNodes (name : String) (c : Commission) : Work Unit :=
  workOn name c fun scene b => orStay b (b.createNodes scene)

/-- Links the nodes of a commission. -/
def linkNodes (name : String) (c : Commission) : Work Unit :=
  workOn name c fun _ b => orStay b b.linkNodes

/-- Writes the script of a commission. -/
def writeScript (name : String) (c : Commission) : Work String :=
  workOn name c fun _ b => b.writeScript

/-- Takes all steps of a commission. -/
def compileCommission (name : String) (c : Commission) : Work Compiled := do
  let compiled ← workOn name c fun scene b => b.compile scene
  keepGraph compiled.graph
  return compiled

/-- The objects that the trigger of a commission tracks; other subjects track none. -/
def trackedBy (c : Commission) : Work (List String) := do
  match c.assembly.subject with
  | .region t _ =>
    let tracked ← ofResult (t.trackedIn (← get).scene)
    report (t.trackingLog tracked)
    return tracked
  | _ => return []

end Workspace

end SceneLogic
