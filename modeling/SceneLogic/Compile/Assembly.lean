/-
Assemblies: subjects on their way to a graph and a script.

An assembly takes three steps, each of them once and in this order: `createNodes` claims the
carrier and lays out the nodes, `linkNodes` wires them, `writeScript` writes the script and has
its grammar checked.  A step out of order is refused, and a step that failed may be taken again.

Steps are taken at a `Bench`, which has the names claimed so far, the assembly and what has been
reported.  A failing step changes neither the names nor the assembly, so the bench that `compile`
leaves behind after a failure shows which steps were taken.
-/
import SceneLogic.Compile.Blueprint
import SceneLogic.Lua.Interpreter
import SceneLogic.Lua.Script
namespace SceneLogic

/-! ### Assemblies -/

/-- How far an assembly has come. -/
inductive Stage where
  | fresh
  | created (blueprint : Blueprint) (graph : Graph)
  | linked (graph : Graph)
  | written (graph : Graph)
deriving DecidableEq

/-- A subject on its way to a graph and a script. -/
structure Assembly where
  config : Config
  subject : Subject
  stage : Stage := .fresh
deriving DecidableEq

namespace Assembly

/-- The name of the object that carries the logic. -/
def carrier (a : Assembly) : String := a.subject.carrier

/-- The name of the script. -/
def script (a : Assembly) : String := scriptName a.config a.carrier

/-- The graph, once the nodes are linked. -/
def graph (a : Assembly) : Except Fault Graph :=
  match a.stage with
  | .linked g | .written g => .ok g
  | _ => .error (.noGraph a.carrier)

end Assembly

/-! ### Steps -/

/-- Where the steps of an assembly are taken. -/
structure Bench where
  names : Names
  assembly : Assembly
  log : List Log.Entry := []

/-- What an assembly comes to. -/
structure Compiled where
  graph : Graph
  script : String
deriving DecidableEq

namespace Bench

/-- Claims the carrier and lays out the nodes.  The record is closed to changes from then on. -/
def createNodes (b : Bench) (scene : Scene) : Except Fault Bench :=
  let a := b.assembly
  match a.stage with
  | .fresh => do
    let names ← b.names.claim a.carrier .logic
    let (blueprint, log) ← a.subject.blueprint a.config scene
    let graph ← blueprint.layOut (a.subject.emptyGraph a.config)
    return { names, log := b.log ++ log,
             assembly := { a with subject := a.subject.close, stage := .created blueprint graph } }
  | _ => .error (.alreadyCreated a.carrier)

/-- Wires the nodes. -/
def linkNodes (b : Bench) : Except Fault Bench :=
  let a := b.assembly
  match a.stage with
  | .created blueprint graph => do
    let graph ← blueprint.wire graph
    return { b with assembly := { a with stage := .linked graph } }
  | _ => .error (.notCreated a.carrier)

/-- Checks the grammar of a script, if the configuration asks for it. -/
def check (config : Config) (text script : String) : Except Fault Unit :=
  if config.checkGeneratedLogic then Lua.checkScript text script else .ok ()

/-- What is reported of a script that did not pass its check. -/
def rejectedLog (a : Assembly) : Log.Entry :=
  .text .error "Activator" s!"Generated logic for {a.carrier} failed the syntax check"

/-- What is reported of a script that was written. -/
def writtenLog (a : Assembly) (g : Graph) : Log.Entry :=
  .text .debug "Activator" s!"Wrote {a.script} ({g.nodes.length} nodes)"

/-- Writes the script and has it checked. -/
def writeScript (b : Bench) : Except Fault String × Bench :=
  let a := b.assembly
  match a.stage with
  | .linked g =>
    match Lua.emit g with
    | .error fault => (.error fault, b)
    | .ok text =>
      match check a.config text a.script with
      | .error fault => (.error fault, { b with log := b.log ++ [rejectedLog a] })
      | .ok () =>
        (.ok text, { b with assembly := { a with stage := .written g },
                            log := b.log ++ [writtenLog a g] })
  | _ => (.error (.notLinked a.carrier), b)

/-- Takes all steps, up to the first that fails. -/
def compile (b : Bench) (scene : Scene) : Except Fault Compiled × Bench :=
  match b.createNodes scene with
  | .error fault => (.error fault, b)
  | .ok b =>
    match b.linkNodes with
    | .error fault => (.error fault, b)
    | .ok b =>
      match b.writeScript with
      | (.error fault, b) => (.error fault, b)
      | (.ok script, b) => (b.assembly.graph.map fun graph => { graph, script }, b)

end Bench

end SceneLogic
