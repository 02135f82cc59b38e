/-
The interpreter.

An interpreter keeps its memory from chunk to chunk: what a chunk assigns to global names is there
for later ones, also if the chunk fails behind the assignment.  A chunk that follows no rule of the
grammar, passes a limit or fails while it runs is rejected; a closed interpreter runs and checks
nothing.  `Interpreter.check` reads a chunk without running it.
-/
import SceneLogic.Fault
import SceneLogic.Lua.Data
import SceneLogic.Lua.Evaluation
import SceneLogic.Lua.Grammar
import SceneLogic.Lua.Limits
namespace SceneLogic.Lua

/-- An interpreter and what its scripts work on. -/
structure Interpreter where
  memory : Memory
  closed : Bool := false

namespace Interpreter

/-- An interpreter that has run nothing yet. -/
def start : Interpreter where
  memory := Library.memory

/-- Refuses a source that follows no rule of the grammar or passes a limit. -/
def parse (source name : String) : Except Fault (List Stmt) :=
  match Grammar.parse? source with
  | some body =>
    if Limits.fits body then .ok body else .error (.scriptRejected name "limit exceeded")
  | none => .error (.scriptRejected name "syntax error")

/-- Reads a chunk without running it. -/
def check (i : Interpreter) (source name : String) : Except Fault Unit :=
  if i.closed then .error .interpreterClosed
  else (parse source name).map fun _ => ()

/-- How many steps deep a run may get. -/
def steps : Nat := Nat.pow 2 24

/-- Runs statements with a variable of their own that holds the table of global variables; gives
their first result. -/
def runAll (body : List Stmt) : Run Value := do
  let place ← Run.newVariable (.table Library.globals)
  match (← block steps { scope := [(environment, place)] } body).1 with
  | .returned vs => return vs.headD .nil
  | _ => return .nil

/-- Runs a chunk and gives its first result. -/
def run (i : Interpreter) (source name : String) : Except Fault Data × Interpreter :=
  if i.closed then (.error .interpreterClosed, i)
  else match parse source name with
    | .error fault => (.error fault, i)
    | .ok body =>
      let (result, memory) := (runAll body).run i.memory
      match result with
      | .ok v => (.ok (memory.result v), { i with memory })
      | .error _ => (.error (.scriptRejected name "runtime error"), { i with memory })

/-- An interpreter that runs nothing more. -/
def close (i : Interpreter) : Interpreter := { i with closed := true }

end Interpreter

/-- Checks a script with an interpreter of its own. -/
def checkScript (source name : String) : Except Fault Unit := Interpreter.start.check source name

end SceneLogic.Lua
