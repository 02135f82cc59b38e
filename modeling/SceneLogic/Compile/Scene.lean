/-
Compiling the records of a scene.

Records are compiled one after the other, each against the names that those before it have
claimed.  The first that fails ends the compilation; what was claimed and reported until then
stays.
-/
import SceneLogic.Compile.Assembly
namespace SceneLogic

/-- The graphs of a scene, and its scripts by name. -/
structure CompiledScene where
  graphs : List Graph := []
  scripts : List (String × String) := []
deriving DecidableEq

/-- The scripts with one more; one of the same name is replaced in its place. -/
def enterScript (name text : String) : List (String × String) → List (String × String)
  | [] => [(name, text)]
  | (k, old) :: rest => if k = name then (k, text) :: rest else (k, old) :: enterScript name text rest

/-- The scene with one more graph and its script. -/
def CompiledScene.add (s : CompiledScene) (c : Compiled) : CompiledScene where
  graphs := s.graphs ++ [c.graph]
  scripts := enterScript c.graph.script c.script s.scripts

/-- A compilation under way. -/
structure Compilation where
  names : Names
  /-- The assemblies worked on so far, in order. -/
  assemblies : List Assembly := []
  log : List Log.Entry := []

namespace Compilation

/-- The compilation after work on one more assembly. -/
def after (c : Compilation) (b : Bench) : Compilation where
  names := b.names
  assemblies := c.assemblies ++ [b.assembly]
  log := b.log

/-- Compiles a record against an object. -/
def compile (c : Compilation) (config : Config) (scene : Scene) (record : Record)
    (object : Option String) : Except Fault Compiled × Compilation :=
  match Subject.make record object with
  | .error fault => (.error fault, c)
  | .ok subject =>
    let (result, b) :=
      Bench.compile { names := c.names, assembly := { config, subject }, log := c.log } scene
    (result, c.after b)

/-- Compiles records, each with the object it is compiled against, behind those already
compiled. -/
def compileAll (c : Compilation) (config : Config) (scene : Scene) (compiled : CompiledScene) :
    List (Record × Option String) → Except Fault CompiledScene × Compilation
  | [] => (.ok compiled, c)
  | (record, object) :: rest =>
    match c.compile config scene record object with
    | (.error fault, c) => (.error fault, c)
    | (.ok one, c) => c.compileAll config scene (compiled.add one) rest

/-- What is reported of a compiled scene. -/
def compiledLog (s : CompiledScene) : Log.Entry :=
  .text .debug "Compiler" s!"Compiled {s.graphs.length} activator graphs"

/-- Compiles the records of a scene. -/
def compileScene (c : Compilation) (config : Config) (scene : Scene)
    (records : List (Record × Option String)) : Except Fault CompiledScene × Compilation :=
  match c.compileAll config scene {} records with
  | (.error fault, c) => (.error fault, c)
  | (.ok s, c) => (.ok s, { c with log := c.log ++ [compiledLog s] })

end Compilation

end SceneLogic
