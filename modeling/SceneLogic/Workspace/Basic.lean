/-
Workspaces: a scene with the records, graphs and playback that belong to it.

A workspace has a scene and several name registries, the first of which is that of the process.
Records lie on a shelf, so that a timeline that is compiled is closed wherever it is used.  A
compile context takes a snapshot of the configuration when it is made.

Everything that is done to a workspace is a piece of `Workspace.Work`: it may fail, and what it
reports and what it changes before a failure stays.
-/
import SceneLogic.Compile.Scene
import SceneLogic.Playback.Basic
import SceneLogic.Playback.Listeners
namespace SceneLogic

/-- What compiling goes by: a registry, by its place, and a configuration. -/
structure Context where
  registry : Nat
  config : Config
deriving DecidableEq

/-- An assembly with the place of its record and the context it was made in. -/
structure Commission where
  place : Nat
  registry : Nat
  assembly : Assembly
deriving DecidableEq

/-- A scene with all that belongs to it. -/
structure Workspace where
  scene : Scene := Scene.empty
  settings : Settings := .standard
  /-- The name registries, that of the process first. -/
  registries : List Names := [Names.empty]
  context : Context := ⟨0, Config.standard⟩
  /-- The shelf of records. -/
  records : List Record := []
  commissions : List (String × Commission) := []
  graphs : List (String × Graph) := []
  playback : Playback := {}
  listeners : Listeners := []
  log : List Log.Entry := []

namespace Workspace

/-- Something done to a workspace. -/
abbrev Work := ExceptT Fault (StateM Workspace)

/-- Goes on with a result. -/
def ofResult {α : Type} (result : Except Fault α) : Work α := ExceptT.mk (pure result)

/-- Adds to what has been reported. -/
def report (entries : List Log.Entry) : Work Unit :=
  modify fun w => { w with log := w.log ++ entries }

/-! ### The scene -/

/-- Changes the scene. -/
def changeScene (change : Scene → Except Fault Scene) : Work Unit := do
  let scene ← ofResult (change (← get).scene)
  modify fun w => { w with scene }

/-! ### Names and contexts -/

/-- The registry at a place. -/
def namesAt (w : Workspace) (place : Nat) : Names := w.registries.getD place Names.empty

/-- The registry of the context. -/
def names (w : Workspace) : Names := w.namesAt w.context.registry

/-- The workspace with another registry at a place. -/
def withNames (w : Workspace) (place : Nat) (names : Names) : Workspace :=
  { w with registries := w.registries.set place names }

/-- Claims a name. -/
def claim (name : String) (kind : NameKind) : Work Unit := do
  let w ← get
  let names ← ofResult (w.names.claim name kind)
  set (w.withNames w.context.registry names)

/-- Releases a name; tells whether it was in use. -/
def release (name : String) : Work Bool := do
  let w ← get
  set (w.withNames w.context.registry (w.names.release name))
  return w.names.isTaken name

/-- Releases every name. -/
def clearNames : Work Unit :=
  modify fun w => w.withNames w.context.registry Names.empty

/-- Changes the configuration of the process. -/
def configure (overrides : Config.Overrides) : Work Config := do
  let settings ← ofResult ((← get).settings.configure overrides)
  modify fun w => { w with settings }
  return settings.config

/-- Which registry a context uses. -/
inductive RegistryChoice where
  | process
  | current
  | fresh
deriving DecidableEq

/-- Makes a context, with settings of its own over those of the process. -/
def makeContext (choice : RegistryChoice) (overrides : Config.Overrides) : Work Config := do
  let w ← get
  let config := w.settings.config.override overrides
  match choice with
  | .process => set { w with context := ⟨0, config⟩ }
  | .current => set { w with context := ⟨w.context.registry, config⟩ }
  | .fresh =>
    set { w with registries := w.registries ++ [Names.empty],
                 context := ⟨w.registries.length, config⟩ }
  return config

/-! ### Records -/

/-- Puts a record on the shelf and gives its place. -/
def shelve (record : Record) : Work Nat := do
  let w ← get
  set { w with records := w.records ++ [record] }
  return w.records.length

/-- Puts a record back to its place. -/
def putBack (w : Workspace) (place : Nat) (record : Record) : Workspace :=
  { w with records := w.records.set place record }

/-- Inserts an action into the timeline at a place; gives the number of its entries. -/
def insert (place : Nat) (time : Number) (action : Action) : Work Nat := do
  match (← get).records[place]? with
  | some (.timeline t) =>
    let t ← ofResult (t.insert time action)
    modify fun w => w.putBack place (.timeline t)
    return t.size
  | _ => return 0

end Workspace

end SceneLogic
