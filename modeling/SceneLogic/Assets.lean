/-
Imported assets, kept by file name.

An asset is loaded when it is first asked for, and the handle that this gave serves all later
requests: it is shared, or copied when the assets are used with a way to copy them.  A file that
could be loaded without giving a handle counts as present but is loaded again when it is asked
for.  A failing load leaves no trace.

Loading and copying change a world of type `σ`, which is passed along.
-/
import SceneLogic.Fault
import SceneLogic.Log
namespace SceneLogic

/-- Handles of loaded assets by file name. -/
structure Assets (H : Type) where
  entries : List (String × Option H) := []

/-- How assets are loaded and, unless they are shared, copied. -/
structure Assets.Source (σ H : Type) where
  load : String → σ → Except Fault (Option H) × σ
  copy : Option (H → σ → H × σ)

/-- What a request for an asset comes to. -/
structure Assets.Answer (σ H : Type) where
  result : Except Fault (Option H)
  assets : Assets H
  world : σ
  log : List Log.Entry := []

namespace Assets

variable {σ H : Type}

/-- The number of assets. -/
def size (a : Assets H) : Nat := a.entries.length

/-- An asset has been loaded from a file. -/
def has (a : Assets H) (filename : String) : Bool := (a.entries.lookup filename).isSome

/-- The handle of the asset from a file, if loading it gave one. -/
def handle? (a : Assets H) (filename : String) : Option H := (a.entries.lookup filename).join

/-- Keeps what loading a file gave, in place of what it gave before. -/
def keep (a : Assets H) (filename : String) (handle : Option H) : Assets H where
  entries :=
    if a.has filename then
      a.entries.map fun e => if e.1 = filename then (filename, handle) else e
    else a.entries ++ [(filename, handle)]

/-- What is reported of a loaded asset. -/
def loadedLog (filename : String) : Log.Entry := .text .debug "AssetCache" s!"Loaded {filename}"

/-- The answer to a request for an asset that has a handle. -/
def serve (a : Assets H) (source : Source σ H) (handle : H) (world : σ) : Answer σ H :=
  match source.copy with
  | some copy => ⟨.ok (some (copy handle world).1), a, (copy handle world).2, []⟩
  | none => ⟨.ok (some handle), a, world, []⟩

/-- The answer to a request for an asset that is to be loaded. -/
def fetch (a : Assets H) (source : Source σ H) (filename : String) (world : σ) : Answer σ H :=
  match source.load filename world with
  | (.ok handle, world) => ⟨.ok handle, a.keep filename handle, world, [loadedLog filename]⟩
  | (.error fault, world) => ⟨.error fault, a, world, []⟩

/-- Asks for the asset from a file. -/
def acquire (a : Assets H) (source : Source σ H) (filename : String) (world : σ) : Answer σ H :=
  if filename = "" then ⟨.error .blankFilename, a, world, []⟩
  else match a.handle? filename with
    | some handle => a.serve source handle world
    | none => a.fetch source filename world

end Assets

end SceneLogic
