/-
Log entries.

Every operation that reports something hands out the entries it made, debug entries included.
Whether debug entries are shown is up to the configuration in force, so `Log.Entry.isShown` is
asked where entries leave the library.
-/
import SceneLogic.Json.Basic
namespace SceneLogic.Log

/-- How serious an entry is. -/
inductive Level where
  | debug
  | info
  | warn
  | error
deriving DecidableEq

/-- A report of the part of the library that its tag names. -/
structure Entry where
  level : Level
  tag : String
  content : List Json

/-- The tag as it stands before the content. -/
def Entry.label (e : Entry) : String := s!"[{e.tag}]"

/-- Debug entries show only when the configuration asks for them. -/
def Entry.isShown (verbose : Bool) (e : Entry) : Bool := verbose || e.level != .debug

/-- An entry with a text. -/
def Entry.text (level : Level) (tag text : String) : Entry := ⟨level, tag, [.text text]⟩

end SceneLogic.Log
