/-
Identifiers: the names that timelines and triggers may carry.

An identifier starts with a letter or an underscore and goes on with letters, digits and
underscores, all of them ASCII; a module prefix may also hold dots behind its first character.
-/
namespace SceneLogic.Text

/-- An ASCII letter or an underscore. -/
def isNameStart (c : Char) : Bool := c.isAlpha || c == '_'

/-- An ASCII letter, a digit or an underscore. -/
def isNamePart (c : Char) : Bool := c.isAlphanum || c == '_'

/-- The first character satisfies one test and every other one a second. -/
def headTail (first rest : Char → Bool) : List Char → Bool
  | [] => false
  | c :: cs => first c && cs.all rest

/-- The grammar of identifiers. -/
def isIdentifier (s : String) : Bool := headTail isNameStart isNamePart s.toList

/-- The grammar of module prefixes. -/
def isModulePrefix (s : String) : Bool :=
  headTail isNameStart (fun c => isNamePart c || c == '.') s.toList

/-- A text that is an identifier. -/
structure Identifier where
  text : String
  valid : isIdentifier text
deriving DecidableEq

/-- The identifier a text is, if it is one. -/
def Identifier.ofText? (s : String) : Option Identifier :=
  if h : isIdentifier s then some ⟨s, h⟩ else none

end SceneLogic.Text
