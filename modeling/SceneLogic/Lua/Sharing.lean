/-
Shared texts of a chunk.

All names, keywords and text literals of a chunk that have the same key are one text, the one spelled
first.  So a literal stands for the bytes of the first word or literal with its key, and a word that
comes after a literal with its key is a name with the bytes of the literal, even if it is spelled like
a keyword.

Names that are declared without being written are shared like written ones: the receiver of a method
and the variables by which a loop counts.  The receiver becomes a token behind the colon that declares
the method.
-/
import SceneLogic.Lua.Key
import SceneLogic.Lua.Token
namespace SceneLogic.Lua

/-! ### Texts -/

/-- The texts of a chunk that were met so far, under their keys. -/
abbrev SharedTexts := List (List Nat × List UInt8)

namespace SharedTexts

/-- The text that stands for all texts with the key of a given one, and the texts met with it. -/
def share (bytes : List UInt8) (shared : SharedTexts) : List UInt8 × SharedTexts :=
  match shared.lookup (textKey bytes) with
  | some first => (first, shared)
  | none => (bytes, (textKey bytes, bytes) :: shared)

/-- The text that stands for a word, and the texts met with it. -/
def shareWord (word : String) (shared : SharedTexts) : List UInt8 × SharedTexts :=
  shared.share (Text.encode word.toList)

end SharedTexts

/-- A token with its text shared. -/
def Token.share (t : Token) (shared : SharedTexts) : Token × SharedTexts :=
  match t with
  | .name s =>
    let (first, shared) := shared.share s
    (.name first, shared)
  | .text bytes =>
    let (first, shared) := shared.share bytes
    (.text first, shared)
  | .reserved s =>
    if s ∈ keywords then
      let (first, shared) := shared.shareWord s
      (if first = Text.encode s.toList then .reserved s else .name first, shared)
    else (t, shared)
  | .receiver _ | .int _ | .float _ => (t, shared)

/-! ### Names that are not written -/

/-- Where names may be declared without being written. -/
inductive Site where
  | nowhere
  /-- In the name of a function that is declared. -/
  | functionName
  /-- Behind the keyword of a loop over numbers or values. -/
  | loopHead
deriving DecidableEq

namespace Site

/-- The site behind a token. -/
def behind (t : Token) (site : Site) : Site :=
  match t with
  | .name _ => site
  | .reserved s =>
    if s = "function" then functionName
    else if s = "for" then loopHead
    else if s = "." ∧ site = functionName then functionName
    else nowhere
  | _ => nowhere

/-- The variables by which a loop counts, at the token behind its first name. -/
def counters (t : Token) (site : Site) : List String :=
  if site ≠ loopHead then []
  else if t = .reserved "=" then ["(for index)", "(for limit)", "(for step)"]
  else if t = .reserved "," ∨ t = .reserved "in" then
    ["(for generator)", "(for state)", "(for control)"]
  else []

end Site

/-- The receiver of a method. -/
def receiver : String := "self"

/-- Tokens at a site with their texts shared among them and with those met before. -/
def shareTexts (shared : SharedTexts) (site : Site) : List Token → List Token
  | [] => []
  | t :: ts =>
    let (t, shared) := t.share shared
    let shared := (site.counters t).foldl (fun shared word => (shared.shareWord word).2) shared
    if site = .functionName ∧ t = .reserved ":" then
      let (first, shared) := shared.shareWord receiver
      t :: .receiver first :: shareTexts shared .nowhere ts
    else t :: shareTexts shared (site.behind t) ts

end SceneLogic.Lua
