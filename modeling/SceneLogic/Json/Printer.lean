/-
Writing JSON.

The compact form has no white space.  The pretty form puts every item of a list and every field
of an object on a line of its own, indented by two spaces a level; an empty list or object stays
on its line.  In a text only the quote, the backslash, the controls below the space and halves of
surrogate pairs are escaped.  A number that is not finite is written as `null`.
-/
import SceneLogic.Json.Basic
import SceneLogic.Number.Text
import SceneLogic.Text.Code
namespace SceneLogic.Json

/-- How values are laid out. -/
inductive Style where
  | compact
  | pretty
deriving DecidableEq

/-- Where an item at some depth begins. -/
def newline : Style → Nat → List Char
  | .compact, _ => []
  | .pretty, depth => '\n' :: List.replicate (2 * depth) ' '

/-- What separates a field from its value. -/
def colon : Style → List Char
  | .compact => [':']
  | .pretty => [':', ' ']

/-- A hexadecimal digit, in lower case. -/
def hexDigit (n : Nat) : Char := Nat.digitChar (n % 16)

/-- The escape of a code point below 65536. -/
def codeEscape (n : Nat) : List Char :=
  ['\\', 'u', hexDigit (n / 4096), hexDigit (n / 256), hexDigit (n / 16), hexDigit n]

/-- The escape of a code, if it has to be escaped. -/
def escape? (n : Nat) : Option (List Char) :=
  if n = '"'.toNat then some ['\\', '"']
  else if n = '\\'.toNat then some ['\\', '\\']
  else if n = 8 then some ['\\', 'b']
  else if n = '\t'.toNat then some ['\\', 't']
  else if n = '\n'.toNat then some ['\\', 'n']
  else if n = 12 then some ['\\', 'f']
  else if n = '\r'.toNat then some ['\\', 'r']
  else if n < 0x20 ∨ Text.isHalf n then some (codeEscape n)
  else none

/-- A code as it stands in a written text. -/
def escape (n : Nat) : List Nat := ((escape? n).map fun e => e.map Char.toNat).getD [n]

/-- A text in quotes. -/
def quote (s : String) : List Char :=
  '"' :: Text.spell ((Text.codes s.toList).flatMap escape) ++ ['"']

/-- A number, or `null` in place of one that is not finite. -/
def numberText (x : Number) : List Char :=
  if x.isFinite then x.text.toList else "null".toList

mutual

/-- Writes a value, whose own line is indented to `depth`, before some characters. -/
def write (style : Style) (depth : Nat) : Json → List Char → List Char
  | null, rest => "null".toList ++ rest
  | bool b, rest => (if b then "true" else "false").toList ++ rest
  | number x, rest => numberText x ++ rest
  | text s, rest => quote s ++ rest
  | list [], rest => '[' :: ']' :: rest
  | list (x :: xs), rest =>
    '[' :: newline style (depth + 1) ++ write style (depth + 1) x
      (writeItems style (depth + 1) xs (newline style depth ++ ']' :: rest))
  | object [], rest => '{' :: '}' :: rest
  | object ((k, x) :: xs), rest =>
    '{' :: newline style (depth + 1) ++ quote k ++ colon style ++ write style (depth + 1) x
      (writeFields style (depth + 1) xs (newline style depth ++ '}' :: rest))

/-- Writes the items of a list behind the first. -/
def writeItems (style : Style) (depth : Nat) : List Json → List Char → List Char
  | [], rest => rest
  | x :: xs, rest => ',' :: newline style depth ++ write style depth x (writeItems style depth xs rest)

/-- Writes the fields of an object behind the first. -/
def writeFields (style : Style) (depth : Nat) : List (String × Json) → List Char → List Char
  | [], rest => rest
  | (k, x) :: xs, rest =>
    ',' :: newline style depth ++ quote k ++ colon style ++
      write style depth x (writeFields style depth xs rest)

end

/-- The written form of a value. -/
def render (style : Style) (j : Json) : String := String.ofList (write style 0 j [])

end SceneLogic.Json
