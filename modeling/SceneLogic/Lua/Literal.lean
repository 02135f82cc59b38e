/-
Literals of emitted scripts.

A text is put in double quotes; quotes, backslashes and line feeds are escaped by a backslash and
the other controls by their three decimal digits.  A number must be finite and is written as
everywhere else.
-/
import SceneLogic.Fault
namespace SceneLogic.Lua

/-- Three decimal digits. -/
def threeDigits (n : Nat) : List Char :=
  [Nat.digitChar (n / 100), Nat.digitChar (n / 10 % 10), Nat.digitChar (n % 10)]

/-- A character as it stands in a literal. -/
def quoteChar (c : Char) : List Char :=
  if c = '"' ∨ c = '\\' then ['\\', c]
  else if c = '\n' then ['\\', 'n']
  else if c.toNat < 0x20 ∨ c.toNat = 0x7F then '\\' :: threeDigits c.toNat
  else [c]

/-- The characters of the literal of a text. -/
def quoteChars (s : List Char) : List Char := '"' :: s.flatMap quoteChar ++ ['"']

/-- The literal of a text. -/
def quote (s : String) : String := String.ofList (quoteChars s.toList)

/-- The literal of a finite number. -/
def numeral (x : Number) : Except Fault String :=
  if x.isFinite then .ok x.text else .error (.notFinite x)

/-- A table of items. -/
def listText (items : List String) : String := "\x7b" ++ ", ".intercalate items ++ "\x7d"

/-- A table of texts. -/
def quotedList (items : List String) : String := listText (items.map quote)

/-- A truth value. -/
def flag (b : Bool) : String := if b then "true" else "false"

end SceneLogic.Lua
