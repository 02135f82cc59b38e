/-
Reading JSON.

`parse` accepts the standard grammar and nothing else.  Each step takes the characters still to
be read and gives back what it read together with the rest.  A value takes at most two steps for
each of its characters, which bounds the steps by the length of the text.
-/
import SceneLogic.Json.Basic
import SceneLogic.Number.Reader
import SceneLogic.Text.Code
namespace SceneLogic.Json.Parser

/-! ### White space and numbers -/

/-- The white space of the grammar. -/
def isSpace (c : Char) : Bool := c == ' ' || c == '\t' || c == '\n' || c == '\r'

/-- Passes over white space. -/
def skip (s : List Char) : List Char := s.dropWhile isSpace

/-- At least one digit, and the rest. -/
def digits? (s : List Char) : Option (List Char × List Char) :=
  match s.takeWhile Char.isDigit with
  | [] => none
  | ds => some (ds, s.dropWhile Char.isDigit)

/-- The digits before the point: a zero, or digits that do not start with one. -/
def whole? : List Char → Option (List Char × List Char)
  | '0' :: rest => some (['0'], rest)
  | s => digits? s

/-- The digits behind the point, if there is one. -/
def fraction? : List Char → Option (List Char × List Char)
  | '.' :: rest => digits? rest
  | s => some ([], s)

/-- The exponent, if there is one. -/
def exponent? : List Char → Option (Int × List Char)
  | c :: rest =>
    if c = 'e' ∨ c = 'E' then
      let (negative, rest) := Number.takeSign rest
      (digits? rest).map fun (ds, rest) =>
        (if negative then -(Number.ofDigits ds : Int) else Number.ofDigits ds, rest)
    else some (0, c :: rest)
  | [] => some (0, [])

/-- A number without a sign. -/
def magnitude? (s : List Char) : Option (Decimal × List Char) := do
  let (whole, s) ← whole? s
  let (fraction, s) ← fraction? s
  let (e, s) ← exponent? s
  return (⟨Number.ofDigits (whole ++ fraction), e - fraction.length⟩, s)

/-- A number. -/
def number? : List Char → Option (Number × List Char)
  | '-' :: s => (magnitude? s).map fun (d, rest) => (d.toNumber true, rest)
  | s => (magnitude? s).map fun (d, rest) => (d.toNumber false, rest)

/-! ### Texts -/

/-- The value of a hexadecimal digit. -/
def hexValue? (c : Char) : Option Nat :=
  let n := Number.digitValue c
  if n < 16 then some n else none

/-- The value of four hexadecimal digits. -/
def hex4? (a b c d : Char) : Option Nat := do
  let a ← hexValue? a
  let b ← hexValue? b
  let c ← hexValue? c
  let d ← hexValue? d
  return ((a * 16 + b) * 16 + c) * 16 + d

/-- The character that a letter behind a backslash stands for. -/
def escaped? (c : Char) : Option Char :=
  if c = '"' ∨ c = '\\' ∨ c = '/' then some c
  else if c = 'b' then some '\x08'
  else if c = 'f' then some '\x0c'
  else if c = 'n' then some '\n'
  else if c = 'r' then some '\r'
  else if c = 't' then some '\t'
  else none

/-- Codes with those of some characters behind them; all of them are given the last first. -/
def withPlain (read : List Nat) (plain : List Char) : List Nat :=
  (Text.codes plain.reverse).reverse ++ read

/-- The codes and units of a text up to its closing quote, and the rest; the characters since the last
escape are read together. -/
def codes? (read : List Nat) (plain : List Char) : List Char → Option (List Nat × List Char)
  | [] => none
  | '"' :: rest => some ((withPlain read plain).reverse, rest)
  | '\\' :: 'u' :: a :: b :: c :: d :: rest =>
    match hex4? a b c d with
    | some n => codes? (n :: withPlain read plain) [] rest
    | none => none
  | '\\' :: e :: rest =>
    match escaped? e with
    | some c => codes? (c.toNat :: withPlain read plain) [] rest
    | none => none
  | c :: rest => if c.toNat < 0x20 ∨ c = '\\' then none else codes? read (c :: plain) rest

/-- A text behind its opening quote. -/
def text? (s : List Char) : Option (String × List Char) :=
  (codes? [] [] s).map fun (codes, rest) => (String.ofList (Text.ofCodes codes), rest)

/-! ### Values -/

mutual

/-- A value. -/
def value? : Nat → List Char → Option (Json × List Char)
  | 0, _ => none
  | n + 1, s =>
    match skip s with
    | '{' :: rest =>
      match skip rest with
      | '}' :: rest => some (object [], rest)
      | rest => fields? n [] rest
    | '[' :: rest =>
      match skip rest with
      | ']' :: rest => some (list [], rest)
      | rest => items? n [] rest
    | '"' :: rest => (text? rest).map fun (t, rest) => (text t, rest)
    | 't' :: 'r' :: 'u' :: 'e' :: rest => some (bool true, rest)
    | 'f' :: 'a' :: 'l' :: 's' :: 'e' :: rest => some (bool false, rest)
    | 'n' :: 'u' :: 'l' :: 'l' :: rest => some (null, rest)
    | s => (number? s).map fun (x, rest) => (number x, rest)

/-- The items of a list up to its end, behind those already read. -/
def items? : Nat → List Json → List Char → Option (Json × List Char)
  | 0, _, _ => none
  | n + 1, read, s =>
    match value? n s with
    | none => none
    | some (x, rest) =>
      match skip rest with
      | ',' :: rest => items? n (x :: read) rest
      | ']' :: rest => some (list (x :: read).reverse, rest)
      | _ => none

/-- The fields of an object up to its end, entered among those already read. -/
def fields? : Nat → List (String × Json) → List Char → Option (Json × List Char)
  | 0, _, _ => none
  | n + 1, read, s =>
    match skip s with
    | '"' :: rest =>
      match text? rest with
      | none => none
      | some (k, rest) =>
        match skip rest with
        | ':' :: rest =>
          match value? n rest with
          | none => none
          | some (x, rest) =>
            match skip rest with
            | ',' :: rest => fields? n (insertEntry k x read) rest
            | '}' :: rest => some (object (insertEntry k x read), rest)
            | _ => none
        | _ => none
    | _ => none

end

/-- Enough steps for a text of some length. -/
def steps (length : Nat) : Nat := 2 * length + 2

/-- The value that a list of characters spells, if it spells one. -/
def parseChars (s : List Char) : Option Json :=
  match value? (steps s.length) s with
  | some (x, rest) => if skip rest = [] then some x else none
  | none => none

end SceneLogic.Json.Parser

namespace SceneLogic.Json

/-- The value that a text spells, if it spells one. -/
def parse (s : String) : Option Json := Parser.parseChars s.toList

end SceneLogic.Json
