/-
Tokens of Lua.

A source is read byte by byte; its bytes are given as the characters with their codes.  Outside of
texts and comments only those of ASCII form tokens.  Names and text literals are lists of bytes, and
escapes may spell bytes that belong to no character.

* `readShort quote` reads a quoted literal behind its opening quote and stops right behind the
  closing one.
* `tokens?` splits a source, or fails if some part of it begins no token.

Integers have 32 bits and wrap around; a decimal numeral beyond them is a float.
-/
import SceneLogic.Number.Reader
import SceneLogic.Number.Scaling
import SceneLogic.Text.Bytes
namespace SceneLogic.Lua

/-- A name: the bytes of its text. -/
abbrev Name := List UInt8

/-- A token. -/
inductive Token where
  | name (s : Name)
  /-- The name by which a method calls what it belongs to; it is not written. -/
  | receiver (s : Name)
  /-- A keyword or a symbol, by its spelling. -/
  | reserved (s : String)
  | int (n : Int)
  | float (x : Number)
  | text (bytes : List UInt8)
deriving DecidableEq

/-! ### Numerals -/

/-- An integer of 32 bits, wrapped around. -/
def wrap (n : Int) : Int := n.bmod (Nat.pow 2 32)

/-- The greatest integer. -/
def greatestInt : Nat := 2147483647

/-- White space within a line or between lines. -/
def isSpace (c : Char) : Bool :=
  c == ' ' || c == '\t' || c == '\n' || c == '\r' || c.toNat == 11 || c.toNat == 12

/-- A hexadecimal digit. -/
def isHex (c : Char) : Bool := Number.digitValue c < 16

/-- The value of hexadecimal digits. -/
def ofHex (ds : List Char) : Nat := ds.foldl (fun n c => n * 16 + Number.digitValue c) 0

/-- The integer that digits spell: hexadecimal ones wrap around, decimal ones must be in range. -/
def integer? (s : List Char) : Option Int :=
  match s with
  | '0' :: x :: ds =>
    if x = 'x' ∨ x = 'X' then
      if ds ≠ [] ∧ ds.all isHex then some (wrap (ofHex ds)) else none
    else decimalInteger? s
  | _ => decimalInteger? s
where
  /-- The integer that decimal digits spell, if it is in range. -/
  decimalInteger? (s : List Char) : Option Int :=
    (Number.wholeDigits? s).bind fun n => if n ≤ greatestInt then some n else none

/-- The binary exponent of a hexadecimal numeral, which may be missing. -/
def binaryExponent? : List Char → Option Int
  | [] => some 0
  | c :: rest =>
    if c = 'p' ∨ c = 'P' then
      let (negative, ds) := Number.takeSign rest
      (Number.wholeDigits? ds).map fun n => if negative then -(n : Int) else n
    else none

/-- The value of hexadecimal digits that were read, the number of those from the first that is not
zero, and how many of them did not get into the value. -/
structure HexDigits where
  value : Number := 0
  significant : Nat := 0
  leftOut : Nat := 0

/-- The number of significant digits that get into the value. -/
def greatestSignificant : Nat := 30

/-- Reads one more digit. -/
def HexDigits.read (ds : HexDigits) (c : Char) : HexDigits :=
  let d := Number.digitValue c
  if ds.significant = 0 ∧ d = 0 then ds
  else if ds.significant < greatestSignificant then
    { ds with value := (ds.value.mul 16).add (.ofNat d), significant := ds.significant + 1 }
  else { ds with leftOut := ds.leftOut + 1 }

/-- The number that hexadecimal digits with a point and a binary exponent spell.  Each digit is added
to sixteen times the value of those before it, which rounds. -/
def hexFloat? (s : List Char) : Option Number :=
  let whole := s.takeWhile isHex
  let rest := s.dropWhile isHex
  let fraction := match rest with
    | '.' :: r => r.takeWhile isHex
    | _ => []
  let tail := match rest with
    | '.' :: r => r.dropWhile isHex
    | r => r
  if whole = [] ∧ fraction = [] then none
  else (binaryExponent? tail).map fun written =>
    let ds := (whole ++ fraction).foldl HexDigits.read {}
    ds.value.scaleByTwo (4 * ((ds.leftOut : Int) - fraction.length) + written)

/-- The float that a numeral without a sign spells. -/
def float? (s : List Char) : Option Number :=
  match s with
  | '0' :: x :: rest =>
    if x = 'x' ∨ x = 'X' then hexFloat? rest else (Number.decimal? s).map (·.toNumber false)
  | _ => (Number.decimal? s).map (·.toNumber false)

/-- The token of a numeral. -/
def numeral? (s : List Char) : Option Token :=
  match integer? s with
  | some n => some (.int n)
  | none => (float? s).map .float

/-- The characters that a numeral reaches over: digits of either base and points, and a sign
behind each mark of an exponent. -/
def numeralSpan (isMark : Char → Bool) : List Char → List Char × List Char
  | [] => ([], [])
  | c :: rest =>
    if isMark c then
      match rest with
      | d :: rest' =>
        if d = '+' ∨ d = '-' then
          let (s, r) := numeralSpan isMark rest'
          (c :: d :: s, r)
        else
          let (s, r) := numeralSpan isMark (d :: rest')
          (c :: s, r)
      | [] => ([c], [])
    else if isHex c ∨ c = '.' then
      let (s, r) := numeralSpan isMark rest
      (c :: s, r)
    else ([], c :: rest)

/-- The characters that look like a numeral, and the rest.  What is hexadecimal shows in its first
two characters, or in those behind a point that comes first. -/
def spelledNumeral : List Char → List Char × List Char
  | '0' :: x :: s =>
    if x = 'x' ∨ x = 'X' then
      let (digits, rest) := numeralSpan (fun c => c == 'p' || c == 'P') s
      ('0' :: x :: digits, rest)
    else decimalSpan ('0' :: x :: s)
  | s => decimalSpan s
where
  /-- The characters that look like a decimal numeral, and the rest. -/
  decimalSpan (s : List Char) : List Char × List Char :=
    numeralSpan (fun c => c == 'e' || c == 'E') s

/-- A numeral that has a value, and the rest. -/
def readNumeral (s : List Char) : Option (Token × List Char) :=
  let (spelled, rest) :=
    match s with
    | '.' :: s =>
      let (digits, rest) := spelledNumeral s
      ('.' :: digits, rest)
    | s => spelledNumeral s
  match numeral? spelled with
  | some (.float .nan) => none
  | some t => some (t, rest)
  | none => none

/-! ### Texts -/

/-- The byte that a letter behind a backslash stands for. -/
def escapedByte? (c : Char) : Option UInt8 :=
  if c = 'a' then some 7
  else if c = 'b' then some 8
  else if c = 'f' then some 12
  else if c = 'n' then some 10
  else if c = 'r' then some 13
  else if c = 't' then some 9
  else if c = 'v' then some 11
  else if c = '\\' then some 92
  else if c = '"' then some 34
  else if c = '\'' then some 39
  else none

/-- Up to three decimal digits at the front. -/
def upToThree (s : List Char) : List Char := (s.take 3).takeWhile Char.isDigit

/-- Passes the second half of a line break whose first half is given. -/
def passBreak (first : Char) : List Char → List Char
  | c :: rest => if (c = '\r' ∨ c = '\n') ∧ c ≠ first then rest else c :: rest
  | [] => []

/-- The bytes of an escape behind its backslash, and the rest. -/
def escape? : List Char → Option (List UInt8 × List Char)
  | 'x' :: a :: b :: rest =>
    if isHex a ∧ isHex b then some ([(ofHex [a, b]).toUInt8], rest) else none
  | 'u' :: '{' :: rest =>
    let ds := rest.takeWhile isHex
    match rest.dropWhile isHex with
    | '}' :: rest =>
      if ds ≠ [] ∧ ofHex ds ≤ 0x10FFFF then some (Text.codeBytes (ofHex ds), rest) else none
    | _ => none
  | 'z' :: rest => some ([], rest.dropWhile isSpace)
  | c :: rest =>
    if c = '\n' ∨ c = '\r' then some ([10], passBreak c rest)
    else if c.isDigit then
      let ds := upToThree (c :: rest)
      if Number.ofDigits ds ≤ 255 then
        some ([(Number.ofDigits ds).toUInt8], (c :: rest).drop ds.length)
      else none
    else (escapedByte? c).map fun b => ([b], rest)
  | [] => none

theorem length_passBreak (first : Char) (s : List Char) : (passBreak first s).length ≤ s.length := by
  unfold passBreak
  repeat' split
  all_goals simp

theorem length_dropWhile (p : Char → Bool) (s : List Char) :
    (s.dropWhile p).length ≤ s.length := (List.dropWhile_sublist p).length_le

/-- An escape takes at least one character. -/
theorem length_escape {s rest : List Char} {bytes : List UInt8}
    (h : escape? s = some (bytes, rest)) : rest.length < s.length := by
  unfold escape? at h
  split at h
  · simp only [Option.ite_none_right_eq_some, Option.some.injEq, Prod.mk.injEq] at h
    obtain ⟨_, _, rfl⟩ := h
    simp only [List.length_cons]
    omega
  case h_2 r =>
    have shorter := length_dropWhile isHex r
    split at h
    case h_1 after =>
      simp only [Option.ite_none_right_eq_some, Option.some.injEq, Prod.mk.injEq] at h
      obtain ⟨_, _, rfl⟩ := h
      rw [after] at shorter
      simp only [List.length_cons] at shorter ⊢
      omega
    case h_2 => simp at h
  case h_3 r =>
    have shorter := length_dropWhile isSpace r
    simp only [Option.some.injEq, Prod.mk.injEq] at h
    obtain ⟨_, rfl⟩ := h
    simp only [List.length_cons]
    omega
  case h_4 c r _ _ _ =>
    split at h
    · have shorter := length_passBreak c r
      simp only [Option.some.injEq, Prod.mk.injEq] at h
      obtain ⟨_, rfl⟩ := h
      simp only [List.length_cons]
      omega
    · split at h
      case isTrue digit =>
        have some_digit : 0 < (upToThree (c :: r)).length := by simp [upToThree, digit]
        simp only [Option.ite_none_right_eq_some, Option.some.injEq, Prod.mk.injEq] at h
        obtain ⟨_, _, rfl⟩ := h
        simp only [List.length_drop, List.length_cons] at some_digit ⊢
        omega
      case isFalse =>
        obtain ⟨_, _, h⟩ := Option.map_eq_some_iff.1 h
        simp only [Prod.mk.injEq] at h
        obtain ⟨_, rfl⟩ := h
        simp
  case h_5 => simp at h

/-- Reads a quoted text behind its opening quote, up to and over the closing one. -/
def readShort (quote : Char) (s : List Char) : Option (List UInt8 × List Char) :=
  match s with
  | [] => none
  | c :: rest =>
    if c = quote then some ([], rest)
    else if c = '\n' ∨ c = '\r' then none
    else if c = '\\' then
      match _taken : escape? rest with
      | some (bytes, rest') =>
        (readShort quote rest').map fun (more, r) => (bytes ++ more, r)
      | none => none
    else (readShort quote rest).map fun (more, r) => (Text.charByte c :: more, r)
termination_by s.length
decreasing_by
  · have := length_escape _taken
    simp only [List.length_cons]
    omega
  · simp

/-! ### Long brackets -/

/-- The level of a long bracket behind its first bracket, and the rest behind the second. -/
def longOpen? (s : List Char) : Option (Nat × List Char) :=
  let level := (s.takeWhile (· == '=')).length
  match s.dropWhile (· == '=') with
  | '[' :: rest => some (level, rest)
  | _ => none

/-- The closing bracket of a level is at the front; gives what follows it. -/
def longClose? (level : Nat) (s : List Char) : Option (List Char) :=
  match s with
  | ']' :: rest =>
    if rest.take level = List.replicate level '=' then
      match rest.drop level with
      | ']' :: rest => some rest
      | _ => none
    else none
  | _ => none

/-- Reads up to and over the closing bracket of a level; every line break counts as a line feed. -/
def readLong (level : Nat) (s : List Char) : Option (List UInt8 × List Char) :=
  match longClose? level s with
  | some rest => some ([], rest)
  | none =>
    match s with
    | [] => none
    | c :: rest =>
      if c = '\n' ∨ c = '\r' then
        (readLong level (passBreak c rest)).map fun (more, r) => (10 :: more, r)
      else (readLong level rest).map fun (more, r) => (Text.charByte c :: more, r)
termination_by s.length
decreasing_by
  · exact Nat.lt_succ_of_le (length_passBreak c rest)
  · simp

/-- The text between long brackets behind the opening one, whose first line break does not
count. -/
def readLongText (level : Nat) : List Char → Option (List UInt8 × List Char)
  | c :: rest =>
    if c = '\n' ∨ c = '\r' then readLong level (passBreak c rest) else readLong level (c :: rest)
  | [] => none

/-! ### Comments -/

/-- What follows a comment behind its two dashes. -/
def passComment (s : List Char) : Option (List Char) :=
  match s with
  | '[' :: rest =>
    match longOpen? rest with
    | some (level, rest) => (readLong level rest).map Prod.snd
    | none => some (s.dropWhile fun c => !(c == '\n' || c == '\r'))
  | _ => some (s.dropWhile fun c => !(c == '\n' || c == '\r'))

/-! ### Tokens -/

/-- The words that are no names. -/
def keywords : List String :=
  ["and", "break", "do", "else", "elseif", "end", "false", "for", "function", "goto", "if", "in",
    "local", "nil", "not", "or", "repeat", "return", "then", "true", "until", "while"]

/-- The symbols, longer ones before those they begin with. -/
def symbols : List String :=
  ["...", "..", "<<", ">>", "//", "==", "~=", "<=", ">=", "::", "+", "-", "*", "/", "%", "^", "#",
    "&", "~", "|", "<", ">", "=", "(", ")", "\x7b", "\x7d", "[", "]", ";", ":", ",", "."]

/-- A letter or an underscore. -/
def isNameStart (c : Char) : Bool := c.isAlpha || c == '_'

/-- A letter, a digit or an underscore. -/
def isNamePart (c : Char) : Bool := c.isAlphanum || c == '_'

/-- The token of a word. -/
def word (s : String) : Token :=
  if s ∈ keywords then .reserved s else .name (Text.encode s.toList)

/-- The longest symbol at the front, and the rest. -/
def symbol? (s : List Char) : Option (Token × List Char) :=
  (symbols.find? fun symbol => symbol.toList.isPrefixOf s).map fun symbol =>
    (.reserved symbol, s.drop symbol.length)

/-- What stands at the front of a source. -/
inductive Lexeme where
  /-- Nothing more. -/
  | done
  /-- White space or a comment. -/
  | filler (rest : List Char)
  | token (t : Token) (rest : List Char)

/-- What stands at the front of a source, if anything can begin there. -/
def lexeme? (s : List Char) : Option Lexeme :=
  match s with
  | [] => some .done
  | c :: rest =>
    if isSpace c then some (.filler (rest.dropWhile isSpace))
    else if isNameStart c then
      some (.token (word (String.ofList (s.takeWhile isNamePart))) (s.dropWhile isNamePart))
    else if c = '-' ∧ rest.head? = some '-' then (passComment rest.tail).map .filler
    else if c = '"' ∨ c = '\'' then
      (readShort c rest).map fun (bytes, rest) => .token (.text bytes) rest
    else if c = '[' ∧ (rest.head? = some '=' ∨ rest.head? = some '[') then
      match longOpen? rest with
      | some (level, rest) =>
        (readLongText level rest).map fun (bytes, rest) => .token (.text bytes) rest
      | none => none
    else if c.isDigit ∨ (c = '.' ∧ rest.head?.any Char.isDigit) then
      (readNumeral s).map fun (t, rest) => .token t rest
    else (symbol? s).map fun (t, rest) => .token t rest

/-- Splits a source in at most as many steps as given. -/
def lex : Nat → List Char → Option (List Token)
  | 0, _ => none
  | n + 1, s =>
    match lexeme? s with
    | none => none
    | some .done => some []
    | some (.filler rest) => lex n rest
    | some (.token t rest) => (lex n rest).map (t :: ·)

/-- The tokens that characters spell; every step takes at least one character. -/
def tokensOf? (s : List Char) : Option (List Token) := lex (s.length + 1) s

/-- The tokens of a source. -/
def tokens? (source : String) : Option (List Token) :=
  tokensOf? (Text.byteChars (Text.encode source.toList))

end SceneLogic.Lua
