/-
Reading a number from a text.

White space at the ends does not count, and nothing else than white space is zero.  A number is
a decimal numeral with an optional sign, or `Infinity` with an optional sign, or digits in base
16, 8 or 2 behind `0x`, `0o` or `0b` without a sign.  Every other text reads as `nan`.
-/
import SceneLogic.Number.Decimal
import SceneLogic.Text.Blank
namespace SceneLogic.Number

/-! ### Decimal numerals -/

/-- The value of a list of decimal digits. -/
def ofDigits (ds : List Char) : Nat := Nat.ofDigitChars 10 ds 0

/-- An optional sign, and what follows; true for a minus. -/
def takeSign : List Char → Bool × List Char
  | '-' :: rest => (true, rest)
  | '+' :: rest => (false, rest)
  | rest => (false, rest)

/-- A text of decimal digits, at least one and nothing else. -/
def wholeDigits? (s : List Char) : Option Nat :=
  if s ≠ [] ∧ s.all Char.isDigit then some (ofDigits s) else none

/-- The exponent part of a numeral, which may be missing. -/
def exponent? : List Char → Option Int
  | [] => some 0
  | c :: rest =>
    if c = 'e' ∨ c = 'E' then
      let (negative, ds) := takeSign rest
      (wholeDigits? ds).map fun n => if negative then -(n : Int) else n
    else none

/-- A decimal numeral without a sign: digits with at most one point, at least one of them, and
an exponent. -/
def decimal? (s : List Char) : Option Decimal :=
  let whole := s.takeWhile Char.isDigit
  let rest := s.dropWhile Char.isDigit
  let fraction := match rest with
    | '.' :: r => r.takeWhile Char.isDigit
    | _ => []
  let tail := match rest with
    | '.' :: r => r.dropWhile Char.isDigit
    | r => r
  if whole = [] ∧ fraction = [] then none
  else (exponent? tail).map fun e => ⟨ofDigits (whole ++ fraction), e - fraction.length⟩

/-- A decimal numeral or `Infinity`, with an optional sign. -/
def signed? (s : List Char) : Option Number :=
  let (negative, rest) := takeSign s
  if rest = "Infinity".toList then some (infinity negative)
  else (decimal? rest).map (Decimal.toNumber negative)

/-! ### Other bases -/

/-- The value of a digit of base up to 36. -/
def digitValue (c : Char) : Nat :=
  if '0' ≤ c ∧ c ≤ '9' then c.toNat - '0'.toNat
  else if 'a' ≤ c ∧ c ≤ 'z' then c.toNat - 'a'.toNat + 10
  else if 'A' ≤ c ∧ c ≤ 'Z' then c.toNat - 'A'.toNat + 10
  else 36

/-- Digits of a base, at least one and nothing else. -/
def ofBase? (base : Nat) (s : List Char) : Option Number :=
  if s ≠ [] ∧ s.all (fun c => digitValue c < base) then
    some (ofNat (s.foldl (fun n c => base * n + digitValue c) 0))
  else none

/-- The base a letter behind a leading zero stands for. -/
def baseOf? (c : Char) : Option Nat :=
  if c = 'x' ∨ c = 'X' then some 16
  else if c = 'o' ∨ c = 'O' then some 8
  else if c = 'b' ∨ c = 'B' then some 2
  else none

/-- Digits behind `0x`, `0o` or `0b`. -/
def based? : List Char → Option Number
  | '0' :: c :: rest => (baseOf? c).bind (ofBase? · rest)
  | _ => none

/-! ### Texts -/

/-- The number a list of characters reads as. -/
def readChars (s : List Char) : Number :=
  match Text.trimChars s with
  | [] => 0
  | t => ((based? t).orElse fun _ => signed? t).getD nan

/-- The number a text reads as, `nan` for a text that is no number. -/
def read (s : String) : Number := readChars s.toList

end SceneLogic.Number
