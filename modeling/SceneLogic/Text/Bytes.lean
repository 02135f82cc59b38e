/-
Texts as bytes.

`encode` is the UTF-8 form of a text; half of a surrogate pair has three bytes of its own.  `decode`
reads bytes back: halves that follow each other make their character, and every byte that begins no
character of its length, and every sequence that breaks off, becomes the replacement character.
-/
import SceneLogic.Text.Code
namespace SceneLogic.Text

/-! ### Writing -/

/-- The bytes of a code point up to the greatest, surrogates included. -/
def codeBytes (n : Nat) : List UInt8 :=
  if n < 0x80 then [n.toUInt8]
  else if n < 0x800 then [(0xC0 + n / 64).toUInt8, (0x80 + n % 64).toUInt8]
  else if n < 0x10000 then
    [(0xE0 + n / 4096).toUInt8, (0x80 + n / 64 % 64).toUInt8, (0x80 + n % 64).toUInt8]
  else
    [(0xF0 + n / 262144).toUInt8, (0x80 + n / 4096 % 64).toUInt8, (0x80 + n / 64 % 64).toUInt8,
      (0x80 + n % 64).toUInt8]

/-- The bytes of a text. -/
def encode (s : List Char) : List UInt8 := (codes s).flatMap codeBytes

/-! ### Reading -/

/-- The code of the character that stands for bytes that spell none. -/
def replacement : Nat := 0xFFFD

/-- A byte inside of a character. -/
def isContinuation (b : UInt8) : Bool := b &&& 0xC0 == 0x80

/-- The six bits that such a byte adds to a code point. -/
def addBits (n : Nat) (b : UInt8) : Nat := n * 64 + (b &&& 0x3F).toNat

/-- The units that four bytes with the bits of a number stand for: a pair, unless the number is that
of no character beyond the first plane. -/
def fourByteUnits (n : Nat) : List Nat :=
  let beyond : Int := n - 0x10000
  [(0xD800 + beyond / 0x400).toNat, (0xDC00 + beyond.tmod 0x400).toNat]

/-- Reads the units of one character off the bytes behind its first one. -/
def decodeFrom (first : UInt8) (rest : List UInt8) : List Nat × List UInt8 :=
  if first < 0x80 then ([first.toNat], rest)
  else if first < 0xC2 || 0xF4 < first then ([replacement], rest)
  else if first ≤ 0xDF then
    match rest with
    | [] => ([replacement], rest)
    | b :: rest =>
      if isContinuation b then ([addBits (first &&& 0x1F).toNat b], rest)
      else ([replacement], rest)
  else if first ≤ 0xEF then
    match rest with
    | b :: c :: rest =>
      if !isContinuation b then ([replacement], c :: rest)
      else if !isContinuation c then ([replacement], rest)
      else ([addBits (addBits (first &&& 0x0F).toNat b) c], rest)
    | _ => ([replacement], rest)
  else
    match rest with
    | b :: c :: d :: rest =>
      if !isContinuation b then ([replacement], c :: d :: rest)
      else if !isContinuation c then ([replacement], d :: rest)
      else if !isContinuation d then ([replacement], rest)
      else (fourByteUnits (addBits (addBits (addBits (first &&& 0x07).toNat b) c) d), rest)
    | _ => ([replacement], rest)

theorem length_decodeFrom (first : UInt8) (rest : List UInt8) :
    (decodeFrom first rest).2.length ≤ rest.length := by
  unfold decodeFrom
  repeat' split
  all_goals simp_all
  all_goals omega

/-- The units that bytes spell. -/
def units : List UInt8 → List Nat
  | [] => []
  | b :: rest => (decodeFrom b rest).1 ++ units (decodeFrom b rest).2
termination_by bytes => bytes.length
decreasing_by exact Nat.lt_succ_of_le (length_decodeFrom b rest)

/-- The text that bytes spell. -/
def decode (bytes : List UInt8) : List Char := ofCodes (units bytes)

/-- Bytes as characters of the same code. -/
def byteChars (bytes : List UInt8) : List Char := bytes.map fun b => Char.ofNat b.toNat

/-- The byte of a character below U+0100. -/
def charByte (c : Char) : UInt8 := c.toNat.toUInt8

end SceneLogic.Text
