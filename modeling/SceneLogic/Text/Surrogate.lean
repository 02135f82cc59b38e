/-
Surrogates.

In UTF-16 a character beyond the first plane is a pair of units, a high surrogate and a low one.
A surrogate that is not in a pair is a *half*.  `join` makes characters of the pairs in a list of
units and codes; what it leaves of the surrogates are halves.
-/
namespace SceneLogic.Text

/-- The first half of a pair of surrogates. -/
def isHigh (n : Nat) : Bool := 0xD800 ≤ n && n < 0xDC00

/-- The second half of a pair of surrogates. -/
def isLow (n : Nat) : Bool := 0xDC00 ≤ n && n < 0xE000

/-- Half of a pair of surrogates. -/
def isHalf (n : Nat) : Bool := isHigh n || isLow n

/-- The code point of a pair of surrogates. -/
def ofPair (high low : Nat) : Nat := 0x10000 + (high - 0xD800) * 0x400 + (low - 0xDC00)

/-- Puts the code of a character in place of each pair of surrogates. -/
def join : List Nat → List Nat
  | [] => []
  | [n] => [n]
  | a :: b :: rest =>
    if isHigh a && isLow b then ofPair a b :: join rest else a :: join (b :: rest)

/-- The units of a code point: a pair of surrogates for one beyond the first plane. -/
def unitsOf (n : Nat) : List Nat :=
  if n < 0x10000 then [n]
  else [0xD800 + (n - 0x10000) / 0x400, 0xDC00 + (n - 0x10000) % 0x400]

end SceneLogic.Text
