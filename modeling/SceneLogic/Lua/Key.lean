/-
Keys of texts.

Texts are ordered, found in tables, and shared within a chunk by the hexadecimal digits of their
bytes.  A byte below sixteen has one digit, so different texts may have the same key: the bytes 4
and 1 have that of the letter A.  No two texts of printable characters have the same one.
-/
namespace SceneLogic.Lua

/-- The key of a text: the hexadecimal digits of its bytes, a byte below sixteen having one. -/
def textKey (bytes : List UInt8) : List Nat :=
  bytes.flatMap fun b => if b.toNat < 16 then [b.toNat] else [b.toNat / 16, b.toNat % 16]

/-- The first list of digits comes before the second. -/
def digitsLess : List Nat → List Nat → Bool
  | _, [] => false
  | [], _ :: _ => true
  | a :: as, b :: bs => a < b || (a == b && digitsLess as bs)

/-- The first text comes before the second in the order of their keys. -/
def textLess (a b : List UInt8) : Bool := digitsLess (textKey a) (textKey b)

end SceneLogic.Lua
