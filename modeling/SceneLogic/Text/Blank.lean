/-
White space and the texts made of it alone.

`isBlankChar` is the table of white space and line ends that every reader of the library
skips.  `trimChars` cuts it from both ends of a text, and a text is *blank* (`Blank`) when
nothing else is in it; names of targets and claims must not be blank.
-/
namespace SceneLogic.Text

/-- The white space characters: the controls U+0009 to U+000D, the space, the no-break space,
the space separators of Unicode, the line and paragraph separators and the byte order mark. -/
def isBlankChar (c : Char) : Bool :=
  let n := c.toNat
  (0x09 ≤ n && n ≤ 0x0D) || n == 0x20 || n == 0xA0 || n == 0x1680 ||
  (0x2000 ≤ n && n ≤ 0x200A) || n == 0x2028 || n == 0x2029 || n == 0x202F ||
  n == 0x205F || n == 0x3000 || n == 0xFEFF

/-- The characters without the white space at either end. -/
def trimChars (s : List Char) : List Char :=
  ((s.dropWhile isBlankChar).reverse.dropWhile isBlankChar).reverse

/-- A text is blank when it holds white space only. -/
def Blank (s : String) : Prop := ∀ c ∈ s.toList, isBlankChar c

-- The instance is named: a search may find the one that runs over all characters instead.
instance (s : String) : Decidable (Blank s) :=
  List.decidableBAll (fun c => isBlankChar c = true) s.toList

end SceneLogic.Text
