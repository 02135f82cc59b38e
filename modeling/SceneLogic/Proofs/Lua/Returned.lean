/-
What a chunk that returns a literal gives.

Behind the keyword the literal is read as in any other place (`tokens?_return_quote`), and the chunk
gives the text of its token (`run_return_quote`).  In between the texts of the chunk are shared, and
the keyword is one of them.  So a text with the key of the keyword is returned as the keyword
(`returned`), for example the bell, a start of text and `eturn` (`bell_is_returned_as_keyword`);
none of printable characters is (`returned_of_printable`).  `literal_law` has what is true of every
text, where it is read and where it is returned.
-/
import SceneLogic.Lua.Interpreter
import SceneLogic.Proofs.Lua.Reading
namespace SceneLogic.Lua

/-! ### Tokens -/

theorem lexeme?_quote (s after : String) :
    lexeme? (sourceChars (quote s ++ after)) =
      some (.token (.text (Text.encode s.toList)) (sourceChars after)) := by
  obtain ⟨inner, chars, read⟩ := readShort_quote s after
  rw [chars, lexeme?, if_neg (by decide), if_neg (by decide), if_neg (by simp),
    if_pos (.inl rfl), read]
  rfl

/-- The letters of the keyword that returns values. -/
def returnLetters : List Char := ['r', 'e', 't', 'u', 'r', 'n']

theorem lexeme?_return (rest : List Char) :
    lexeme? (returnLetters ++ ' ' :: rest) = some (.token (.reserved "return") (' ' :: rest)) := by
  have keyword : word (String.ofList returnLetters) = .reserved "return" := by
    rw [word, if_pos (by decide)]
    rfl
  have letters : ∀ c ∈ returnLetters, isNamePart c := List.all_eq_true.1 rfl
  have taken : (returnLetters ++ ' ' :: rest).takeWhile isNamePart = returnLetters := by
    rw [List.takeWhile_append_of_pos letters, List.takeWhile_cons_of_neg (by decide),
      List.append_nil]
  have dropped : (returnLetters ++ ' ' :: rest).dropWhile isNamePart = ' ' :: rest := by
    rw [List.dropWhile_append_of_pos letters, List.dropWhile_cons_of_neg (by decide)]
  rw [returnLetters, List.cons_append] at taken dropped ⊢
  rw [lexeme?, if_neg (by decide), if_pos (by decide), taken, dropped, ← keyword, returnLetters]

theorem lex_token {s rest : List Char} {t : Token} (h : lexeme? s = some (.token t rest))
    (n : Nat) : lex (n + 1) s = (lex n rest).map (t :: ·) := by
  rw [lex, h]

theorem lex_filler {s rest : List Char} (h : lexeme? s = some (.filler rest)) (n : Nat) :
    lex (n + 1) s = lex n rest := by
  rw [lex, h]

theorem tokens?_return_quote (s : String) :
    tokens? ("return " ++ quote s) = some [.reserved "return", .text (Text.encode s.toList)] := by
  have text := lexeme?_quote s ""
  rw [String.append_empty] at text
  have blank : lexeme? (' ' :: sourceChars (quote s)) = some (.filler (sourceChars (quote s))) := by
    obtain ⟨inner, chars, -⟩ := readShort_quote s ""
    rw [String.append_empty] at chars
    rw [chars]
    rfl
  have letters : "return ".toList = returnLetters ++ [' '] := by decide
  have source : Text.byteChars (Text.encode ("return " ++ quote s).toList) =
      returnLetters ++ ' ' :: sourceChars (quote s) := by
    rw [String.toList_append, Text.byteChars_encode_append (by decide), letters,
      List.append_assoc, List.singleton_append, sourceChars]
  have steps : (returnLetters ++ ' ' :: sourceChars (quote s)).length =
      (sourceChars (quote s)).length + 7 := by
    simp only [returnLetters, List.length_append, List.length_cons, List.length_nil]
    omega
  rw [tokens?, source, tokensOf?, steps]
  generalize (sourceChars (quote s)).length = n
  rw [lex_token (lexeme?_return _), lex_filler blank, lex_token text]
  rfl

/-! ### Sharing -/

/-- The bytes of the keyword. -/
def returnBytes : List UInt8 := Text.encode "return".toList

/-- What becomes of a text behind the keyword: the keyword if it has the same key, else itself. -/
def returned (bytes : List UInt8) : List UInt8 :=
  if textKey bytes = textKey returnBytes then returnBytes else bytes

theorem shareTexts_return (bytes : List UInt8) :
    shareTexts [] .nowhere [.reserved "return", .text bytes] =
      [.reserved "return", .text (returned bytes)] := by
  have first : (Token.reserved "return").share [] =
      (.reserved "return", [(textKey returnBytes, returnBytes)]) := by
    rw [Token.share, if_pos (by decide)]
    show (if returnBytes = returnBytes then _ else _, _) = _
    rw [if_pos rfl]
    rfl
  have second : ((Token.text bytes).share [(textKey returnBytes, returnBytes)]).1 =
      .text (returned bytes) := by
    rw [returned]
    split
    case isTrue same => simp [Token.share, SharedTexts.share, same]
    case isFalse other =>
      have none : (textKey bytes == textKey returnBytes) = false := beq_false_of_ne other
      simp [Token.share, SharedTexts.share, List.lookup_cons, none]
  rw [shareTexts, first]
  show [.reserved "return", ((Token.text bytes).share [(textKey returnBytes, returnBytes)]).1] = _
  rw [second]

/-- Texts of printable characters are told apart by their keys. -/
theorem textKey_inj {a b : List UInt8} (ha : ∀ c ∈ a, 16 ≤ c) (hb : ∀ c ∈ b, 16 ≤ c)
    (same : textKey a = textKey b) : a = b := by
  have two : ∀ {c : UInt8} {s : List UInt8}, 16 ≤ c →
      textKey (c :: s) = c.toNat / 16 :: c.toNat % 16 :: textKey s := by
    intro c s le
    rw [UInt8.le_iff_toNat_le] at le
    have large : ¬ c.toNat < 16 := not_lt_of_ge le
    rw [textKey, List.flatMap_cons, if_neg large]
    rfl
  induction a generalizing b with
  | nil =>
    cases b with
    | nil => rfl
    | cons d b =>
      rw [two (hb d List.mem_cons_self)] at same
      cases same
  | cons c a ih =>
    obtain ⟨first, others⟩ := List.forall_mem_cons.1 ha
    rw [two first] at same
    cases b with
    | nil => cases same
    | cons d b =>
      obtain ⟨first', others'⟩ := List.forall_mem_cons.1 hb
      rw [two first', List.cons.injEq, List.cons.injEq] at same
      obtain ⟨high, low, rest⟩ := same
      have byte : c = d := by
        rw [← UInt8.toNat_inj, ← Nat.div_add_mod c.toNat 16, high, low, Nat.div_add_mod]
      rw [byte, ih others others' rest]

theorem returned_of_printable {bytes : List UInt8} (h : ∀ c ∈ bytes, 16 ≤ c) :
    returned bytes = bytes := by
  have keyword : returnBytes.all fun c => decide (16 ≤ c) := by decide
  rw [returned]
  split
  · next same =>
    refine (textKey_inj h (fun c hc => ?_) same).symm
    exact of_decide_eq_true (List.all_eq_true.1 keyword c hc)
  · rfl

theorem returned_encode {s : String} (h : ∀ n ∈ Text.codes s.toList, 0x10 ≤ n) :
    returned (Text.encode s.toList) = Text.encode s.toList := by
  refine returned_of_printable fun b mem => ?_
  rw [Text.encode, List.mem_flatMap] at mem
  obtain ⟨n, own, mem⟩ := mem
  by_cases ascii : n < 0x80
  · have bytes : ∀ n < 0x80, 0x10 ≤ n → ∀ b ∈ Text.codeBytes n, (16 : UInt8) ≤ b := by
      decide +kernel
    exact bytes n ascii (h n own) b mem
  · have le := (Text.areCodes_codes s.toList).le n own
    exact UInt8.le_trans (by decide) (Text.le_of_mem_codeBytes (Nat.not_lt.1 ascii) le b mem)

/-! ### Running -/

open Grammar in
theorem parse?_return_quote (s : String) :
    parse? ("return " ++ quote s) =
      some [.returnValues [.text (returned (Text.encode s.toList))]] := by
  generalize bytes : returned (Text.encode s.toList) = b
  have body (n : Nat) : Grammar.block (n + 8) 0 true [.reserved "return", .text b] =
      some ([.returnValues [.text b]], []) := by
    have operand : expression (n + 3) 1 true 0 [.text b] = some (.text b, []) := by
      simp [expression, simple, operations, greatestDepth]
    have values : expressions (n + 4) 1 true [.text b] = some ([.text b], []) := by
      rw [expressions, operand]
      rfl
    have read : Grammar.returned (n + 5) 1 true [.text b] = some (.returnValues [.text b], []) := by
      rw [Grammar.returned, values]
      rfl
    have single : simpleStatement (n + 6) 1 true [.reserved "return", .text b] =
        some (.returnValues [.text b], []) := by
      rw [simpleStatement]
      exact read
    have whole : statement (n + 7) 0 true [.reserved "return", .text b] =
        some ([.returnValues [.text b]], []) := by
      rw [statement, single]
      rfl
    rw [Grammar.block, whole]
    rfl
  rw [parse?, tokens?_return_quote, Option.bind_eq_bind, Option.bind_some, shareTexts_return, bytes]
  show (Grammar.block (40 + 8) 0 true _).bind _ = _
  rw [body]
  rfl

open Limits in
theorem fits_return (b : List UInt8) : fits [.returnValues [.text b]] := by
  simp [fits, statements, Limits.statement, operands, operand, textOperand, fitsOperand,
    Operand.ofLocation, current, change, Operand.isMultiple, toRegister, discharge, toNext,
    releaseValue, enterNumeral, reserve, releaseAll, operandConstants, greatestRegisters]

theorem runAll_return (b : List UInt8) (m : Memory) :
    ∃ m', (Interpreter.runAll [.returnValues [.text b]]).run m = (.ok (.text b), m') := by
  have steps : Interpreter.steps = Interpreter.steps - 4 + 4 := rfl
  have run (n : Nat) (frame : Frame) : block (n + 4) frame [.returnValues [.text b]] =
      pure (.returned [.text b], frame.scope) := by
    simp [block, execute, allValues, values]
  rw [Interpreter.runAll, steps]
  simp only [run]
  exact ⟨_, rfl⟩

/-- A chunk that returns a literal gives its text, unless that has the key of the keyword. -/
theorem run_return_quote (i : Interpreter) (s name : String) (running : i.closed = false) :
    (i.run ("return " ++ quote s) name).1 = .ok (.text (returned (Text.encode s.toList))) := by
  have parsed : Interpreter.parse ("return " ++ quote s) name =
      .ok [.returnValues [.text (returned (Text.encode s.toList))]] := by
    rw [Interpreter.parse, parse?_return_quote]
    show (if Limits.fits _ then _ else _) = _
    rw [if_pos (fits_return _)]
  obtain ⟨m, result⟩ := runAll_return (returned (Text.encode s.toList)) i.memory
  rw [Interpreter.run, running, if_neg Bool.false_ne_true, parsed]
  simp only [result]
  show Except.ok (m.data _ (.text _)) = _
  rw [Memory.data]

/-- **Literals are read back.**  A literal holds no control, its only quotes that are not escaped
are its first and its last character, and a reader that begins on it stops right behind it, whatever
follows, with the bytes of the text, which spell the text and no other.  A chunk that returns it
gives these bytes, unless they have the key of the keyword; they do not if the text has only
characters from U+0010 on. -/
theorem literal_law (s : String) :
    (∀ n ∈ Text.codes (quote s).toList, 0x20 ≤ n ∧ n ≠ 0x7F) ∧
    (∀ i, (Text.codes (quote s).toList)[i]? = some '"'.toNat ∧
        isEscaped (Text.codes (quote s).toList) i = false ↔
      i = 0 ∨ i + 1 = (Text.codes (quote s).toList).length) ∧
    (∀ after : String, ∃ inner, sourceChars (quote s ++ after) = '"' :: inner ∧
      readShort '"' inner = some (Text.encode s.toList, sourceChars after)) ∧
    String.ofList (Text.decode (Text.encode s.toList)) = s ∧
    (∀ (interpreter : Interpreter) (name : String), interpreter.closed = false →
      (interpreter.run ("return " ++ quote s) name).1 =
        .ok (.text (returned (Text.encode s.toList)))) ∧
    ((∀ n ∈ Text.codes s.toList, 0x10 ≤ n) →
      returned (Text.encode s.toList) = Text.encode s.toList) := by
  obtain ⟨controls, quotes, reads, spells⟩ := quote_reads_back s
  exact ⟨controls, quotes, reads, spells,
    fun interpreter name running => run_return_quote interpreter s name running, returned_encode⟩

theorem greeting_is_returned :
    (Interpreter.start.run ("return " ++ quote "say \"hi\"") "chunk").1 =
      .ok (.text (Text.encode "say \"hi\"".toList)) := by
  obtain ⟨-, -, -, -, runs, printable⟩ := literal_law "say \"hi\""
  rw [runs Interpreter.start "chunk" rfl, printable (by decide)]

/-- A chunk that returns the literal of a text need not give the text. -/
theorem bell_is_returned_as_keyword :
    (Interpreter.start.run ("return " ++ quote "\x07\x02eturn") "chunk").1 =
        .ok (.text (Text.encode "return".toList)) ∧
      ¬ ∀ s : String, (Interpreter.start.run ("return " ++ quote s) "chunk").1 =
        .ok (.text (Text.encode s.toList)) := by
  have keyword := run_return_quote Interpreter.start "\x07\x02eturn" "chunk" rfl
  have same : returned (Text.encode "\x07\x02eturn".toList) = Text.encode "return".toList := by
    decide
  have other : Text.encode "return".toList ≠ Text.encode "\x07\x02eturn".toList := by decide
  rw [same] at keyword
  refine ⟨keyword, fun all => other ?_⟩
  exact Data.text.inj (Except.ok.inj (keyword.symm.trans (all _)))

end SceneLogic.Lua
