/-
Literals of texts are read back.

Quoting acts on the codes of a text one by one (`codes_quoteChars`).  What stands for a code in a
literal holds no control and leaves no quote open (`isEscaped_quoteCodes`), and a reader takes it for
the bytes of that code, whatever follows (`readShort_quoteCode`): an escape of digits always has three
of them, so that no digit behind it joins it, and the bytes of a code beyond ASCII are none that a
reader looks for.  So a literal holds no control, only its first and last characters are quotes that
are not escaped, and a reader that begins on it stops right behind it with the bytes of the text
(`quote_reads_back`).

This is about reading a literal.  What a chunk makes of the token is another matter, since its texts
are shared after they are read.
-/
import SceneLogic.Lua.Token
import SceneLogic.Proofs.Lua.Literals
import SceneLogic.Proofs.Text.Bytes
import SceneLogic.Proofs.Text.Plain
namespace SceneLogic.Lua

/-! ### Codes of a literal -/

/-- The codes that stand in a literal for a code; 34 is that of a quote and 92 that of a backslash. -/
def quoteCode (n : Nat) : List Nat :=
  if n = 34 ∨ n = 92 then [92, n]
  else if n = 10 then [92, 110]
  else if n < 0x20 ∨ n = 0x7F then 92 :: (threeDigits n).map Char.toNat
  else [n]

/-- A code beyond ASCII stands for itself. -/
theorem quoteCode_of_le {n : Nat} (h : 0x80 ≤ n) : quoteCode n = [n] := by
  rw [quoteCode, if_neg (by omega), if_neg (by omega), if_neg (by omega)]

theorem quoteChar_of_le {c : Char} (h : 0x80 ≤ c.toNat) : quoteChar c = [c] := by
  have other : ∀ d : Char, d.toNat < 0x80 → c ≠ d := by
    rintro d lt rfl
    omega
  rw [quoteChar, if_neg, if_neg (other _ (by decide)), if_neg (by omega)]
  exact not_or.2 ⟨other _ (by decide), other _ (by decide)⟩

/-- A character of ASCII is quoted by plain characters, whose codes stand for its own. -/
theorem quoteChar_ascii {c : Char} (h : c.toNat < 0x80) :
    ∃ d ds, quoteChar c = d :: ds ∧ (∀ e ∈ d :: ds, Text.IsPlain e) ∧
      (d :: ds).map Char.toNat = quoteCode c.toNat := by
  have all : ∀ n < 0x80, quoteChar (Char.ofNat n) ≠ [] ∧
      (quoteChar (Char.ofNat n)).all (fun e => decide (Text.IsPlain e)) ∧
      (quoteChar (Char.ofNat n)).map Char.toNat = quoteCode n := by decide +kernel
  have this := all c.toNat h
  rw [Char.ofNat_toNat, List.all_eq_true] at this
  obtain ⟨some, plain, codes⟩ := this
  obtain ⟨d, ds, chars⟩ := List.exists_cons_of_ne_nil some
  exact ⟨d, ds, chars, fun e he => of_decide_eq_true (plain e (chars ▸ he)), chars ▸ codes⟩

theorem flatMap_quoteCode_marks (n : Nat) (ns : List Nat) :
    (List.replicate n Text.mark.toNat ++ ns).flatMap quoteCode =
      List.replicate n Text.mark.toNat ++ ns.flatMap quoteCode := by
  have mark : quoteCode Text.mark.toNat = [Text.mark.toNat] := by decide
  induction n with
  | zero => rfl
  | succ n ih =>
    rw [List.replicate_succ, List.cons_append, List.flatMap_cons, mark, ih]
    rfl

/-- Characters are quoted code by code. -/
theorem codesBehind_flatMap_quoteChar (afterHigh : Bool) (marks : Nat) (s : List Char) :
    Text.codesBehind afterHigh marks (s.flatMap quoteChar) =
      (Text.codesBehind afterHigh marks s).flatMap quoteCode := by
  induction s generalizing afterHigh marks with
  | nil =>
    have marked := flatMap_quoteCode_marks marks []
    rw [List.append_nil, List.flatMap_nil, List.append_nil] at marked
    exact marked.symm
  | cons c s ih =>
    rw [List.flatMap_cons]
    by_cases ascii : c.toNat < 0x80
    · have plain : Text.IsPlain c := by
        rw [Text.IsPlain]
        omega
      obtain ⟨d, ds, chars, plains, codes⟩ := quoteChar_ascii ascii
      obtain ⟨first, others⟩ := List.forall_mem_cons.1 plains
      rw [chars, List.cons_append, Text.codesBehind_cons first, Text.codes_append others,
        Text.codesBehind_cons plain, flatMap_quoteCode_marks, List.flatMap_cons, ← codes,
        Text.codes, ih]
      rfl
    · have itself : quoteCode c.toNat = [c.toNat] := quoteCode_of_le (by omega)
      rw [quoteChar_of_le (by omega), List.singleton_append, Text.codesBehind, Text.codesBehind]
      split
      · exact ih ..
      · split
        · rw [flatMap_quoteCode_marks, List.flatMap_cons, itself, ih]
          rfl
        · next half =>
          have large := (Text.half?_eq_some half).2
          split
          · rw [flatMap_quoteCode_marks, List.flatMap_cons, quoteCode_of_le, ih]
            · rfl
            · simp only [Text.isHalf, Text.isHigh, Text.isLow, Bool.or_eq_true, Bool.and_eq_true,
                decide_eq_true_eq] at large
              omega
          · rw [flatMap_quoteCode_marks, List.flatMap_cons, itself, ih]
            rfl

/-- The codes of a literal. -/
def quoteCodes (ns : List Nat) : List Nat := 34 :: (ns.flatMap quoteCode ++ [34])

/-- The codes of a literal and what follows it. -/
theorem codes_quoteChars (s after : List Char) :
    Text.codes (quoteChars s ++ after) = quoteCodes (Text.codes s) ++ Text.codes after := by
  have split : quoteChars s ++ after = '"' :: (s.flatMap quoteChar ++ '"' :: after) := by
    simp [quoteChars]
  rw [split, Text.codes_cons (by decide), Text.codes_append_cons (by decide), Text.codes,
    codesBehind_flatMap_quoteChar, quoteCodes, List.cons_append, List.append_assoc]
  rfl

/-! ### Controls and quotes -/

/-- No control stands in a literal for a code. -/
theorem not_control_of_mem_quoteCode {n m : Nat} (h : m ∈ quoteCode n) : 0x20 ≤ m ∧ m ≠ 0x7F := by
  by_cases ascii : n < 0x80
  · have all : ∀ n < 0x80, ∀ m ∈ quoteCode n, 0x20 ≤ m ∧ m ≠ 0x7F := by decide +kernel
    exact all n ascii m h
  · rw [quoteCode_of_le (by omega), List.mem_singleton] at h
    omega

/-- The code at a position comes right behind a backslash that is not escaped itself. -/
def isEscaped (ns : List Nat) : Nat → Bool
  | 0 => false
  | i + 1 => ns[i]? == some 92 && !isEscaped ns i

theorem isEscaped_append {ps : List Nat} (qs : List Nat) {i : Nat} (h : i ≤ ps.length) :
    isEscaped (ps ++ qs) i = isEscaped ps i := by
  induction i with
  | zero => rfl
  | succ i ih => rw [isEscaped, isEscaped, List.getElem?_append_left h, ih (by omega)]

/-- A literal up to some place: the only quote that is not escaped is its first code, and the code
to come is not escaped. -/
structure IsOpen (ps : List Nat) : Prop where
  quotes : ∀ i, ps[i]? = some 34 ∧ isEscaped ps i = false ↔ i = 0
  free : isEscaped ps ps.length = false

namespace IsOpen

variable {ps : List Nat}

theorem ne_nil (h : IsOpen ps) : ps ≠ [] := by
  rintro rfl
  cases ((h.quotes 0).2 rfl).1

/-- Codes are added to a literal that leave no quote open. -/
theorem append (h : IsOpen ps) {qs : List Nat}
    (quotes : ∀ i, qs[i]? = some 34 → isEscaped (ps ++ qs) (ps.length + i) = true)
    (free : isEscaped (ps ++ qs) (ps ++ qs).length = false) : IsOpen (ps ++ qs) where
  quotes := by
    intro i
    rcases lt_or_ge i ps.length with lt | ge
    · rw [List.getElem?_append_left lt, isEscaped_append _ lt.le]
      exact h.quotes i
    · have some := List.length_pos_iff.2 h.ne_nil
      obtain ⟨k, rfl⟩ := Nat.exists_eq_add_of_le ge
      rw [List.getElem?_append_right ge, Nat.add_sub_cancel_left]
      constructor
      · rintro ⟨quote, unescaped⟩
        rw [quotes k quote] at unescaped
        cases unescaped
      · omega
  free := free

theorem concat (h : IsOpen ps) {n : Nat} (quote : n ≠ 34) (back : n ≠ 92) :
    IsOpen (ps ++ [n]) := by
  refine h.append (fun i here => ?_) ?_
  · rw [List.getElem?_singleton] at here
    split at here
    · exact absurd (Option.some.inj here) quote
    · cases here
  · rw [List.length_append, List.length_singleton, isEscaped, List.getElem?_concat_length]
    simp [back]

theorem escape (h : IsOpen ps) (n : Nat) : IsOpen (ps ++ [92, n]) := by
  have back : (ps ++ [92, n])[ps.length]? = some 92 := by simp
  have escaped : isEscaped (ps ++ [92, n]) (ps.length + 1) = true := by
    rw [isEscaped, back, isEscaped_append _ le_rfl, h.free]
    rfl
  refine h.append (fun i here => ?_) ?_
  · match i with
    | 0 => cases here
    | 1 => exact escaped
  · rw [List.length_append]
    show isEscaped _ (ps.length + 1 + 1) = false
    rw [isEscaped, escaped]
    exact Bool.and_false _

theorem bare (h : IsOpen ps) {ms : List Nat} (others : ∀ m ∈ ms, m ≠ 34 ∧ m ≠ 92) :
    IsOpen (ps ++ ms) := by
  induction ms generalizing ps with
  | nil => simpa using h
  | cons m ms ih =>
    obtain ⟨⟨quote, back⟩, rest⟩ := List.forall_mem_cons.1 others
    rw [List.append_cons]
    exact ih (h.concat quote back) rest

/-- A literal goes on with any code. -/
theorem quoteCode (h : IsOpen ps) (n : Nat) : IsOpen (ps ++ quoteCode n) := by
  rw [Lua.quoteCode]
  split
  · exact h.escape n
  · split
    · exact h.escape 110
    · split
      · have all : ∀ n < 0x80, ∀ m ∈ (threeDigits n).map Char.toNat, m ≠ 34 ∧ m ≠ 92 := by
          decide +kernel
        have others : ∀ m ∈ ((threeDigits n).map Char.toNat).tail, m ≠ 34 ∧ m ≠ 92 := fun m hm =>
          all n (by omega) m (List.mem_of_mem_tail hm)
        -- The first digit is the one that is escaped.
        have more := (h.escape (Nat.digitChar (n / 100)).toNat).bare others
        rw [List.append_assoc] at more
        exact more
      · next special _ _ => exact h.concat (not_or.1 special).1 (not_or.1 special).2

theorem flatMap_quoteCode (h : IsOpen ps) (ns : List Nat) : IsOpen (ps ++ ns.flatMap Lua.quoteCode) := by
  induction ns generalizing ps with
  | nil => simpa using h
  | cons n ns ih =>
    rw [List.flatMap_cons, ← List.append_assoc]
    exact ih (h.quoteCode n)

/-- A quote ends the literal. -/
theorem close (h : IsOpen ps) (i : Nat) :
    (ps ++ [34])[i]? = some 34 ∧ isEscaped (ps ++ [34]) i = false ↔
      i = 0 ∨ i + 1 = (ps ++ [34]).length := by
  have some := List.length_pos_iff.2 h.ne_nil
  rw [List.length_append, List.length_singleton]
  rcases lt_trichotomy i ps.length with lt | rfl | gt
  · rw [List.getElem?_append_left lt, isEscaped_append _ lt.le, h.quotes i]
    omega
  · rw [isEscaped_append _ le_rfl, h.free, List.getElem?_concat_length]
    simp
  · rw [List.getElem?_eq_none (by simp; omega)]
    constructor
    · rintro ⟨none, -⟩
      cases none
    · omega

end IsOpen

/-- Only the first and the last code of a literal are quotes that are not escaped. -/
theorem isEscaped_quoteCodes (ns : List Nat) (i : Nat) :
    (quoteCodes ns)[i]? = some 34 ∧ isEscaped (quoteCodes ns) i = false ↔
      i = 0 ∨ i + 1 = (quoteCodes ns).length := by
  have first : IsOpen [34] := by
    refine ⟨fun i => ?_, by decide⟩
    rw [List.getElem?_singleton]
    cases i <;> simp [isEscaped]
  exact (first.flatMap_quoteCode ns).close i

theorem not_control_of_mem_quoteCodes {ns : List Nat} {m : Nat} (h : m ∈ quoteCodes ns) :
    0x20 ≤ m ∧ m ≠ 0x7F := by
  rw [quoteCodes, List.mem_cons, List.mem_append, List.mem_flatMap, List.mem_singleton] at h
  rcases h with rfl | ⟨n, -, mem⟩ | rfl
  · decide
  · exact not_control_of_mem_quoteCode mem
  · decide

/-! ### Reading -/

/-- A reader goes on with what an escape spells. -/
theorem readShort_escape {s rest : List Char} {bytes : List UInt8}
    (h : escape? s = some (bytes, rest)) :
    readShort '"' ('\\' :: s) = (readShort '"' rest).map fun (more, r) => (bytes ++ more, r) := by
  rw [readShort, if_neg (by decide), if_neg (by decide), if_pos rfl]
  split
  · next taken =>
    rw [h] at taken
    obtain ⟨rfl, rfl⟩ := Prod.mk.inj (Option.some.inj taken)
    rfl
  · next taken =>
    rw [h] at taken
    cases taken

/-- Three digits are an escape of their own, also where a digit follows. -/
theorem escape?_threeDigits {n : Nat} (h : n < 0x80) (rest : List Char) :
    escape? (threeDigits n ++ rest) = some ([n.toUInt8], rest) := by
  have all : ∀ n < 0x80, (Nat.digitChar (n / 100) = '0' ∨ Nat.digitChar (n / 100) = '1') ∧
      (threeDigits n).takeWhile Char.isDigit = threeDigits n ∧
      Number.ofDigits (threeDigits n) = n := by decide +kernel
  obtain ⟨first, digits, value⟩ := all n h
  have three : upToThree (threeDigits n ++ rest) = threeDigits n := digits
  have read : ∀ c s, c = '0' ∨ c = '1' → escape? (c :: s) =
      if Number.ofDigits (upToThree (c :: s)) ≤ 255 then
        some ([(Number.ofDigits (upToThree (c :: s))).toUInt8],
          (c :: s).drop (upToThree (c :: s)).length)
      else none := by
    rintro c s (rfl | rfl) <;> rfl
  have behind : (threeDigits n ++ rest).drop (threeDigits n).length = rest := List.drop_left
  calc escape? (threeDigits n ++ rest) = _ := read _ _ first
    _ = if Number.ofDigits (upToThree (threeDigits n ++ rest)) ≤ 255 then
          some ([(Number.ofDigits (upToThree (threeDigits n ++ rest))).toUInt8],
            (threeDigits n ++ rest).drop (upToThree (threeDigits n ++ rest)).length)
        else none := rfl
    _ = some ([n.toUInt8], rest) := by rw [three, value, if_pos (by omega), behind]

/-- A byte that a reader takes for itself. -/
def IsBareByte (b : UInt8) : Prop := b ≠ 34 ∧ b ≠ 10 ∧ b ≠ 13 ∧ b ≠ 92

instance : DecidablePred IsBareByte := fun b =>
  inferInstanceAs (Decidable (b ≠ 34 ∧ b ≠ 10 ∧ b ≠ 13 ∧ b ≠ 92))

theorem readShort_bare {bs : List UInt8} (h : ∀ b ∈ bs, IsBareByte b) (rest : List Char) :
    readShort '"' (Text.byteChars bs ++ rest) =
      (readShort '"' rest).map fun (more, r) => (bs ++ more, r) := by
  induction bs with
  | nil =>
    show readShort '"' rest = _
    cases readShort '"' rest <;> rfl
  | cons b bs ih =>
    obtain ⟨⟨quote, feed, back, slash⟩, others⟩ := List.forall_mem_cons.1 h
    have other : ∀ d, b ≠ Text.charByte d → Char.ofNat b.toNat ≠ d := by
      rintro d ne rfl
      exact ne (Text.charByte_ofNat b).symm
    show readShort '"' (Char.ofNat b.toNat :: (Text.byteChars bs ++ rest)) = _
    rw [readShort, if_neg (other '"' quote), if_neg (not_or.2 ⟨other '\n' feed, other '\r' back⟩),
      if_neg (other '\\' slash), ih others, Text.charByte_ofNat, Option.map_map]
    rfl

/-- A reader takes what stands for a code in a literal for the bytes of the code, whatever
follows. -/
theorem readShort_quoteCode {n : Nat} (h : n ≤ 0x10FFFF) (rest : List Char) :
    readShort '"' (Text.byteChars ((quoteCode n).flatMap Text.codeBytes) ++ rest) =
      (readShort '"' rest).map fun (more, r) => (Text.codeBytes n ++ more, r) := by
  by_cases ascii : n < 0x80
  · have small : Text.codeBytes n = [n.toUInt8] := by rw [Text.codeBytes, if_pos ascii]
    rw [quoteCode, small]
    split
    · next special =>
      rcases special with rfl | rfl <;> exact readShort_escape rfl
    · split
      · next feed =>
        subst feed
        exact readShort_escape rfl
      · split
        · have written : Text.byteChars
              ((92 :: (threeDigits n).map Char.toNat).flatMap Text.codeBytes) =
              '\\' :: threeDigits n := by
            have all : ∀ n < 0x80, Text.byteChars
                ((92 :: (threeDigits n).map Char.toNat).flatMap Text.codeBytes) =
                '\\' :: threeDigits n := by decide +kernel
            exact all n ascii
          rw [written]
          exact readShort_escape (escape?_threeDigits ascii rest)
        · next quote feed control =>
          have bare : ∀ n < 0x80, ¬ (n = 34 ∨ n = 92) → n ≠ 10 →
              ¬ (n < 0x20 ∨ n = 0x7F) → IsBareByte n.toUInt8 := by decide +kernel
          rw [List.flatMap_singleton, small]
          exact readShort_bare (List.forall_mem_singleton.2 (bare n ascii quote feed control)) rest
  · have bare : ∀ b : UInt8, 0x80 ≤ b → IsBareByte b := by
      intro b beyond
      refine ⟨?_, ?_, ?_, ?_⟩ <;> rintro rfl <;> exact absurd beyond (by decide)
    rw [quoteCode_of_le (by omega), List.flatMap_singleton]
    exact readShort_bare (fun b hb => bare b (Text.le_of_mem_codeBytes (by omega) h b hb)) rest

theorem readShort_quoteCodes {ns : List Nat} (h : ∀ n ∈ ns, n ≤ 0x10FFFF) (rest : List Char) :
    readShort '"' (Text.byteChars ((ns.flatMap quoteCode).flatMap Text.codeBytes) ++ '"' :: rest) =
      some (ns.flatMap Text.codeBytes, rest) := by
  induction ns with
  | nil =>
    show readShort '"' ('"' :: rest) = _
    rw [readShort, if_pos rfl]
    rfl
  | cons n ns ih =>
    obtain ⟨first, others⟩ := List.forall_mem_cons.1 h
    have apart : Text.byteChars (((n :: ns).flatMap quoteCode).flatMap Text.codeBytes) =
        Text.byteChars ((quoteCode n).flatMap Text.codeBytes) ++
          Text.byteChars ((ns.flatMap quoteCode).flatMap Text.codeBytes) := by
      simp [Text.byteChars]
    rw [apart, List.append_assoc, readShort_quoteCode first, ih others]
    rfl

/-- The characters of a source as a reader meets them, one for each byte. -/
def sourceChars (source : String) : List Char := Text.byteChars (Text.encode source.toList)

/-- A literal as a reader meets it, with what follows it. -/
theorem readShort_quote (s after : String) :
    ∃ inner, sourceChars (quote s ++ after) = '"' :: inner ∧
      readShort '"' inner = some (Text.encode s.toList, sourceChars after) := by
  refine ⟨Text.byteChars (((Text.codes s.toList).flatMap quoteCode).flatMap Text.codeBytes) ++
    '"' :: sourceChars after, ?_, ?_⟩
  · have quoteBytes : Text.codeBytes 34 = [34] := by decide
    rw [sourceChars, String.toList_append, toList_quote, Text.encode, codes_quoteChars, quoteCodes]
    simp [Text.byteChars, quoteBytes, sourceChars, Text.encode]
  · exact readShort_quoteCodes (Text.areCodes_codes s.toList).le _

/-- A literal holds no control, its only quotes that are not escaped are
its first and its last character, and a reader that begins on it stops right behind it, whatever
follows, with the bytes of the text, which spell the text and no other. -/
theorem quote_reads_back (s : String) :
    (∀ n ∈ Text.codes (quote s).toList, 0x20 ≤ n ∧ n ≠ 0x7F) ∧
    (∀ i, (Text.codes (quote s).toList)[i]? = some '"'.toNat ∧
        isEscaped (Text.codes (quote s).toList) i = false ↔
      i = 0 ∨ i + 1 = (Text.codes (quote s).toList).length) ∧
    (∀ after : String, ∃ inner, sourceChars (quote s ++ after) = '"' :: inner ∧
      readShort '"' inner = some (Text.encode s.toList, sourceChars after)) ∧
    String.ofList (Text.decode (Text.encode s.toList)) = s := by
  have codes : Text.codes (quote s).toList = quoteCodes (Text.codes s.toList) := by
    have all := codes_quoteChars s.toList []
    rw [List.append_nil] at all
    rw [toList_quote, all]
    exact List.append_nil _
  rw [codes]
  refine ⟨fun n => not_control_of_mem_quoteCodes, isEscaped_quoteCodes _, readShort_quote s, ?_⟩
  rw [Text.decode_encode, String.ofList_toList]

end SceneLogic.Lua
