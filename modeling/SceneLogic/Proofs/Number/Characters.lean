/-
The characters of texts that read as a number.

What reads as a number holds letters, digits, points and signs only, so it has no white space apart
from that at its ends (`Number.not_blank_of_read`).
-/
import Mathlib.Data.List.DropRight
import Mathlib.Data.List.TakeWhile
import SceneLogic.Number.Reader
namespace SceneLogic

/-! ### Cutting white space -/

namespace Text

theorem trimChars_eq (s : List Char) :
    trimChars s = (s.dropWhile isBlankChar).rdropWhile isBlankChar :=
  rfl

/-- Only white space is cut off. -/
theorem exists_trimChars (s : List Char) : ∃ front back, s = front ++ trimChars s ++ back ∧
    (∀ c ∈ front, isBlankChar c) ∧ ∀ c ∈ back, isBlankChar c := by
  have front := List.takeWhile_append_dropWhile (p := isBlankChar) (l := s)
  have back := List.takeWhile_append_dropWhile (p := isBlankChar)
    (l := (s.dropWhile isBlankChar).reverse)
  refine ⟨s.takeWhile isBlankChar, ((s.dropWhile isBlankChar).reverse.takeWhile isBlankChar).reverse,
    ?_, fun c mem => ?_, fun c mem => ?_⟩
  · rw [List.append_assoc, trimChars, ← List.reverse_append, back, List.reverse_reverse, front]
  · exact List.mem_takeWhile_imp mem
  · exact List.mem_takeWhile_imp (List.mem_reverse.1 mem)

theorem trimChars_trimChars (s : List Char) : trimChars (trimChars s) = trimChars s := by
  -- What is left begins as it did before its end was cut.
  have front : (trimChars s).dropWhile isBlankChar = trimChars s := by
    refine List.dropWhile_eq_self_iff.2 fun occupied => ?_
    have cut : trimChars s <+: s.dropWhile isBlankChar := List.rdropWhile_prefix _ _
    rw [cut.getElem occupied]
    exact List.dropWhile_get_zero_not _ _ _
  rw [trimChars_eq, front, trimChars_eq, List.rdropWhile_idempotent]

end Text

/-! ### Characters of numbers -/

namespace Number

/-- A character from the plus sign to the letter z.  All that may be in a number are among them, and
no white space is. -/
def InRange (c : Char) : Prop := '+'.toNat ≤ c.toNat ∧ c.toNat ≤ 'z'.toNat

instance : DecidablePred InRange := fun _ => inferInstanceAs (Decidable (_ ∧ _))

variable {s : List Char} {c : Char} {x : Number}

theorem InRange.not_blank (within : InRange c) : ¬ Text.isBlankChar c := by
  have low : 43 ≤ c.toNat := within.1
  have high : c.toNat ≤ 122 := within.2
  simp only [Text.isBlankChar, Bool.or_eq_true, Bool.and_eq_true, decide_eq_true_eq, beq_iff_eq]
  omega

theorem inRange_of_isDigit (digit : c.isDigit) : InRange c := by
  have range := Char.isDigit_iff_toNat.1 digit
  have ends : '0'.toNat = 48 ∧ '9'.toNat = 57 ∧ '+'.toNat = 43 ∧ 'z'.toNat = 122 := by decide
  rw [InRange]
  omega

theorem inRange_of_all_isDigit (digits : s.all Char.isDigit) : ∀ c ∈ s, InRange c :=
  fun c mem => inRange_of_isDigit (List.all_eq_true.1 digits c mem)

theorem inRange_of_wholeDigits? {n : Nat} (read : wholeDigits? s = some n) : ∀ c ∈ s, InRange c := by
  rw [wholeDigits?] at read
  split at read
  · next digits => exact inRange_of_all_isDigit digits.2
  · cases read

theorem inRange_of_takeSign (rest : ∀ c ∈ (takeSign s).2, InRange c) : ∀ c ∈ s, InRange c := by
  unfold takeSign at rest
  split at rest
  · exact List.forall_mem_cons.2 ⟨by decide, rest⟩
  · exact List.forall_mem_cons.2 ⟨by decide, rest⟩
  · exact rest

theorem inRange_of_exponent? {e : Int} (read : exponent? s = some e) : ∀ c ∈ s, InRange c := by
  unfold exponent? at read
  split at read
  · exact List.forall_mem_nil _
  · split at read
    · next letter rest isLetter =>
      obtain ⟨_, counted, -⟩ := Option.map_eq_some_iff.1 read
      obtain ⟨n, digits, -⟩ := Option.bind_eq_some_iff.1 counted
      have first : InRange letter := by
        rcases isLetter with rfl | rfl <;> decide
      exact List.forall_mem_cons.2 ⟨first, inRange_of_takeSign (inRange_of_wholeDigits? digits)⟩
    · cases read

/-- A numeral without a sign: its digits come first, then perhaps a point and digits, then perhaps an
exponent. -/
theorem inRange_of_decimal? {d : Decimal} (read : decimal? s = some d) : ∀ c ∈ s, InRange c := by
  have digits (t : List Char) : ∀ c ∈ t.takeWhile Char.isDigit, InRange c :=
    fun c mem => inRange_of_isDigit (List.mem_takeWhile_imp mem)
  have parts (t : List Char) (rest : ∀ c ∈ t.dropWhile Char.isDigit, InRange c) :
      ∀ c ∈ t, InRange c := by
    rw [← List.takeWhile_append_dropWhile (p := Char.isDigit) (l := t)]
    exact List.forall_mem_append.2 ⟨digits t, rest⟩
  refine parts s ?_
  unfold decimal? at read
  dsimp only at read
  split at read
  · next fraction point =>
    split at read
    · cases read
    · obtain ⟨e, tail, -⟩ := Option.map_eq_some_iff.1 read
      rw [point]
      exact List.forall_mem_cons.2 ⟨by decide, parts fraction (inRange_of_exponent? tail)⟩
  · split at read
    · cases read
    · obtain ⟨e, tail, -⟩ := Option.map_eq_some_iff.1 read
      exact inRange_of_exponent? tail

theorem inRange_of_signed? (read : signed? s = some x) : ∀ c ∈ s, InRange c := by
  refine inRange_of_takeSign ?_
  rw [signed?] at read
  dsimp only at read
  split at read
  · next word =>
    have letters : ("Infinity".toList.all fun c => decide (InRange c)) = true := by decide
    rw [word]
    exact fun c inside => of_decide_eq_true (List.all_eq_true.1 letters c inside)
  · obtain ⟨d, decimal, -⟩ := Option.map_eq_some_iff.1 read
    exact inRange_of_decimal? decimal

theorem inRange_of_digitValue (digit : digitValue c < 36) : InRange c := by
  have code {a b : Char} : a ≤ b ↔ a.toNat ≤ b.toNat := Char.le_def.trans UInt32.le_iff_toNat_le
  have ends : '0'.toNat = 48 ∧ '9'.toNat = 57 ∧ '+'.toNat = 43 ∧ 'A'.toNat = 65 ∧ 'Z'.toNat = 90 ∧
    'a'.toNat = 97 ∧ 'z'.toNat = 122 := by decide
  simp only [digitValue, code] at digit
  rw [InRange]
  split at digit
  · omega
  · split at digit
    · omega
    · split at digit
      · omega
      · omega

theorem of_baseOf? {base : Nat} (stands : baseOf? c = some base) : base ≤ 36 ∧ InRange c := by
  rw [baseOf?] at stands
  split at stands
  · next letter =>
    cases stands
    rcases letter with rfl | rfl <;> decide
  · split at stands
    · next letter =>
      cases stands
      rcases letter with rfl | rfl <;> decide
    · split at stands
      · next letter =>
        cases stands
        rcases letter with rfl | rfl <;> decide
      · cases stands

theorem inRange_of_based? (read : based? s = some x) : ∀ c ∈ s, InRange c := by
  unfold based? at read
  split at read
  · next letter rest =>
    obtain ⟨base, stands, digits⟩ := Option.bind_eq_some_iff.1 read
    obtain ⟨small, first⟩ := of_baseOf? stands
    rw [ofBase?] at digits
    split at digits
    · next all =>
      refine List.forall_mem_cons.2 ⟨by decide, List.forall_mem_cons.2 ⟨first, fun c mem => ?_⟩⟩
      have below := of_decide_eq_true (List.all_eq_true.1 all.2 c mem)
      exact inRange_of_digitValue (below.trans_le small)
    · cases digits
  · cases read

/-- **A text with white space inside reads as no number.** -/
theorem not_blank_of_read (read : readChars s ≠ nan) : ∀ c ∈ Text.trimChars s, ¬ Text.isBlankChar c := by
  intro c mem
  refine InRange.not_blank ?_
  rw [readChars] at read
  generalize Text.trimChars s = t at read mem
  cases t with
  | nil => cases mem
  | cons first rest =>
    dsimp only at read
    cases based : based? (first :: rest) with
    | some x => exact inRange_of_based? based c mem
    | none =>
      cases signed : signed? (first :: rest) with
      | some x => exact inRange_of_signed? signed c mem
      | none =>
        rw [based, signed] at read
        exact absurd rfl read

end Number

end SceneLogic
