/-
Codes of texts.

A text may hold halves of surrogate pairs, which are no characters.  The *codes* of a text are the
code points of its characters and its halves, in order.  A high half does not come right before a low
one there, since the two would be a character.

A half is spelled by its *stand-in*, the private character of the last plane with the same last four
hexadecimal digits.  A stand-in may also be in a text for itself; the *marks* before it, copies of the
last of all characters, tell which of the two it is.  Behind an even number of marks it is a half, and
half of the marks are in the text; behind an odd number it is itself, and one mark more than twice as
many as in the text come before it.  Only where a low half would follow a high one, which no text
holds, it is the other way round.

So every string spells the codes of one text, and the codes of every text are spelled by one string:
this is what `areCodes_codes`, `spell_codes` and `codes_spell` say.
-/
import SceneLogic.Text.Surrogate
namespace SceneLogic.Text

/-! ### Marks and stand-ins -/

/-- The character that marks stand-ins. -/
def mark : Char := Char.ofNat 0x10FFFF

/-- The character that stands for a half. -/
def standIn (n : Nat) : Char := Char.ofNat (0x100000 + n)

/-- The half that a character stands for, if it is a stand-in. -/
def half? (c : Char) : Option Nat :=
  if 0x100000 ≤ c.toNat ∧ isHalf (c.toNat - 0x100000) then some (c.toNat - 0x100000) else none

/-- The number of marks in a text for those before a stand-in, and whether the stand-in is a half;
`tight` tells that a half would follow its other half if there were no marks. -/
def readMarks (tight : Bool) (n : Nat) : Nat × Bool :=
  if tight then ((n + 1) / 2, n % 2 == 1) else (n / 2, n % 2 == 0)

/-- The number of marks before a stand-in for those in a text. -/
def writeMarks (tight half : Bool) (n : Nat) : Nat :=
  if tight then if half then 2 * n - 1 else 2 * n
  else if half then 2 * n else 2 * n + 1

/-! ### Codes and strings -/

/-- The codes that characters spell behind some marks, which a high half may come before. -/
def codesBehind (afterHigh : Bool) (marks : Nat) : List Char → List Nat
  | [] => List.replicate marks mark.toNat
  | c :: rest =>
    if c = mark then codesBehind afterHigh (marks + 1) rest
    else
      match half? c with
      | none => List.replicate marks mark.toNat ++ c.toNat :: codesBehind false 0 rest
      | some n =>
        match readMarks (afterHigh && isLow n) marks with
        | (m, true) => List.replicate m mark.toNat ++ n :: codesBehind (isHigh n) 0 rest
        | (m, false) => List.replicate m mark.toNat ++ c.toNat :: codesBehind false 0 rest

/-- The codes that characters spell. -/
def codes (s : List Char) : List Nat := codesBehind false 0 s

/-- The characters that spell codes behind some marks, which a high half may come before. -/
def spellBehind (afterHigh : Bool) (marks : Nat) : List Nat → List Char
  | [] => List.replicate marks mark
  | n :: rest =>
    if n = mark.toNat then spellBehind afterHigh (marks + 1) rest
    else if isHalf n then
      List.replicate (writeMarks (afterHigh && isLow n) true marks) mark ++
        standIn n :: spellBehind (isHigh n) 0 rest
    else
      match half? (Char.ofNat n) with
      | none => List.replicate marks mark ++ Char.ofNat n :: spellBehind false 0 rest
      | some half =>
        List.replicate (writeMarks (afterHigh && isLow half) false marks) mark ++
          Char.ofNat n :: spellBehind false 0 rest

/-- The characters that spell codes. -/
def spell (ns : List Nat) : List Char := spellBehind false 0 ns

/-- The text of codes and units. -/
def ofCodes (ns : List Nat) : List Char := spell (join ns)

/-- The text in which all characters of a string are for themselves. -/
def ofPlain (s : String) : String := String.ofList (ofCodes (s.toList.map Char.toNat))

/-! ### Every string spells its own codes -/

/-- A code of a text behind a high half or something else. -/
def IsCode (afterHigh : Bool) (n : Nat) : Prop :=
  if isHalf n then (afterHigh && isLow n) = false else n.isValidChar

/-- Codes that a text can have. -/
def AreCodes (afterHigh : Bool) : List Nat → Prop
  | [] => True
  | n :: rest => IsCode afterHigh n ∧ AreCodes (isHigh n) rest

theorem isHalf_mark : isHalf mark.toNat = false := by decide

theorem isHigh_mark : isHigh mark.toNat = false := by decide

theorem half?_mark : half? mark = none := by decide

theorem half?_eq_some {c : Char} {n : Nat} (h : half? c = some n) :
    c = standIn n ∧ isHalf n := by
  unfold half? at h
  split at h
  case isTrue hc =>
    obtain rfl := Option.some.inj h
    refine ⟨?_, hc.2⟩
    rw [standIn, Nat.add_sub_cancel' hc.1]
    exact (Char.ofNat_toNat c).symm
  case isFalse => simp at h

theorem toNat_ofNat {n : Nat} (h : n.isValidChar) : (Char.ofNat n).toNat = n := by
  rw [Char.ofNat, dif_pos h]
  rfl

theorem isValidChar_standIn {n : Nat} (h : isHalf n) : (0x100000 + n).isValidChar := by
  simp only [isHalf, isHigh, isLow, Bool.or_eq_true, Bool.and_eq_true, decide_eq_true_eq] at h
  right
  omega

theorem half?_standIn {n : Nat} (h : isHalf n) : half? (standIn n) = some n := by
  rw [half?, standIn, toNat_ofNat (isValidChar_standIn h), Nat.add_sub_cancel_left]
  simp [h]

theorem standIn_ne_mark {n : Nat} (h : isHalf n) : standIn n ≠ mark := by
  intro eq
  have := half?_standIn h
  rw [eq, half?_mark] at this
  simp at this

theorem isHalf_toNat (c : Char) : isHalf c.toNat = false := by
  have h : c.toNat.isValidChar := c.valid
  simp only [isHalf, isHigh, isLow, Bool.or_eq_false_iff, Bool.and_eq_false_iff,
    decide_eq_false_iff_not]
  unfold Nat.isValidChar at h
  omega

theorem readMarks_writeMarks (tight half : Bool) (n : Nat)
    (h : tight = true → half = true → 0 < n) :
    readMarks tight (writeMarks tight half n) = (n, half) := by
  cases tight <;> cases half <;> simp_all [readMarks, writeMarks] <;> omega

theorem writeMarks_readMarks (tight : Bool) (n : Nat) :
    writeMarks tight (readMarks tight n).2 (readMarks tight n).1 = n := by
  cases tight <;> rcases Nat.mod_two_eq_zero_or_one n with h | h <;>
    simp [readMarks, writeMarks, h] <;> omega

theorem spellBehind_replicate (afterHigh : Bool) (marks more : Nat) (ns : List Nat) :
    spellBehind afterHigh marks (List.replicate more mark.toNat ++ ns) =
      spellBehind afterHigh (marks + more) ns := by
  induction more generalizing marks with
  | zero => rfl
  | succ more ih =>
    rw [List.replicate_succ, List.cons_append, spellBehind, if_pos rfl, ih]
    congr 1
    omega

theorem codesBehind_replicate (afterHigh : Bool) (marks more : Nat) (s : List Char) :
    codesBehind afterHigh marks (List.replicate more mark ++ s) =
      codesBehind afterHigh (marks + more) s := by
  induction more generalizing marks with
  | zero => rfl
  | succ more ih =>
    rw [List.replicate_succ, List.cons_append, codesBehind, if_pos rfl, ih]
    congr 1
    omega

theorem spellBehind_codesBehind (afterHigh : Bool) (marks : Nat) (s : List Char) :
    spellBehind afterHigh 0 (codesBehind afterHigh marks s) = List.replicate marks mark ++ s := by
  induction s generalizing afterHigh marks with
  | nil => simpa [codesBehind, spellBehind] using spellBehind_replicate afterHigh 0 marks []
  | cons c rest ih =>
    rw [codesBehind]
    split
    case isTrue h =>
      rw [ih, h, List.replicate_succ', List.append_assoc]
      rfl
    case isFalse h =>
      have itself : c.toNat ≠ mark.toNat := fun eq => h (Char.toNat_inj.1 eq)
      split
      case h_1 none =>
        rw [spellBehind_replicate, spellBehind, if_neg itself, isHalf_toNat]
        simp [Char.ofNat_toNat, none, ih]
      case h_2 n some =>
        obtain ⟨rfl, half⟩ := half?_eq_some some
        have back := writeMarks_readMarks (afterHigh && isLow n) marks
        split
        case h_1 m eq =>
          rw [eq] at back
          rw [spellBehind_replicate, spellBehind, if_neg, if_pos half, Nat.zero_add, back, ih]
          · rfl
          · intro eq
            rw [eq, isHalf_mark] at half
            simp at half
        case h_2 m eq =>
          rw [eq] at back
          rw [spellBehind_replicate, spellBehind, if_neg itself, isHalf_toNat]
          simp [Char.ofNat_toNat, some, ih, back]

/-- The codes of a string spell it. -/
theorem spell_codes (s : List Char) : spell (codes s) = s :=
  spellBehind_codesBehind false 0 s

theorem codesBehind_spellBehind (afterHigh : Bool) (marks : Nat) (ns : List Nat)
    (h : AreCodes (afterHigh && marks == 0) ns) :
    codesBehind afterHigh 0 (spellBehind afterHigh marks ns) =
      List.replicate marks mark.toNat ++ ns := by
  induction ns generalizing afterHigh marks with
  | nil => simpa [spellBehind, codesBehind] using codesBehind_replicate afterHigh 0 marks []
  | cons n rest ih =>
    obtain ⟨first, others⟩ := h
    rw [spellBehind]
    split
    case isTrue eq =>
      subst eq
      rw [ih, List.replicate_succ', List.append_assoc]
      · rfl
      · simpa [isHigh_mark] using others
    case isFalse itself =>
      split
      case isTrue half =>
        rw [codesBehind_replicate, codesBehind, if_neg (standIn_ne_mark half), half?_standIn half]
        have read := readMarks_writeMarks (afterHigh && isLow n) true marks <| by
          rw [IsCode, if_pos half] at first
          intro tight _
          cases marks with
          | zero => simp_all
          | succ => omega
        simp only [Nat.zero_add, read]
        rw [ih]
        · rfl
        · simpa using others
      case isFalse whole =>
        rw [IsCode, if_neg whole] at first
        have high : isHigh n = false := by simp_all [isHalf]
        rw [high] at others
        have other : Char.ofNat n ≠ mark := by
          intro eq
          apply itself
          rw [← eq, toNat_ofNat first]
        split
        case h_1 none =>
          rw [codesBehind_replicate, codesBehind, if_neg other, none]
          simp only [Nat.zero_add, toNat_ofNat first]
          rw [ih]
          · rfl
          · simpa using others
        case h_2 m some =>
          rw [codesBehind_replicate, codesBehind, if_neg other, some]
          have read := readMarks_writeMarks (afterHigh && isLow m) false marks (by simp)
          simp only [Nat.zero_add, read, toNat_ofNat first]
          rw [ih]
          · rfl
          · simpa using others

/-- The string that codes of a text spell has these codes. -/
theorem codes_spell {ns : List Nat} (h : AreCodes false ns) : codes (spell ns) = ns :=
  codesBehind_spellBehind false 0 ns h

theorem areCodes_replicate (afterHigh : Bool) (n : Nat) (ns : List Nat) :
    AreCodes afterHigh (List.replicate n mark.toNat ++ ns) ↔ AreCodes (afterHigh && n == 0) ns := by
  have itself (afterHigh : Bool) : IsCode afterHigh mark.toNat := by
    rw [IsCode, isHalf_mark]
    exact mark.valid
  induction n generalizing afterHigh with
  | zero => simp
  | succ n ih => simp [List.replicate_succ, AreCodes, itself, isHigh_mark, ih]

theorem areCodes_codesBehind (afterHigh : Bool) (marks : Nat) (s : List Char) :
    AreCodes afterHigh (codesBehind afterHigh marks s) := by
  induction s generalizing afterHigh marks with
  | nil => simpa [codesBehind, AreCodes] using areCodes_replicate afterHigh marks []
  | cons c rest ih =>
    have itself (afterHigh : Bool) : IsCode afterHigh c.toNat := by
      rw [IsCode, isHalf_toNat]
      exact c.valid
    have whole : isHigh c.toNat = false := by
      have := isHalf_toNat c
      simp_all [isHalf]
    rw [codesBehind]
    split
    case isTrue => exact ih ..
    case isFalse =>
      split
      case h_1 => simp [areCodes_replicate, AreCodes, itself, whole, ih]
      case h_2 n half =>
        split
        case h_2 => simp [areCodes_replicate, AreCodes, itself, whole, ih]
        case h_1 m read =>
          rw [areCodes_replicate]
          refine ⟨?_, ih ..⟩
          rw [IsCode, if_pos (half?_eq_some half).2]
          cases tight : afterHigh && isLow n with
          | false => simp_all [Bool.and_assoc, Bool.and_comm]
          | true =>
            rw [tight] at read
            simp only [readMarks, if_true, Prod.mk.injEq, beq_iff_eq] at read
            have : m ≠ 0 := by omega
            simp [this]

/-- The codes of a string are codes that a text can have. -/
theorem areCodes_codes (s : List Char) : AreCodes false (codes s) := areCodes_codesBehind false 0 s

theorem join_of_areCodes {afterHigh : Bool} {ns : List Nat} (h : AreCodes afterHigh ns) :
    join ns = ns := by
  fun_induction join ns generalizing afterHigh with
  | case1 | case2 => rfl
  | case3 a b rest pair =>
    obtain ⟨_, second, _⟩ := h
    simp_all [IsCode, isHalf]
  | case4 a b rest apart ih => rw [ih h.2]

/-- A text is made of its codes. -/
theorem ofCodes_codes (s : List Char) : ofCodes (codes s) = s := by
  rw [ofCodes, join_of_areCodes (areCodes_codes s), spell_codes]

end SceneLogic.Text
