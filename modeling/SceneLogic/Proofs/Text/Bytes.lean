/-
Texts come back from their bytes.

The bytes of a code are told apart by their leading bits, so they are read as the units of that code,
whatever follows them (`units_codeBytes`).  Joining the units gives the codes back (`join_units`): a
pair makes its character, and halves that stand next to each other are not a pair, since no text
holds a high half right before a low one.  So decoding undoes encoding (`decode_encode`).
-/
import SceneLogic.Text.Bytes
namespace SceneLogic.Text

/-! ### Bytes of a code -/

/-- A byte comes back from the character of the same code. -/
theorem charByte_ofNat (b : UInt8) : charByte (Char.ofNat b.toNat) = b := by
  rw [charByte, toNat_ofNat (.inl (by have := b.toNat_lt; omega))]
  exact UInt8.ofNat_toNat

/-- What the bytes behind the first byte of a character add. -/
theorem continuation (n k : Nat) (h : k < 64) :
    isContinuation (0x80 + k).toUInt8 ∧ addBits n (0x80 + k).toUInt8 = n * 64 + k := by
  have all : ∀ k < 64, isContinuation (0x80 + k).toUInt8 ∧
      ((0x80 + k).toUInt8 &&& 0x3F).toNat = k := by decide
  obtain ⟨inside, bits⟩ := all k h
  exact ⟨inside, by rw [addBits, bits]⟩

theorem ascii_byte : ∀ n < 0x80, n.toUInt8 < 0x80 ∧ n.toUInt8.toNat = n := by decide

/-- The first byte of two. -/
theorem first_of_two : ∀ k < 32, 2 ≤ k → let b := (0xC0 + k).toUInt8
    ¬ b < 0x80 ∧ (b < 0xC2 || 0xF4 < b) = false ∧ b ≤ 0xDF ∧ (b &&& 0x1F).toNat = k := by
  decide

/-- The first byte of three. -/
theorem first_of_three : ∀ k < 16, let b := (0xE0 + k).toUInt8
    ¬ b < 0x80 ∧ (b < 0xC2 || 0xF4 < b) = false ∧ ¬ b ≤ 0xDF ∧ b ≤ 0xEF ∧
      (b &&& 0x0F).toNat = k := by
  decide

/-- The first byte of four. -/
theorem first_of_four : ∀ k < 5, let b := (0xF0 + k).toUInt8
    ¬ b < 0x80 ∧ (b < 0xC2 || 0xF4 < b) = false ∧ ¬ b ≤ 0xDF ∧ ¬ b ≤ 0xEF ∧
      (b &&& 0x07).toNat = k := by
  decide

theorem fourByteUnits_eq {n : Nat} (h : 0x10000 ≤ n) : fourByteUnits n = unitsOf n := by
  have beyond : (n : Int) - 0x10000 = ((n - 0x10000 : Nat) : Int) := by omega
  rw [fourByteUnits, unitsOf, if_neg (by omega), beyond]
  simp only [List.cons.injEq, and_true, Int.tmod_eq_emod_of_nonneg (Int.natCast_nonneg _)]
  constructor <;> omega

/-- The bytes of a code spell its units, whatever follows. -/
theorem units_codeBytes {n : Nat} (h : n ≤ 0x10FFFF) (rest : List UInt8) :
    units (codeBytes n ++ rest) = unitsOf n ++ units rest := by
  rw [codeBytes]
  split
  case isTrue ascii =>
    obtain ⟨first, code⟩ := ascii_byte n ascii
    rw [List.singleton_append, units, decodeFrom.eq_def, if_pos first, code, unitsOf, if_pos (by omega)]
  case isFalse =>
    split
    case isTrue two =>
      obtain ⟨ascii, range, first, bits⟩ := first_of_two (n / 64) (by omega) (by omega)
      obtain ⟨inside, add⟩ := continuation (n / 64) (n % 64) (by omega)
      rw [List.cons_append, List.singleton_append, units, decodeFrom, if_neg ascii, range,
        if_neg Bool.false_ne_true, if_pos first]
      simp only [inside, if_true, bits, add]
      rw [unitsOf, if_pos (by omega), Nat.div_add_mod']
    case isFalse =>
      split
      case isTrue three =>
        obtain ⟨ascii, range, two, first, bits⟩ := first_of_three (n / 4096) (by omega)
        obtain ⟨inside, add⟩ := continuation (n / 4096) (n / 64 % 64) (by omega)
        obtain ⟨inside', add'⟩ :=
          continuation (n / 4096 * 64 + n / 64 % 64) (n % 64) (by omega)
        rw [List.cons_append, List.cons_append, List.singleton_append, units, decodeFrom,
          if_neg ascii, range, if_neg Bool.false_ne_true, if_neg two, if_pos first]
        simp only [inside, inside', Bool.not_true, Bool.false_eq_true, if_false, bits, add, add']
        rw [unitsOf, if_pos (by omega)]
        have code : (n / 4096 * 64 + n / 64 % 64) * 64 + n % 64 = n := by omega
        rw [code]
      case isFalse four =>
        obtain ⟨ascii, range, two, three, bits⟩ := first_of_four (n / 262144) (by omega)
        obtain ⟨inside, add⟩ := continuation (n / 262144) (n / 4096 % 64) (by omega)
        obtain ⟨inside', add'⟩ :=
          continuation (n / 262144 * 64 + n / 4096 % 64) (n / 64 % 64) (by omega)
        obtain ⟨inside'', add''⟩ :=
          continuation ((n / 262144 * 64 + n / 4096 % 64) * 64 + n / 64 % 64) (n % 64) (by omega)
        rw [List.cons_append, List.cons_append, List.cons_append, List.singleton_append, units,
          decodeFrom, if_neg ascii, range, if_neg Bool.false_ne_true, if_neg two, if_neg three]
        simp only [inside, inside', inside'', Bool.not_true, Bool.false_eq_true, if_false, bits,
          add, add', add'']
        have code :
            ((n / 262144 * 64 + n / 4096 % 64) * 64 + n / 64 % 64) * 64 + n % 64 = n := by omega
        rw [code, fourByteUnits_eq (by omega)]

/-- The bytes of a code beyond ASCII are beyond ASCII. -/
theorem le_of_mem_codeBytes {n : Nat} (beyond : 0x80 ≤ n) (h : n ≤ 0x10FFFF) :
    ∀ b ∈ codeBytes n, 0x80 ≤ b := by
  have byte : ∀ k, 0x80 ≤ k → k < 0x100 → 0x80 ≤ k.toUInt8 := by
    intro k ge lt
    rw [UInt8.le_iff_toNat_le, Nat.toUInt8_eq, UInt8.toNat_ofNat', Nat.mod_eq_of_lt lt]
    exact ge
  rw [codeBytes, if_neg (by omega)]
  split
  · simp only [List.forall_mem_cons]
    exact ⟨byte _ (by omega) (by omega), byte _ (by omega) (by omega), List.forall_mem_nil _⟩
  · split
    · simp only [List.forall_mem_cons]
      exact ⟨byte _ (by omega) (by omega), byte _ (by omega) (by omega),
        byte _ (by omega) (by omega), List.forall_mem_nil _⟩
    · simp only [List.forall_mem_cons]
      exact ⟨byte _ (by omega) (by omega), byte _ (by omega) (by omega),
        byte _ (by omega) (by omega), byte _ (by omega) (by omega), List.forall_mem_nil _⟩

/-! ### Units of a text -/

theorem IsCode.le {afterHigh : Bool} {n : Nat} (h : IsCode afterHigh n) : n ≤ 0x10FFFF := by
  rw [IsCode] at h
  split at h
  case isTrue half =>
    simp only [isHalf, isHigh, isLow, Bool.or_eq_true, Bool.and_eq_true, decide_eq_true_eq] at half
    omega
  case isFalse =>
    unfold Nat.isValidChar at h
    omega

theorem AreCodes.le {afterHigh : Bool} {ns : List Nat} (h : AreCodes afterHigh ns) :
    ∀ n ∈ ns, n ≤ 0x10FFFF := by
  induction ns generalizing afterHigh with
  | nil => exact List.forall_mem_nil _
  | cons n rest ih => exact List.forall_mem_cons.2 ⟨h.1.le, ih h.2⟩

/-- The units that the bytes of codes spell are those of the codes. -/
theorem units_flatMap_codeBytes {ns : List Nat} (h : ∀ n ∈ ns, n ≤ 0x10FFFF) :
    units (ns.flatMap codeBytes) = ns.flatMap unitsOf := by
  induction ns with
  | nil => rw [List.flatMap_nil, units, List.flatMap_nil]
  | cons n rest ih =>
    obtain ⟨first, others⟩ := List.forall_mem_cons.1 h
    rw [List.flatMap_cons, List.flatMap_cons, units_codeBytes first, ih others]

/-- A unit that makes no pair with the next one stays. -/
theorem join_cons {n : Nat} {rest : List Nat}
    (apart : isHigh n → ∀ m ∈ rest.head?, isLow m = false) : join (n :: rest) = n :: join rest := by
  cases rest with
  | nil => rfl
  | cons m rest =>
    rw [join, if_neg]
    intro pair
    rw [Bool.and_eq_true] at pair
    have := apart pair.1 m rfl
    simp [pair.2] at this

/-- Behind a high half no text goes on with a low one. -/
theorem isLow_head_units {ns : List Nat} (h : AreCodes true ns) :
    ∀ m ∈ (ns.flatMap unitsOf).head?, isLow m = false := by
  intro m first
  cases ns with
  | nil => cases first
  | cons n rest =>
    have code := h.1
    rw [List.flatMap_cons, unitsOf] at first
    split at first
    · cases first
      rw [IsCode] at code
      split at code
      · simpa using code
      · simp_all [isHalf]
    · cases first
      have := code.le
      simp only [isLow, Bool.and_eq_false_iff, decide_eq_false_iff_not]
      omega

theorem ofPair_unitsOf {n : Nat} (h : 0x10000 ≤ n) (le : n ≤ 0x10FFFF) :
    ∃ high low, unitsOf n = [high, low] ∧ isHigh high ∧ isLow low ∧ ofPair high low = n := by
  refine ⟨_, _, by rw [unitsOf, if_neg (by omega)], ?_, ?_, ?_⟩
  · simp only [isHigh, Bool.and_eq_true, decide_eq_true_eq]
    omega
  · simp only [isLow, Bool.and_eq_true, decide_eq_true_eq]
    omega
  · unfold ofPair
    omega

/-- Joining the units of codes gives the codes back. -/
theorem join_units {afterHigh : Bool} {ns : List Nat} (h : AreCodes afterHigh ns) :
    join (ns.flatMap unitsOf) = ns := by
  induction ns generalizing afterHigh with
  | nil => rfl
  | cons n rest ih =>
    rw [List.flatMap_cons]
    by_cases pair : 0x10000 ≤ n
    · obtain ⟨high, low, units, isHigh, isLow, code⟩ := ofPair_unitsOf pair h.1.le
      rw [units, List.cons_append, List.singleton_append, join, if_pos (by simp [isHigh, isLow]),
        code, ih h.2]
    · rw [unitsOf, if_pos (by omega), List.singleton_append, join_cons, ih h.2]
      intro high
      exact isLow_head_units (high ▸ h.2)

/-- **Decoding undoes encoding.** -/
theorem decode_encode (s : List Char) : decode (encode s) = s := by
  have text := areCodes_codes s
  calc decode (encode s) = spell (join (units ((codes s).flatMap codeBytes))) := rfl
    _ = spell (join ((codes s).flatMap unitsOf)) := by rw [units_flatMap_codeBytes text.le]
    _ = spell (codes s) := by rw [join_units text]
    _ = s := spell_codes s

end SceneLogic.Text
