/-
Written numbers read back.

The written form of a number is the shortest numeral that names it, laid out with a point or an
exponent.  Reading it gives the number again (`Number.read_text`), so different numbers have
different written forms, the two zeros apart (`Number.text_inj`).

* `Decimal.toNumber_mul_ten` — zeros at the end of the digits do not change what a numeral names;
* `names_shortest` — the shortest numeral names its count;
* `Number.decimal?_layout` — laid out in whichever way, a numeral is read as one that names the same;
* `Number.mem_text` — a written form holds letters, digits, points and signs only.
-/
import Mathlib.Tactic.Ring
import SceneLogic.Number.Reader
import SceneLogic.Number.Text
import SceneLogic.Proofs.Number.Rounding
namespace SceneLogic

attribute [local irreducible] quantaPerUnit quantaLimit

/-! ### Quotients in other terms -/

theorem nearestWhole_scale {k : Nat} (pos : 0 < k) (n w : Nat) :
    nearestWhole (k * n) (k * w) = nearestWhole n w := by
  have less : 2 * (k * (n % w)) < k * w ↔ 2 * (n % w) < w := by
    rw [Nat.mul_left_comm, Nat.mul_lt_mul_left pos]
  have tie : 2 * (k * (n % w)) = k * w ↔ 2 * (n % w) = w := by
    rw [Nat.mul_left_comm, Nat.mul_right_inj pos.ne']
  rw [nearestWhole, nearestWhole, Nat.mul_mod_mul_left, Nat.mul_div_mul_left _ _ pos]
  simp only [less, tie]

theorem roundQuotient_scale {k : Nat} (pos : 0 < k) (n d : Nat) :
    roundQuotient (k * n) (k * d) = roundQuotient n d := by
  rw [roundQuotient_eq, roundQuotient_eq, Nat.mul_div_mul_left _ _ pos, Nat.mul_assoc,
    nearestWhole_scale pos]

/-- Equal quotients are rounded to the same count. -/
theorem roundQuotient_congr {n d n' d' : Nat} (pos : 0 < d) (pos' : 0 < d')
    (same : n * d' = n' * d) : roundQuotient n d = roundQuotient n' d' :=
  calc roundQuotient n d
      = roundQuotient (d' * n) (d' * d) := (roundQuotient_scale pos' n d).symm
    _ = roundQuotient (d * n') (d * d') := by
        rw [Nat.mul_comm d' n, same, Nat.mul_comm n' d, Nat.mul_comm d' d]
    _ = roundQuotient n' d' := roundQuotient_scale pos n' d'

theorem Number.ofQuotient_congr (negative : Bool) {n d n' d' : Nat}
    (same : roundQuotient n d = roundQuotient n' d') :
    ofQuotient negative n d = ofQuotient negative n' d' := by
  simp only [ofQuotient, same]

/-- A negative quotient is the opposite of the positive one. -/
theorem Number.ofQuotient_true (n d : Nat) : ofQuotient true n d = (ofQuotient false n d).neg := by
  rw [ofQuotient, ofQuotient]
  split
  · by_cases zero : roundQuotient n d = 0
    · simp [zero, neg]
    · simp [zero, neg, Scalar.neg]
  · rfl

/-! ### What numerals name -/

namespace Decimal

theorem toNumber_true (d : Decimal) : d.toNumber true = (d.toNumber false).neg := by
  rw [toNumber, toNumber]
  split
  · exact Number.ofQuotient_true 0 1
  · split
    · rfl
    · split
      · exact Number.ofQuotient_true 0 1
      · exact Number.ofQuotient_true _ _

theorem length_toDigits_mul_ten {n : Nat} (pos : 0 < n) :
    (Nat.toDigits 10 (n * 10)).length = (Nat.toDigits 10 n).length + 1 := by
  have more := Nat.toDigits_append_toDigits (b := 10) (n := n) (d := 0) (by decide) pos (by decide)
  rw [Nat.add_zero, Nat.mul_comm] at more
  rw [← more, List.length_append, Nat.toDigits_zero]
  rfl

/-- A zero at the end of the digits is as good as one more in the exponent. -/
theorem toNumber_mul_ten (negative : Bool) (n : Nat) (e : Int) :
    (⟨n * 10, e⟩ : Decimal).toNumber negative = (⟨n, e + 1⟩ : Decimal).toNumber negative := by
  rcases Nat.eq_zero_or_pos n with rfl | pos
  · rw [toNumber, toNumber, if_pos (Nat.zero_mul 10), if_pos rfl]
  · have place : (⟨n * 10, e⟩ : Decimal).point = (⟨n, e + 1⟩ : Decimal).point := by
      simp only [point, length_toDigits_mul_ten pos]
      omega
    have value : (⟨n * 10, e⟩ : Decimal).num * quantaPerUnit * (⟨n, e + 1⟩ : Decimal).den =
        (⟨n, e + 1⟩ : Decimal).num * quantaPerUnit * (⟨n * 10, e⟩ : Decimal).den := by
      simp only [num, den, Nat.pow_eq]
      by_cases negative : e < 0
      · have up : (-e).toNat = (-(e + 1)).toNat + 1 := by omega
        have high : e.toNat = 0 ∧ (e + 1).toNat = 0 := by omega
        rw [up, high.1, high.2, Nat.pow_succ]
        ring
      · -- Both are whole numbers, and so the same.
        have up : (e + 1).toNat = e.toNat + 1 := by omega
        have low : (-e).toNat = 0 ∧ (-(e + 1)).toNat = 0 := by omega
        rw [up, low.1, low.2, Nat.pow_succ]
        ring
    have den_pos : ∀ d : Decimal, 0 < d.den := fun d => Nat.pow_pos (by decide)
    have some : n * 10 ≠ 0 := by omega
    simp only [toNumber, place, if_neg some, if_neg pos.ne']
    rw [Number.ofQuotient_congr negative (roundQuotient_congr (den_pos _) (den_pos _) value)]

theorem toNumber_mul_pow (negative : Bool) (n k : Nat) (e : Int) :
    (⟨n * 10 ^ k, e⟩ : Decimal).toNumber negative = (⟨n, e + k⟩ : Decimal).toNumber negative := by
  induction k generalizing e with
  | zero => simp
  | succ k ih =>
    have shift : e + 1 + k = e + (k + 1 : Nat) := by push_cast; ring
    rw [Nat.pow_succ, ← Nat.mul_assoc, toNumber_mul_ten, ih, shift]

theorem toNumber_dropZeros (negative : Bool) (d : Decimal) :
    d.dropZeros.toNumber negative = d.toNumber negative := by
  fun_induction dropZeros d with
  | case1 d h ih =>
    have back : d.digits / 10 * 10 = d.digits := Nat.div_mul_cancel (Nat.dvd_of_mod_eq_zero h.2)
    rw [ih, ← toNumber_mul_ten, back]
  | case2 d h => rfl

theorem toNumber_of_names {d : Decimal} {m : Nat} (names : d.names m) (pos : 0 < m) :
    ∃ x : Scalar, d.toNumber false = .scalar x ∧ x.quanta = m :=
  Number.eq_scalar_of_pos (beq_iff_eq.1 names) (by omega)

end Decimal

/-! ### The shortest numeral -/

namespace Shortest

theorem names_of_onGrid? {m : Nat} {e : Int} {d : Decimal} (found : onGrid? m e = some d) :
    d.names m := by
  rw [onGrid?] at found
  split at found
  · next low high =>
    split at found
    · cases found
      exact low
    · cases found
      exact high
  · next low _ =>
    cases found
    exact low
  · next _ high =>
    cases found
    exact high
  · cases found

theorem five_pow_pos (k : Nat) : 0 < 5 ^ k := Nat.pow_pos (by decide)

/-- The exact numeral, with a name for its large factor. -/
theorem exact_eq (m : Nat) : ∃ five, 5 ^ 1074 = five ∧ exact m = ⟨m * five, -1074⟩ :=
  ⟨_, rfl, exact.eq_1 m⟩

/-- The digits of a value, written out in full, stand within the range of numbers. -/
theorem point_exact {m : Nat} (rep : Representable m) (pos : 0 < m) :
    Decimal.leastPoint ≤ (exact m).point ∧ (exact m).point ≤ Decimal.greatestPoint := by
  have five_pos := five_pow_pos 1074
  obtain ⟨five, power, digits⟩ := exact_eq m
  rw [power] at five_pos
  have least : 10 ^ 744 ≤ five ∧ quantaLimit * five ≤ 10 ^ 1384 := by
    rw [← power]
    decide +kernel
  have low : ¬ (Nat.toDigits 10 (m * five)).length ≤ 744 := by
    rw [Nat.length_toDigits_le_iff (by decide) (by decide), Nat.not_lt]
    calc 10 ^ 744
        ≤ five := least.1
      _ ≤ m * five := Nat.le_mul_of_pos_left _ pos
  have high : (Nat.toDigits 10 (m * five)).length ≤ 1384 := by
    rw [Nat.length_toDigits_le_iff (by decide) (by decide)]
    calc m * five
        < quantaLimit * five := Nat.mul_lt_mul_of_pos_right rep.1 five_pos
      _ ≤ 10 ^ 1384 := least.2
  rw [digits, Decimal.point, Decimal.leastPoint, Decimal.greatestPoint]
  dsimp only
  omega

theorem names_exact {m : Nat} (rep : Representable m) (pos : 0 < m) : (exact m).names m := by
  obtain ⟨low, high⟩ := point_exact rep pos
  have five_pos := five_pow_pos 1074
  obtain ⟨five, power, digits⟩ := exact_eq m
  rw [power] at five_pos
  rw [digits] at low high ⊢
  have some : m * five ≠ 0 := (Nat.mul_pos pos five_pos).ne'
  -- Ten is two times five, so the fraction stands for a whole number of quanta.
  have value : (⟨m * five, -1074⟩ : Decimal).num * quantaPerUnit * 1 =
      m * (⟨m * five, -1074⟩ : Decimal).den := by
    have ten : 10 ^ 1074 = five * quantaPerUnit := by
      rw [← power]
      decide +kernel
    have places : (-1074 : Int).toNat = 0 ∧ (-(-1074) : Int).toNat = 1074 := by decide
    rw [Decimal.num, Decimal.den, places.1, places.2, Nat.pow_eq, Nat.pow_eq, ten, Nat.pow_zero,
      Nat.mul_one, Nat.mul_one, Nat.mul_assoc]
  have rounded : roundQuotient ((⟨m * five, -1074⟩ : Decimal).num * quantaPerUnit)
      (⟨m * five, -1074⟩ : Decimal).den = m := by
    have den_pos : 0 < (⟨m * five, -1074⟩ : Decimal).den := Nat.pow_pos (by decide)
    rw [roundQuotient_congr den_pos Nat.one_pos value]
    exact roundQuotient_one_of_precise rep.2
  have number : (⟨m * five, -1074⟩ : Decimal).toNumber false =
      .ofQuotient false ((⟨m * five, -1074⟩ : Decimal).num * quantaPerUnit)
        (⟨m * five, -1074⟩ : Decimal).den := by
    rw [Decimal.toNumber, if_neg some, if_neg (by omega), if_neg (by omega)]
  rw [Decimal.names, number, Number.quanta?_ofQuotient false (by rw [rounded]; exact rep.1),
    rounded]
  exact beq_self_eq_true _

end Shortest

/-- The shortest numeral names its count. -/
theorem names_shortest {m : Nat} (rep : Representable m) (pos : 0 < m) : (shortest m).names m := by
  rw [shortest, Decimal.names, Decimal.toNumber_dropZeros, ← Decimal.names]
  cases found : (List.range 17).findSome? fun (i : Nat) =>
      Shortest.onGrid? m (Shortest.point m - (i + 1)) with
  | none => exact Shortest.names_exact rep pos
  | some d =>
    obtain ⟨i, -, grid⟩ := List.exists_of_findSome?_eq_some found
    exact Shortest.names_of_onGrid? grid

namespace Number

/-! ### Numerals laid out -/

theorem wholeDigits?_toDigits (n : Nat) : wholeDigits? (Nat.toDigits 10 n) = some n := by
  have digits : (Nat.toDigits 10 n).all Char.isDigit :=
    List.all_eq_true.2 fun _ hc => Nat.isDigit_of_mem_toDigits (by decide) (by decide) hc
  rw [wholeDigits?, if_pos ⟨Nat.toDigits_ne_nil, digits⟩, ofDigits, Nat.ofDigitChars_ten_toDigits]

theorem exponent?_exponentText (e : Int) : exponent? (exponentText e) = some e := by
  rw [exponentText, exponent?, if_pos (Or.inl rfl)]
  by_cases negative : e < 0
  · have back : -(e.natAbs : Int) = e := by omega
    rw [if_pos negative]
    simp only [takeSign, wholeDigits?_toDigits]
    exact congrArg some back
  · have back : (e.natAbs : Int) = e := by omega
    rw [if_neg negative]
    simp only [takeSign, wholeDigits?_toDigits]
    exact congrArg some back

/-- What follows the digits of a numeral: nothing, or an exponent. -/
inductive IsTail : List Char → Int → Prop
  | none : IsTail [] 0
  | exponent (e : Int) : IsTail (exponentText e) e

section Reading

variable {whole fraction tail : List Char} {e : Int}

theorem IsTail.read (h : IsTail tail e) : exponent? tail = some e := by
  cases h with
  | none => rfl
  | exponent => exact exponent?_exponentText e

/-- No digit begins a tail. -/
theorem IsTail.starts (h : IsTail tail e) :
    tail.takeWhile Char.isDigit = [] ∧ tail.dropWhile Char.isDigit = tail := by
  cases h <;> exact ⟨rfl, rfl⟩

variable (whole) (fraction)
variable (digits : ∀ c ∈ whole, c.isDigit) (some : whole ≠ [])
include digits some

theorem decimal?_whole (h : IsTail tail e) :
    decimal? (whole ++ tail) = Option.some ⟨ofDigits whole, e⟩ := by
  obtain ⟨none, all⟩ := h.starts
  have plain : decimal? (whole ++ tail) =
      if whole = [] ∧ ([] : List Char) = [] then Option.none
      else (exponent? tail).map fun e => ⟨ofDigits (whole ++ []), e - (0 : Nat)⟩ := by
    rw [decimal?, List.takeWhile_append_of_pos digits, List.dropWhile_append_of_pos digits, none,
      all, List.append_nil whole]
    cases h <;> simp [exponentText]
  rw [plain, if_neg fun h => some h.1, h.read, Option.map_some, List.append_nil, Int.natCast_zero,
    Int.sub_zero]

theorem decimal?_point (digits' : ∀ c ∈ fraction, c.isDigit) (h : IsTail tail e) :
    decimal? (whole ++ '.' :: (fraction ++ tail)) =
      Option.some ⟨ofDigits (whole ++ fraction), e - fraction.length⟩ := by
  obtain ⟨none, all⟩ := h.starts
  have first : ('.' :: (fraction ++ tail)).takeWhile Char.isDigit = [] := rfl
  have second : ('.' :: (fraction ++ tail)).dropWhile Char.isDigit = '.' :: (fraction ++ tail) :=
    rfl
  rw [decimal?, List.takeWhile_append_of_pos digits, List.dropWhile_append_of_pos digits, first,
    second, List.append_nil]
  simp only [List.takeWhile_append_of_pos digits', List.dropWhile_append_of_pos digits', none, all,
    List.append_nil]
  rw [if_neg fun h => some h.1, h.read, Option.map_some]

end Reading

section Layout

variable {digits : List Char} (all : ∀ c ∈ digits, c.isDigit)

theorem isDigit_of_mem_replicate {n : Nat} {c : Char} (h : c ∈ List.replicate n '0') :
    c.isDigit := by
  rw [List.eq_of_mem_replicate h]
  rfl

include all

/-- Zeros fill the places up to the point. -/
theorem decimal?_filled (some : digits ≠ []) (zeros : Nat) :
    decimal? (digits ++ List.replicate zeros '0') =
      Option.some ⟨ofDigits digits * 10 ^ zeros, 0⟩ := by
  have value : ofDigits (digits ++ List.replicate zeros '0') = ofDigits digits * 10 ^ zeros := by
    rw [ofDigits, Nat.ofDigitChars_append, Nat.ofDigitChars_replicate_zero, Nat.mul_comm]
    rfl
  have read := decimal?_whole (digits ++ List.replicate zeros '0')
    (fun c hc => (List.mem_append.1 hc).elim (all c) isDigit_of_mem_replicate)
    (fun none => some (List.append_eq_nil_iff.1 none).1) .none
  rw [List.append_nil] at read
  rw [read, value]

/-- The point stands among the digits. -/
theorem decimal?_parted {n : Nat} (pos : 0 < n) (lt : n < digits.length) :
    decimal? (digits.take n ++ '.' :: digits.drop n) =
      Option.some ⟨ofDigits digits, n - digits.length⟩ := by
  have read := decimal?_point (digits.take n) (digits.drop n)
    (fun c hc => all c (List.mem_of_mem_take hc))
    (List.ne_nil_of_length_pos (by rw [List.length_take]; omega))
    (fun c hc => all c (List.mem_of_mem_drop hc)) .none
  have place : (0 : Int) - (digits.drop n).length = n - digits.length := by
    rw [List.length_drop]
    omega
  rw [List.append_nil, List.take_append_drop, place] at read
  exact read

/-- Zeros stand behind the point, which changes no digit's place. -/
theorem decimal?_behind (zeros : Nat) :
    decimal? ('0' :: '.' :: List.replicate zeros '0' ++ digits) =
      Option.some ⟨ofDigits digits, -zeros - digits.length⟩ := by
  have read := decimal?_point ['0'] (List.replicate zeros '0' ++ digits)
    (fun c hc => List.mem_singleton.1 hc ▸ rfl) (by simp)
    (fun c hc => (List.mem_append.1 hc).elim isDigit_of_mem_replicate (all c)) .none
  have value : ofDigits (['0'] ++ (List.replicate zeros '0' ++ digits)) = ofDigits digits := by
    have zero : Nat.ofDigitChars 10 ['0'] 0 = 0 := rfl
    rw [ofDigits, Nat.ofDigitChars_append, Nat.ofDigitChars_append, zero,
      Nat.ofDigitChars_replicate_zero, Nat.mul_zero]
    rfl
  have place : (0 : Int) - (List.replicate zeros '0' ++ digits).length =
      -zeros - digits.length := by
    rw [List.length_append, List.length_replicate]
    omega
  rw [List.append_nil, value, place] at read
  exact read

/-- One digit stands before the point, if there is one, and an exponent behind the others. -/
theorem decimal?_mantissa (some : digits ≠ []) (e : Int) :
    decimal? (mantissa digits ++ exponentText e) =
      Option.some ⟨ofDigits digits, e + 1 - digits.length⟩ := by
  cases digits with
  | nil => exact absurd rfl some
  | cons c rest =>
    have first : ∀ a ∈ [c], a.isDigit := fun a ha =>
      all a (List.mem_singleton.1 ha ▸ List.mem_cons_self)
    have place : e + 1 - (c :: rest).length = e - rest.length := by
      rw [List.length_cons]
      omega
    rw [place]
    cases rest with
    | nil =>
      have read := decimal?_whole [c] first (by simp) (.exponent e)
      rw [List.length_nil, Int.natCast_zero, Int.sub_zero]
      exact read
    | cons c' rest =>
      exact decimal?_point [c] (c' :: rest) first (by simp)
        (fun a ha => all a (List.mem_cons_of_mem _ ha)) (.exponent e)

/-- A numeral that is laid out is read as one that names the same. -/
theorem decimal?_layout (some : digits ≠ []) (point : Int) :
    ∃ d, decimal? (layout digits point) = Option.some d ∧ ∀ negative, d.toNumber negative =
      (⟨ofDigits digits, point - digits.length⟩ : Decimal).toNumber negative := by
  rw [layout]
  split
  · next h =>
    refine ⟨_, decimal?_filled all some _, fun negative => ?_⟩
    have place : (0 : Int) + (point.toNat - digits.length : Nat) = point - digits.length := by omega
    rw [Decimal.toNumber_mul_pow, place]
  · split
    · next h h' =>
      have place : (point.toNat : Int) - digits.length = point - digits.length := by omega
      refine ⟨_, decimal?_parted all (by omega) (by omega), fun negative => ?_⟩
      rw [place]
    · split
      · next h =>
        have place : -((-point).toNat : Int) - digits.length = point - digits.length := by omega
        refine ⟨_, decimal?_behind all _, fun negative => ?_⟩
        rw [place]
      · refine ⟨_, decimal?_mantissa all some _, fun negative => ?_⟩
        rw [Int.sub_add_cancel]

end Layout

/-! ### The characters of written numbers -/

/-- A character of a numeral. -/
def isNumeralChar (c : Char) : Bool := c.isDigit || c == '.' || c == 'e' || c == '+' || c == '-'

theorem isNumeralChar_of_isDigit {c : Char} (h : c.isDigit) : isNumeralChar c := by
  simp [isNumeralChar, h]

theorem mem_toDigits {n : Nat} {c : Char} (h : c ∈ Nat.toDigits 10 n) : isNumeralChar c :=
  isNumeralChar_of_isDigit (Nat.isDigit_of_mem_toDigits (by decide) (by decide) h)

theorem mem_exponentText {e : Int} {c : Char} (h : c ∈ exponentText e) : isNumeralChar c := by
  rw [exponentText, List.mem_cons, List.mem_cons] at h
  rcases h with rfl | rfl | h
  · rfl
  · split <;> rfl
  · exact mem_toDigits h

theorem mem_mantissa {digits : List Char} {c : Char} (h : c ∈ mantissa digits) :
    c ∈ digits ∨ c = '.' := by
  unfold mantissa at h
  split at h
  · exact Or.inl h
  · exact Or.inl h
  · simp only [List.mem_cons] at h ⊢
    tauto

theorem mem_layout {digits : List Char} (all : ∀ c ∈ digits, c.isDigit) {point : Int} {c : Char}
    (h : c ∈ layout digits point) : isNumeralChar c := by
  have digit : c ∈ digits → isNumeralChar c := fun h => isNumeralChar_of_isDigit (all c h)
  have zero : ∀ n, c ∈ List.replicate n '0' → isNumeralChar c := by
    intro n h
    rw [List.eq_of_mem_replicate h]
    rfl
  rw [layout] at h
  split at h
  · exact (List.mem_append.1 h).elim digit (zero _)
  · split at h
    · rcases List.mem_append.1 h with h | h
      · exact digit (List.mem_of_mem_take h)
      · rcases List.mem_cons.1 h with rfl | h
        · rfl
        · exact digit (List.mem_of_mem_drop h)
    · split at h
      · simp only [List.cons_append, List.mem_cons, List.mem_append] at h
        rcases h with rfl | rfl | h | h
        · rfl
        · rfl
        · exact zero _ h
        · exact digit h
      · rcases List.mem_append.1 h with h | h
        · rcases mem_mantissa h with h | rfl
          · exact digit h
          · rfl
        · exact mem_exponentText h

theorem mem_magnitudeText {m : Nat} {c : Char} (h : c ∈ magnitudeText m) : isNumeralChar c :=
  mem_layout (fun _ hc => Nat.isDigit_of_mem_toDigits (by decide) (by decide) hc) h

theorem mem_scalarText {x : Scalar} {c : Char} (h : c ∈ scalarText x) : isNumeralChar c := by
  rw [scalarText] at h
  split at h
  · rw [List.mem_singleton.1 h]
    rfl
  · split at h
    · rcases List.mem_cons.1 h with rfl | h
      · rfl
      · exact mem_magnitudeText h
    · exact mem_magnitudeText h

/-- A written number holds letters, digits, points and signs only. -/
theorem mem_text {x : Number} {c : Char} (h : c ∈ x.text.toList) :
    c.isAlphanum ∨ c = '.' ∨ c = '+' ∨ c = '-' := by
  have word : ∀ s : String, (s.toList.all fun c => c.isAlphanum || c == '-') → c ∈ s.toList →
      c.isAlphanum ∨ c = '.' ∨ c = '+' ∨ c = '-' := by
    intro s all mem
    have := List.all_eq_true.1 all c mem
    simp only [Bool.or_eq_true, beq_iff_eq] at this
    tauto
  cases x with
  | nan => exact word "NaN" (by decide) h
  | infinity negative =>
    cases negative
    · exact word "Infinity" (by decide) h
    · exact word "-Infinity" (by decide) h
  | negativeZero => exact word "0" (by decide) h
  | scalar x =>
    rw [text, String.toList_ofList] at h
    have := mem_scalarText h
    simp only [isNumeralChar, Bool.or_eq_true, beq_iff_eq] at this
    rcases this with (((digit | rfl) | rfl) | rfl) | rfl
    · simp [Char.isAlphanum, digit]
    all_goals decide

/-! ### Reading back -/

/-- The number, with one zero for both. -/
def unsigned : Number → Number
  | negativeZero => 0
  | x => x

theorem trimChars_of_forall {s : List Char} (h : ∀ c ∈ s, ¬ Text.isBlankChar c) :
    Text.trimChars s = s := by
  have keep : ∀ t : List Char, (∀ c ∈ t, ¬ Text.isBlankChar c) →
      t.dropWhile Text.isBlankChar = t := by
    intro t ht
    cases t with
    | nil => rfl
    | cons c t => exact List.dropWhile_cons_of_neg (ht c List.mem_cons_self)
  rw [Text.trimChars, keep s h, keep _ fun c hc => h c (List.mem_reverse.1 hc), List.reverse_reverse]

theorem not_isBlankChar_of_isNumeralChar {c : Char} (h : isNumeralChar c) :
    ¬ Text.isBlankChar c := by
  have range : 0x2B ≤ c.toNat ∧ c.toNat ≤ 0x65 := by
    simp only [isNumeralChar, Bool.or_eq_true, beq_iff_eq] at h
    rcases h with (((digit | rfl) | rfl) | rfl) | rfl
    · have range := Char.isDigit_iff_toNat.1 digit
      have ends : '0'.toNat = 48 ∧ '9'.toNat = 57 := ⟨rfl, rfl⟩
      omega
    all_goals decide
  simp only [Text.isBlankChar, Bool.or_eq_true, Bool.and_eq_true, decide_eq_true_eq, beq_iff_eq]
  omega

/-- A numeral is not taken for digits of another base. -/
theorem based?_eq_none {s : List Char} (h : ∀ c ∈ s, isNumeralChar c) : based? s = none := by
  unfold based?
  split
  · next c rest =>
    have second := h c (List.mem_cons_of_mem _ List.mem_cons_self)
    have none : baseOf? c = none := by
      rw [baseOf?, if_neg, if_neg, if_neg]
      all_goals
        rintro (rfl | rfl) <;> revert second <;> decide
    rw [none]
    rfl
  · rfl

theorem readChars_of_numeral {s : List Char} (h : ∀ c ∈ s, isNumeralChar c) (some : s ≠ [])
    {x : Number} (read : signed? s = Option.some x) : readChars s = x := by
  rw [readChars, trimChars_of_forall fun c hc => not_isBlankChar_of_isNumeralChar (h c hc)]
  cases s with
  | nil => exact absurd rfl some
  | cons c s =>
    dsimp only
    rw [based?_eq_none h, read]
    rfl

/-- What is read without a sign begins with none. -/
theorem signed?_of_decimal? {s : List Char} {d : Decimal} (read : decimal? s = some d) :
    signed? s = some (d.toNumber false) ∧ signed? ('-' :: s) = some (d.toNumber true) ∧ s ≠ [] := by
  have word : s ≠ "Infinity".toList := by
    rintro rfl
    cases read
  have unsigned : takeSign s = (false, s) := by
    unfold takeSign
    split
    · cases read
    · cases read
    · rfl
  refine ⟨?_, ?_, ?_⟩
  · rw [signed?, unsigned]
    dsimp only
    rw [if_neg word, read]
    rfl
  · rw [signed?]
    simp only [takeSign]
    rw [if_neg word, read]
    rfl
  · rintro rfl
    cases read

/-- A numeral that is written is read as one that names the same. -/
theorem decimal?_written (s : Decimal) :
    ∃ d, decimal? (layout (Nat.toDigits 10 s.digits) s.point) = some d ∧ ∀ negative,
      d.toNumber negative = s.toNumber negative := by
  have all : ∀ c ∈ Nat.toDigits 10 s.digits, c.isDigit := fun _ hc =>
    Nat.isDigit_of_mem_toDigits (by decide) (by decide) hc
  obtain ⟨d, read, names⟩ := decimal?_layout all Nat.toDigits_ne_nil s.point
  refine ⟨d, read, fun negative => ?_⟩
  have exponent : s.point - (Nat.toDigits 10 s.digits).length = s.exponent := by
    rw [Decimal.point]
    omega
  rw [names, exponent, ofDigits, Nat.ofDigitChars_ten_toDigits]

/-- The written form of a positive count is read as a numeral that names it. -/
theorem decimal?_magnitudeText {m : Nat} (rep : Representable m) (pos : 0 < m) :
    ∃ d, decimal? (magnitudeText m) = some d ∧
      ∃ x : Scalar, d.toNumber false = scalar x ∧ x.quanta = m := by
  obtain ⟨d, read, names⟩ := decimal?_written (shortest m)
  obtain ⟨x, number, quanta⟩ := Decimal.toNumber_of_names (names_shortest rep pos) pos
  exact ⟨d, read, x, (names false).trans number, quanta⟩

theorem zero_eq_scalar {x : Scalar} (zero : x.quanta = 0) : (0 : Number) = scalar x := by
  have exact := ofNat_eq_scalar (n := 0) (Nat.zero_le _)
  refine exact.trans (congrArg scalar (Scalar.ext ?_))
  rw [zero]
  show ((0 * quantaPerUnit : Nat) : Int) = 0
  rw [Nat.zero_mul]
  rfl

theorem text_zero : (0 : Number).text = "0" := by
  rw [zero_eq_scalar (x := 0) rfl]
  rfl

theorem read_zero : read "0" = 0 := by
  decide +kernel

theorem read_text_scalar (x : Scalar) : read (scalar x).text = scalar x := by
  have chars : (scalar x).text.toList = scalarText x := String.toList_ofList
  rw [read, chars]
  rcases Int.lt_trichotomy x.quanta 0 with negative | zero | positive
  · obtain ⟨d, found, y, number, quanta⟩ :=
      decimal?_magnitudeText x.representable (by omega)
    have written : scalarText x = '-' :: magnitudeText x.quanta.natAbs := by
      rw [scalarText, if_neg (by omega), if_pos negative]
    have same : d.toNumber true = scalar x := by
      rw [Decimal.toNumber_true, number, neg, if_neg (by omega)]
      refine congrArg scalar (Scalar.ext ?_)
      show -y.quanta = x.quanta
      omega
    refine readChars_of_numeral (fun _ => mem_scalarText) (by rw [written]; simp) ?_
    rw [written, (signed?_of_decimal? found).2.1, same]
  · have written : scalarText x = ['0'] := by
      rw [scalarText, if_pos zero]
    rw [written, ← zero_eq_scalar zero]
    exact read_zero
  · obtain ⟨d, found, y, number, quanta⟩ :=
      decimal?_magnitudeText x.representable (by omega)
    have written : scalarText x = magnitudeText x.quanta.natAbs := by
      rw [scalarText, if_neg (by omega), if_neg (by omega)]
    have same : d.toNumber false = scalar x := by
      rw [number]
      refine congrArg scalar (Scalar.ext ?_)
      omega
    obtain ⟨read, -, some⟩ := signed?_of_decimal? found
    refine readChars_of_numeral (fun _ => mem_scalarText) (by rw [written]; exact some) ?_
    rw [written, read, same]

/-- **A written number reads back**, with one zero for both. -/
theorem read_text (x : Number) : read x.text = x.unsigned := by
  cases x with
  | nan => decide +kernel
  | infinity negative => cases negative <;> decide +kernel
  | negativeZero => decide +kernel
  | scalar x => exact read_text_scalar x

/-- The sign of zero is not written. -/
theorem text_unsigned (x : Number) : x.unsigned.text = x.text := by
  cases x with
  | negativeZero => exact text_zero
  | _ => rfl

theorem unsigned_zero : unsigned 0 = 0 := by
  rw [← read_text, text_zero, read_zero]

/-- Numbers have the same written form only if they are the same, the two zeros apart. -/
theorem text_inj {x y : Number} : x.text = y.text ↔ x.unsigned = y.unsigned := by
  constructor
  · intro h
    rw [← read_text, h, read_text]
  · intro h
    rw [← text_unsigned, h, text_unsigned]

theorem text_ne_empty (x : Number) : x.text.toList ≠ [] := by
  intro none
  have empty : x.text = "" := String.toList_inj.1 none
  have zero : x.unsigned = 0 := by
    rw [← read_text, empty]
    rfl
  have digit : x.text = (0 : Number).text := text_inj.2 (zero.trans unsigned_zero.symm)
  rw [empty, text_zero] at digit
  exact absurd digit (by decide)

end Number

end SceneLogic
