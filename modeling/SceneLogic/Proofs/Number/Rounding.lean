/-
Rounding is monotone and keeps what needs no rounding.

* `roundQuotient_mono` — a greater numerator never gives a smaller result: on one grid because the
  nearest whole number is monotone (`nearestWhole_mono`), across grids because a power of two lies
  between the results;
* `roundQuotient_one_of_precise` — a count with at most 53 significant digits is left alone;
* `Number.ofNat_eq_scalar`, `Number.ofNat_add_one` — up to 2⁵³ whole numbers are not rounded, and
  counting by ones is exact;
* `Number.rank_ofQuotient`, `Number.rank_ofQuotient_div` — the place of a rounded quotient in the
  order, and of one that is divided once more, as a magnitude with a sign.

The quanta of a unit are a number of a thousand bits; they are kept closed here, so that no step
computes with them.
-/
import Mathlib.Algebra.Order.Ring.Int
import Mathlib.Tactic.Linarith
import SceneLogic.Number.Basic
namespace SceneLogic

attribute [local irreducible] quantaPerUnit quantaLimit

/-- The whole number nearest to `n / w`; of two equally near ones the even one. -/
def nearestWhole (n w : Nat) : Nat :=
  if 2 * (n % w) < w ∨ (2 * (n % w) = w ∧ n / w % 2 = 0) then n / w else n / w + 1

theorem roundQuotient_eq (n d : Nat) :
    roundQuotient n d =
      nearestWhole n (d * 2 ^ lastPlace (n / d)) * 2 ^ lastPlace (n / d) := by
  simp only [roundQuotient, nearestWhole, Nat.pow_eq]
  split <;> rfl

theorem le_nearestWhole (n w : Nat) : n / w ≤ nearestWhole n w := by
  rw [nearestWhole]
  split
  · exact Nat.le_refl _
  · exact Nat.le_succ _

theorem nearestWhole_le (n w : Nat) : nearestWhole n w ≤ n / w + 1 := by
  rw [nearestWhole]
  split
  · exact Nat.le_succ _
  · exact Nat.le_refl _

theorem nearestWhole_mul (k : Nat) {w : Nat} (pos : 0 < w) : nearestWhole (k * w) w = k := by
  rw [nearestWhole, Nat.mul_mod_left, Nat.mul_div_cancel k pos, if_pos (Or.inl (by omega))]

theorem nearestWhole_mono {n m : Nat} (w : Nat) (le : n ≤ m) :
    nearestWhole n w ≤ nearestWhole m w := by
  have floors : n / w ≤ m / w := Nat.div_le_div_right le
  rcases Nat.lt_or_eq_of_le floors with lt | same
  · exact (nearestWhole_le n w).trans (Nat.le_trans lt (le_nearestWhole m w))
  · -- Between the same two whole numbers, the decision to go up is monotone in the rest.
    have rests : n % w ≤ m % w := by
      have hn := Nat.div_add_mod n w
      have hm := Nat.div_add_mod m w
      rw [← same] at hm
      omega
    unfold nearestWhole
    rw [← same]
    split
    · split <;> omega
    · rw [if_neg (by omega)]

theorem lastPlace_mono {p q : Nat} (le : p ≤ q) : lastPlace p ≤ lastPlace q := by
  unfold lastPlace
  have : p.log2 ≤ q.log2 := by
    rcases Nat.eq_zero_or_pos p with rfl | pos
    · simp
    · exact (Nat.le_log2 (by omega)).2 ((Nat.log2_self_le (by omega)).trans le)
  omega

theorem roundQuotient_mono {n m : Nat} (d : Nat) (le : n ≤ m) :
    roundQuotient n d ≤ roundQuotient m d := by
  have floors : n / d ≤ m / d := Nat.div_le_div_right le
  rw [roundQuotient_eq, roundQuotient_eq]
  rcases Nat.lt_or_eq_of_le (lastPlace_mono floors) with lt | same
  · -- `m` has more digits, so a power of two lies between the two results.
    have low : nearestWhole n (d * 2 ^ lastPlace (n / d)) * 2 ^ lastPlace (n / d) ≤
        2 ^ (53 + lastPlace (n / d)) := by
      have below : n / (d * 2 ^ lastPlace (n / d)) < 2 ^ 53 := by
        rw [← Nat.div_div_eq_div_mul]
        exact div_step_lt _
      rw [Nat.pow_add]
      exact Nat.mul_le_mul_right _ ((nearestWhole_le _ _).trans below)
    have high : 2 ^ (52 + lastPlace (m / d)) ≤
        nearestWhole m (d * 2 ^ lastPlace (m / d)) * 2 ^ lastPlace (m / d) := by
      rw [Nat.pow_add]
      refine Nat.mul_le_mul_right _ (Nat.le_trans ?_ (le_nearestWhole _ _))
      rw [← Nat.div_div_eq_div_mul, Nat.le_div_iff_mul_le (Nat.two_pow_pos _), ← Nat.pow_add]
      have digits : 52 + lastPlace (m / d) = (m / d).log2 := by
        unfold lastPlace at lt ⊢
        omega
      rw [digits]
      refine Nat.log2_self_le fun zero => ?_
      rw [zero] at digits
      simp [lastPlace] at digits
    exact low.trans ((Nat.pow_le_pow_right (by decide) (by omega)).trans high)
  · rw [← same]
    exact Nat.mul_le_mul_right _ (nearestWhole_mono _ le)

@[simp] theorem roundQuotient_zero (d : Nat) : roundQuotient 0 d = 0 := by
  simp [roundQuotient]

/-- A count on its own grid is rounded to itself. -/
theorem roundQuotient_one_of_dvd {m : Nat} (grid : 2 ^ lastPlace m ∣ m) :
    roundQuotient m 1 = m := by
  obtain ⟨k, hk⟩ := grid
  rw [Nat.mul_comm] at hk
  rw [roundQuotient_eq, Nat.div_one, Nat.one_mul]
  calc nearestWhole m (2 ^ lastPlace m) * 2 ^ lastPlace m
      = nearestWhole (k * 2 ^ lastPlace m) (2 ^ lastPlace m) * 2 ^ lastPlace m := by rw [← hk]
    _ = m := by rw [nearestWhole_mul _ (Nat.two_pow_pos _), ← hk]

theorem roundQuotient_one_of_precise {m : Nat} (precise : Precise m) : roundQuotient m 1 = m := by
  obtain ⟨t, s, rfl, small⟩ := precise
  rw [Nat.pow_eq] at small ⊢
  refine roundQuotient_one_of_dvd ((Nat.pow_dvd_pow 2 ?_).trans (Nat.dvd_mul_left _ _))
  rcases Nat.eq_zero_or_pos t with rfl | pos
  · simp [lastPlace]
  · -- With at most `53 + s` digits the last place lies within the `s` zeros.
    have digits : (t * 2 ^ s).log2 < 53 + s := by
      rw [Nat.log2_lt (Nat.mul_ne_zero (by omega) (Nat.two_pow_pos s).ne'), Nat.pow_add]
      exact Nat.mul_lt_mul_of_pos_right small (Nat.two_pow_pos s)
    rw [lastPlace]
    omega

theorem two_pow_dvd_quantaPerUnit {s : Nat} (le : s ≤ 1074) : 2 ^ s ∣ quantaPerUnit := by
  rw [quantaPerUnit]
  apply Nat.pow_dvd_pow
  exact le

theorem quantaPerUnit_dvd_two_pow {s : Nat} (le : 1074 ≤ s) : quantaPerUnit ∣ 2 ^ s := by
  rw [quantaPerUnit]
  apply Nat.pow_dvd_pow
  exact le

theorem quantaPerUnit_pos : 0 < quantaPerUnit := by
  rw [quantaPerUnit]
  exact Nat.two_pow_pos 1074

theorem natCast_quantaPerUnit_pos : (0 : Int) < quantaPerUnit := by
  exact_mod_cast quantaPerUnit_pos

/-- Rounding a whole number of units leaves a whole number of units. -/
theorem quantaPerUnit_dvd_roundQuotient (k : Nat) :
    quantaPerUnit ∣ roundQuotient (k * quantaPerUnit) 1 := by
  rcases Nat.le_total (lastPlace (k * quantaPerUnit)) 1074 with fine | coarse
  · -- On a grid no coarser than the units nothing is rounded; a coarser one consists of units.
    have grid : 2 ^ lastPlace (k * quantaPerUnit) ∣ k * quantaPerUnit :=
      (two_pow_dvd_quantaPerUnit fine).trans (Nat.dvd_mul_left _ _)
    rw [roundQuotient_one_of_dvd grid]
    exact Nat.dvd_mul_left _ _
  · rw [roundQuotient_eq, Nat.div_one]
    exact (quantaPerUnit_dvd_two_pow coarse).trans (Nat.dvd_mul_left _ _)

/-- A finite value is known from its quanta. -/
theorem Scalar.ext {x y : Scalar} (same : x.quanta = y.quanta) : x = y := by
  cases x
  cases y
  cases same
  rfl

/-! ### Ranks -/

/-- A magnitude with its sign. -/
def signedRank (negative : Bool) (n : Nat) : Int := if negative then -n else n

theorem signedRank_mono {g : Nat → Nat} (mono : ∀ m n, m ≤ n → g m ≤ g n) {j k : Int} (le : j ≤ k) :
    signedRank (decide (j < 0)) (g j.natAbs) ≤ signedRank (decide (k < 0)) (g k.natAbs) := by
  unfold signedRank
  by_cases hj : j < 0
  · by_cases hk : k < 0
    · -- Of two numbers below zero the lesser has the greater magnitude.
      have := mono k.natAbs j.natAbs (by omega)
      simp only [hj, hk, decide_true, if_true]
      omega
    · simp only [hj, hk, decide_true, decide_false, if_true, Bool.false_eq_true, if_false]
      omega
  · have hk : ¬ k < 0 := by omega
    have := mono j.natAbs k.natAbs (by omega)
    simp only [hj, hk, decide_false, Bool.false_eq_true, if_false]
    omega

/-- The magnitude of the rank of a rounded quotient. -/
def rankOfQuotient (n d : Nat) : Nat := min (roundQuotient n d) quantaLimit

theorem rankOfQuotient_mono {n m : Nat} (d : Nat) (le : n ≤ m) :
    rankOfQuotient n d ≤ rankOfQuotient m d := by
  have := roundQuotient_mono d le
  unfold rankOfQuotient
  omega

namespace Number

theorem rank_ofQuotient (negative : Bool) (n d : Nat) :
    (ofQuotient negative n d).rank = some (signedRank negative (rankOfQuotient n d)) := by
  rw [ofQuotient, rankOfQuotient, signedRank]
  split
  · next h =>
    rw [Nat.min_eq_left (Nat.le_of_lt h)]
    cases negative
    · rfl
    · by_cases zero : roundQuotient n d = 0
      · simp [zero, rank]
      · simp [zero, rank]
  · next h =>
    rw [Nat.min_eq_right (by omega)]
    cases negative <;> rfl

/-! ### Exact counts -/

theorem precise_mul_two_pow {n : Nat} (s : Nat) (le : n ≤ 2 ^ 53) : Precise (n * 2 ^ s) := by
  rcases Nat.lt_or_eq_of_le le with lt | rfl
  · exact ⟨n, s, rfl, lt⟩
  · exact ⟨1, 53 + s, by rw [Nat.pow_eq, Nat.one_mul, Nat.pow_add], by decide⟩

theorem mul_two_pow_lt {n s k : Nat} (le : n ≤ 2 ^ 53) (room : 53 + s < k) :
    n * 2 ^ s < 2 ^ k :=
  calc n * 2 ^ s
      ≤ 2 ^ 53 * 2 ^ s := Nat.mul_le_mul_right _ le
    _ = 2 ^ (53 + s) := (Nat.pow_add 2 53 s).symm
    _ < 2 ^ k := Nat.pow_lt_pow_right (by decide) room

theorem representable_mul_quantaPerUnit {n : Nat} (le : n ≤ 2 ^ 53) :
    Representable (n * quantaPerUnit) := by
  rw [Representable, quantaLimit, quantaPerUnit]
  constructor
  · apply mul_two_pow_lt le
    decide
  · apply precise_mul_two_pow
    exact le

/-- A count that a finite value can have is rounded to itself. -/
theorem ofQuanta_of_representable {q : Int} (h : Representable q.natAbs) :
    ofQuanta q = scalar ⟨q, h⟩ := by
  have self : roundQuotient q.natAbs 1 = q.natAbs := roundQuotient_one_of_precise h.2
  have finite : roundQuotient q.natAbs 1 < quantaLimit := self.symm ▸ h.1
  rw [ofQuanta, ofQuotient, dif_pos finite]
  simp only [self]
  by_cases negative : q < 0
  · have nonzero : q.natAbs ≠ 0 := by omega
    have back : -(q.natAbs : Int) = q := by omega
    simp only [negative, decide_true, if_true, nonzero, if_false, back]
  · have back : (q.natAbs : Int) = q := by omega
    simp only [negative, decide_false, Bool.false_eq_true, if_false, back]

/-- Up to 2⁵³ units are counted exactly. -/
theorem ofNat_eq_scalar {n : Nat} (le : n ≤ 2 ^ 53) :
    ofNat n = scalar ⟨(n * quantaPerUnit : Nat), representable_mul_quantaPerUnit le⟩ := by
  have cast : (n : Int) * (quantaPerUnit : Int) = (n * quantaPerUnit : Nat) := by push_cast; rfl
  rw [ofNat, ofInt, cast]
  apply ofQuanta_of_representable

theorem rank_ofNat {n : Nat} (le : n ≤ 2 ^ 53) :
    (ofNat n).rank = some ((n * quantaPerUnit : Nat) : Int) := by
  rw [ofNat_eq_scalar le]
  rfl

theorem rank_zero : (0 : Number).rank = some 0 := by
  have := rank_ofNat (n := 0) (Nat.zero_le _)
  rw [Nat.zero_mul] at this
  exact this

/-- Up to 2⁵³ the next number is one more. -/
theorem ofNat_add_one {n : Nat} (lt : n < 2 ^ 53) : (ofNat n).add 1 = ofNat (n + 1) := by
  have one : (1 : Number) = ofNat 1 := rfl
  rw [one, ofNat_eq_scalar (Nat.le_of_lt lt), ofNat_eq_scalar (by decide)]
  show ofQuanta (((n * quantaPerUnit : Nat) : Int) + ((1 * quantaPerUnit : Nat) : Int)) = _
  rw [ofNat, ofInt]
  congr 1
  push_cast
  rw [Int.add_mul]

theorem ofNat_inj {m n : Nat} (hm : m ≤ 2 ^ 53) (hn : n ≤ 2 ^ 53) (h : ofNat m = ofNat n) :
    m = n := by
  have ranks := congrArg rank h
  rw [rank_ofNat hm, rank_ofNat hn] at ranks
  have equal : m * quantaPerUnit = n * quantaPerUnit := Int.ofNat_inj.1 (Option.some_inj.1 ranks)
  exact Nat.eq_of_mul_eq_mul_right quantaPerUnit_pos equal

theorem one_eq_scalar : ∃ x : Scalar, (1 : Number) = scalar x ∧
    x.quanta = (quantaPerUnit : Int) := by
  refine ⟨_, ofNat_eq_scalar (by decide), ?_⟩
  show ((1 * quantaPerUnit : Nat) : Int) = _
  rw [Nat.one_mul]

theorem rank_one : (1 : Number).rank = some (quantaPerUnit : Int) := by
  obtain ⟨x, one, quanta⟩ := one_eq_scalar
  rw [one, ← quanta]
  rfl

theorem neg_one_eq_scalar : ∃ x : Scalar, (-1 : Number) = scalar x ∧
    x.quanta = -(quantaPerUnit : Int) := by
  obtain ⟨x, one, quanta⟩ := one_eq_scalar
  have positive : ¬ x.quanta = 0 := by
    rw [quanta]
    exact natCast_quantaPerUnit_pos.ne'
  refine ⟨x.neg, ?_, ?_⟩
  · show neg 1 = _
    rw [one, neg]
    exact if_neg positive
  · show -x.quanta = _
    rw [quanta]

/-! ### Comparing by rank -/

/-- A number with quanta above zero is not the other zero. -/
theorem eq_scalar_of_pos {a : Number} {q : Int} (h : a.quanta? = some q) (pos : 0 < q) :
    ∃ x : Scalar, a = scalar x ∧ x.quanta = q := by
  cases a with
  | nan => cases h
  | infinity negative => cases h
  | negativeZero =>
    rw [← Option.some_inj.1 h] at pos
    exact absurd pos (Int.lt_irrefl 0)
  | scalar x => exact ⟨x, rfl, Option.some_inj.1 h⟩

theorem eq_ofNat_of_quanta? {a : Number} {n : Nat} (pos : 0 < n) (le : n ≤ 2 ^ 53)
    (h : a.quanta? = some ((n : Int) * quantaPerUnit)) : a = ofNat n := by
  obtain ⟨x, rfl, quanta⟩ :=
    eq_scalar_of_pos h (Int.mul_pos (by omega) natCast_quantaPerUnit_pos)
  rw [ofNat_eq_scalar le]
  refine congrArg scalar (Scalar.ext ?_)
  rw [quanta]
  push_cast
  rfl

/-- A finite number is placed by its quanta. -/
theorem rank_of_quanta? {a : Number} {q : Int} (h : a.quanta? = some q) : a.rank = some q := by
  cases a with
  | nan => cases h
  | infinity negative => cases h
  | negativeZero => exact h
  | scalar x => exact h

theorem lt_of_rank {a b : Number} {r s : Int} (ha : a.rank = some r) (hb : b.rank = some s) :
    a.lt b = decide (r < s) := by
  rw [lt, compareBy, ha, hb]

theorem le_of_rank {a b : Number} {r s : Int} (ha : a.rank = some r) (hb : b.rank = some s) :
    a.le b = decide (r ≤ s) := by
  rw [le, compareBy, ha, hb]

theorem same_of_rank {a b : Number} {r s : Int} (ha : a.rank = some r) (hb : b.rank = some s) :
    a.same b = decide (r = s) := by
  rw [same, compareBy, ha, hb]

theorem exists_rank {x : Number} (h : x ≠ nan) : ∃ r, x.rank = some r := by
  cases x with
  | nan => exact absurd rfl h
  | infinity negative => cases negative <;> exact ⟨_, rfl⟩
  | negativeZero => exact ⟨_, rfl⟩
  | scalar x => exact ⟨_, rfl⟩

theorem rank_min {a b : Number} {r s : Int} (ha : a.rank = some r) (hb : b.rank = some s) :
    (Number.min a b).rank = some (Min.min r s) := by
  have numbers : ¬ (a = nan ∨ b = nan) := by
    rintro (rfl | rfl)
    · cases ha
    · cases hb
  rw [Number.min, if_neg numbers, lt_of_rank hb ha, same_of_rank hb ha]
  simp only [decide_eq_true_eq]
  split
  · next least => rw [hb, Int.min_eq_right (by omega)]
  · next other => rw [ha, Int.min_eq_left (by omega)]

theorem rank_max {a b : Number} {r s : Int} (ha : a.rank = some r) (hb : b.rank = some s) :
    (Number.max a b).rank = some (Max.max r s) := by
  have numbers : ¬ (a = nan ∨ b = nan) := by
    rintro (rfl | rfl)
    · cases ha
    · cases hb
  rw [Number.max, if_neg numbers, lt_of_rank ha hb, same_of_rank ha hb]
  simp only [decide_eq_true_eq]
  split
  · next greatest => rw [hb, Int.max_eq_right (by omega)]
  · next other => rw [ha, Int.max_eq_left (by omega)]

/-- A valid tick rate is a finite number above zero. -/
theorem exists_scalar_of_rate {rate : Number} (valid : rate.isWhole ∧ Number.lt 0 rate) :
    ∃ x : Scalar, rate = .scalar x ∧ 0 < x.quanta := by
  obtain ⟨whole, positive⟩ := valid
  cases rate with
  | nan => cases whole
  | infinity negative => cases whole
  | negativeZero =>
    rw [Number.lt_of_rank Number.rank_zero rfl] at positive
    exact absurd (of_decide_eq_true positive) (Int.lt_irrefl 0)
  | scalar x =>
    rw [Number.lt_of_rank Number.rank_zero rfl] at positive
    exact ⟨x, rfl, of_decide_eq_true positive⟩

/-! ### Quotients -/

theorem quanta?_ofQuotient (negative : Bool) {n d : Nat} (h : roundQuotient n d < quantaLimit) :
    (ofQuotient negative n d).quanta? = some (signedRank negative (roundQuotient n d)) := by
  rw [ofQuotient, dif_pos h]
  cases negative
  · rfl
  · by_cases zero : roundQuotient n d = 0
    · rw [if_pos rfl, if_pos zero, zero]
      rfl
    · rw [if_pos rfl, if_neg zero]
      rfl

theorem isNegative_ofQuotient (negative : Bool) (n d : Nat) :
    (ofQuotient negative n d).isNegative = negative := by
  rw [ofQuotient]
  split
  · cases negative
    · rw [if_neg Bool.false_ne_true, isNegative]
      exact decide_eq_false (by show ¬ (roundQuotient n d : Int) < 0; omega)
    · by_cases zero : roundQuotient n d = 0
      · rw [if_pos rfl, if_pos zero, isNegative]
      · rw [if_pos rfl, if_neg zero, isNegative]
        exact decide_eq_true (by show -(roundQuotient n d : Int) < 0; omega)
  · rfl

theorem ofQuotient_of_le (negative : Bool) {n d : Nat} (h : quantaLimit ≤ roundQuotient n d) :
    ofQuotient negative n d = infinity negative := by
  rw [ofQuotient, dif_neg (Nat.not_lt.2 h)]

/-- A finite number divided by a positive one. -/
theorem div_scalar {a : Number} {q : Int} (finite : a.quanta? = some q) {x : Scalar}
    (pos : 0 < x.quanta) :
    a.div (scalar x) = ofQuotient a.isNegative (q.natAbs * quantaPerUnit) x.quanta.natAbs := by
  have sign : (scalar x).isNegative = false := decide_eq_false (by omega)
  have nonzero : (scalar x).same 0 = false := by
    rw [same_of_rank rfl rank_zero]
    exact decide_eq_false (by omega)
  have quotient : ∀ b : Number, b.quanta? = some q →
      (if (scalar x).same 0 then if b.same 0 then nan else
          infinity (b.isNegative != (scalar x).isNegative)
        else ofQuotient (b.isNegative != (scalar x).isNegative)
          ((b.quanta?.getD 0).natAbs * quantaPerUnit) x.quanta.natAbs) =
        ofQuotient b.isNegative (q.natAbs * quantaPerUnit) x.quanta.natAbs := by
    intro b hb
    rw [nonzero, if_neg Bool.false_ne_true, sign, Bool.bne_false, hb, Option.getD_some]
  cases a with
  | nan => cases finite
  | infinity negative => cases finite
  | negativeZero => exact quotient negativeZero finite
  | scalar y => exact quotient (scalar y) finite

theorem infinity_div_scalar (negative : Bool) {x : Scalar} (pos : 0 < x.quanta) :
    (infinity negative).div (scalar x) = infinity negative := by
  have sign : (scalar x).isNegative = false := decide_eq_false (by omega)
  show infinity (negative != (scalar x).isNegative) = infinity negative
  rw [sign, Bool.bne_false]

/-- The magnitude of the rank of a rounded quotient that is divided once more. -/
def rankOfSecond (n d e : Nat) : Nat :=
  if roundQuotient n d < quantaLimit then rankOfQuotient (roundQuotient n d * quantaPerUnit) e
  else quantaLimit

/-- Division by a positive number rounds once more and keeps the sign. -/
theorem rank_ofQuotient_div (negative : Bool) (n d : Nat) {x : Scalar} (pos : 0 < x.quanta) :
    ((ofQuotient negative n d).div (scalar x)).rank =
      some (signedRank negative (rankOfSecond n d x.quanta.natAbs)) := by
  rw [rankOfSecond]
  split
  · next h =>
    rw [div_scalar (quanta?_ofQuotient negative h) pos, isNegative_ofQuotient, rank_ofQuotient]
    cases negative <;> simp [signedRank]
  · next h =>
    rw [ofQuotient_of_le negative (Nat.not_lt.1 h), infinity_div_scalar negative pos]
    cases negative <;> rfl

end Number
end SceneLogic
