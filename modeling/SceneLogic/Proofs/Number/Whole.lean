/-
Whole numbers of ticks.

Seconds are converted to ticks by rounding up, so a finite number of ticks is a whole number
(`quanta?_secondsToTicks`).  `tickCount` is the number of ticks that it stands for where at least
one is needed: `lt_iff_lt_tickCount` says so of counting up to it and `remains_max` of counting down
from it.
-/
import SceneLogic.Config
import SceneLogic.Playback.Loaded
import SceneLogic.Proofs.Number.Counting
namespace SceneLogic

attribute [local irreducible] quantaPerUnit quantaLimit

/-- The whole units of a finite number. -/
def Number.units (a : Number) : Int := a.quanta?.getD 0 / quantaPerUnit

/-- The ticks that a finite number of them stands for, where at least one is needed. -/
def tickCount (ticks : Number) : Nat := max 1 ticks.units.toNat

theorem tickCount_pos (ticks : Number) : 0 < tickCount ticks :=
  Nat.lt_of_lt_of_le Nat.zero_lt_one (Nat.le_max_left _ _)

namespace Number

theorem isFinite_iff {a : Number} : a.isFinite ↔ ∃ q, a.quanta? = some q := by
  cases a <;> simp [isFinite, toScalar?, quanta?]

theorem dvd_quanta_ofInt {k q : Int} (h : (ofInt k).quanta? = some q) :
    (quantaPerUnit : Int) ∣ q := by
  have dvd := Int.natCast_dvd_natCast.2 (quantaPerUnit_dvd_roundQuotient k.natAbs)
  rw [ofInt, ofQuanta, Int.natAbs_mul, Int.natAbs_natCast] at h
  by_cases finite : roundQuotient (k.natAbs * quantaPerUnit) 1 < quantaLimit
  · rw [quanta?_ofQuotient _ finite] at h
    cases h
    rw [signedRank]
    split
    · exact Int.dvd_neg.2 dvd
    · exact dvd
  · rw [ofQuotient_of_le _ (Nat.not_lt.1 finite)] at h
    cases h

/-- A finite whole number is its units. -/
theorem quanta?_of_dvd {a : Number} (finite : a.isFinite)
    (whole : ∀ q, a.quanta? = some q → (quantaPerUnit : Int) ∣ q) :
    a.quanta? = some (a.units * quantaPerUnit) := by
  obtain ⟨q, hq⟩ := isFinite_iff.1 finite
  rw [units, hq, Option.getD_some, Int.ediv_mul_cancel (whole q hq)]

/-- Rounding up leaves a whole number, unless the number was not finite. -/
theorem dvd_quanta_ceil {a : Number} {q : Int} (h : a.ceil.quanta? = some q) :
    (quantaPerUnit : Int) ∣ q := by
  rw [ceil] at h
  cases value : a.toScalar? with
  | none =>
    rw [value] at h
    cases a <;> cases h <;> cases value
  | some x =>
    rw [value] at h
    dsimp only at h
    split at h
    · cases h
      exact Int.dvd_zero _
    · exact dvd_quanta_ofInt h

/-- A finite number of ticks is a whole number. -/
theorem quanta?_secondsToTicks {seconds rate : Number}
    (finite : (secondsToTicks seconds rate).isFinite) :
    (secondsToTicks seconds rate).quanta? =
      some ((secondsToTicks seconds rate).units * quantaPerUnit) := by
  refine quanta?_of_dvd finite fun q hq => ?_
  rw [secondsToTicks] at hq
  split at hq
  · exact dvd_quanta_ofInt (k := 0) hq
  · exact dvd_quanta_ceil hq

/-! ### Counting up and down -/

section Whole

variable {ticks : Number} (whole : ticks.quanta? = some (ticks.units * quantaPerUnit))
include whole

/-- A count of at least one falls short of a whole number as it falls short of its ticks. -/
theorem lt_iff_lt_tickCount {n : Nat} (pos : 0 < n) (le : n ≤ 2 ^ 53) :
    (ofNat n).lt ticks ↔ n < tickCount ticks := by
  have unit := natCast_quantaPerUnit_pos
  rw [lt_of_rank (rank_ofNat le) (rank_of_quanta? whole), decide_eq_true_eq, Int.natCast_mul,
    Int.mul_lt_mul_right unit, tickCount]
  omega

/-- The greater of one and a whole number is the number of its ticks. -/
theorem quanta?_one_max :
    ((1 : Number).max ticks).quanta? = some ((tickCount ticks : Int) * quantaPerUnit) := by
  have unit := natCast_quantaPerUnit_pos
  have one : (1 : Number).quanta? = some ((1 : Int) * quantaPerUnit) := by
    obtain ⟨x, one, quanta⟩ := one_eq_scalar
    rw [one, Int.one_mul, ← quanta]
    rfl
  have first := rank_of_quanta? one
  have second := rank_of_quanta? whole
  have numbers : ¬ ((1 : Number) = nan ∨ ticks = nan) := by
    rintro (h | rfl)
    · rw [h] at one
      cases one
    · cases whole
  rw [Number.max, if_neg numbers, lt_of_rank first second, same_of_rank first second]
  simp only [decide_eq_true_eq, Int.mul_lt_mul_right unit, Int.mul_eq_mul_right_iff unit.ne']
  split
  · next more =>
    have count : (tickCount ticks : Int) = ticks.units := by
      rw [tickCount]
      omega
    rw [count]
    exact whole
  · next fewer =>
    have positive : (1 : Number).isNegative = false := isNegative_ofQuotient _ _ _
    rw [positive] at fewer
    have count : (tickCount ticks : Int) = 1 := by
      rw [tickCount]
      omega
    rw [count]
    exact one

/-- A counter that begins at the greater of one and a whole number has the ticks of that to count
down. -/
theorem remains_max : Remains (tickCount ticks) (tickCount ticks) ((1 : Number).max ticks) where
  le := Nat.le_refl _
  exact small := eq_ofNat_of_quanta? (tickCount_pos ticks) small (quanta?_one_max whole)
  least large := by
    have unit := natCast_quantaPerUnit_pos
    rw [Nat.add_sub_cancel_left, le_of_rank (rank_ofNat (Nat.le_refl _))
      (rank_of_quanta? (quanta?_one_max whole)), decide_eq_true_eq, Int.natCast_mul]
    exact Int.mul_le_mul_of_nonneg_right (by omega) (Int.le_of_lt unit)

end Whole

end Number

end SceneLogic
