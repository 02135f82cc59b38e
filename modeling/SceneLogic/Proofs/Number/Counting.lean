/-
Counting by ones.

Up to 2⁵³ a number is told apart from the next one, and counting is exact in both directions
(`Number.ofNat_add_one`, `Number.ofNat_sub_one`); from there on a counter that goes up stands still
(`Number.last_add_one`).  A counter that goes down from further up may stand still, too, or come
down in other steps, but it comes down no further than one from 2⁵³ (`Number.Remains`): so it is at
its end exactly if the count is, for as long as no 2⁵³ steps were made
(`Number.Remains.le_zero_iff`).
-/
import SceneLogic.Proofs.Number.Order
namespace SceneLogic.Number

attribute [local irreducible] quantaPerUnit quantaLimit

/-! ### Single steps -/

/-- From 2⁵³ on the next number is not reached by adding one. -/
theorem last_add_one : (ofNat (2 ^ 53)).add 1 = ofNat (2 ^ 53) := by decide +kernel

theorem ofNat_min_add_one (n : Nat) :
    (ofNat (Min.min n (2 ^ 53))).add 1 = ofNat (Min.min (n + 1) (2 ^ 53)) := by
  rcases Nat.lt_or_ge n (2 ^ 53) with lt | ge
  · rw [Nat.min_eq_left (Nat.le_of_lt lt), Nat.min_eq_left lt, ofNat_add_one lt]
  · rw [Nat.min_eq_right ge, Nat.min_eq_right (Nat.le_succ_of_le ge), last_add_one]

/-- To take one away is to add its opposite. -/
theorem sub_one_eq_add : ∃ y : Scalar, y.quanta = -(quantaPerUnit : Int) ∧
    ∀ a : Number, a.sub 1 = a.add (scalar y) := by
  obtain ⟨y, minus, quanta⟩ := neg_one_eq_scalar
  have opposite : (1 : Number).neg = scalar y := minus
  refine ⟨y, quanta, fun a => ?_⟩
  rw [sub, opposite]

/-- Up to 2⁵³ the number before is one less. -/
theorem ofNat_sub_one {n : Nat} (le : n + 1 ≤ 2 ^ 53) : (ofNat (n + 1)).sub 1 = ofNat n := by
  obtain ⟨y, quanta, minus⟩ := sub_one_eq_add
  rw [minus, ofNat_eq_scalar le, add_scalar rfl, quanta, ofNat, ofInt]
  congr 1
  push_cast
  rw [Int.add_mul, Int.one_mul, Int.add_neg_cancel_right]

theorem zero_lt_one : Number.lt 0 1 := by decide +kernel

theorem add_one_mono {a b : Number} (h : a.le b) : (a.add 1).le (b.add 1) := by
  obtain ⟨y, one, -⟩ := one_eq_scalar
  rw [one]
  exact add_mono y h

/-- Counting up from zero stays above it. -/
theorem zero_le_add_one {a : Number} (h : Number.le 0 a) : Number.le 0 (a.add 1) :=
  le_trans (b := (0 : Number).add 1) (by decide +kernel) (add_one_mono h)

theorem sub_one_mono {a b : Number} (h : a.le b) : (a.sub 1).le (b.sub 1) := by
  obtain ⟨y, -, minus⟩ := sub_one_eq_add
  rw [minus, minus]
  exact add_mono y h

/-! ### Counting down -/

/-- What a counter shows that counts down from `n`, with some left to count: just these if numbers
are told apart all the way, and otherwise at least what they are more than the numbers beyond. -/
structure Remains (n left : Nat) (a : Number) : Prop where
  le : left ≤ n
  exact : n ≤ 2 ^ 53 → a = ofNat left
  least : 2 ^ 53 < n → (ofNat (left + 2 ^ 53 - n)).le a

namespace Remains

variable {n left : Nat} {a : Number}

theorem sub_one (h : Remains n (left + 1) a) (reach : n ≤ 2 ^ 53 ∨ n ≤ left + 2 ^ 53) :
    Remains n left (a.sub 1) where
  le := Nat.le_of_succ_le h.le
  exact small := by
    rw [h.exact small, ofNat_sub_one (h.le.trans small)]
  least large := by
    have next : left + 1 + 2 ^ 53 - n = left + 2 ^ 53 - n + 1 := by omega
    have bound := sub_one_mono (h.least large)
    rw [next, ofNat_sub_one (by have := h.le; omega)] at bound
    exact bound

/-- The counter is at its end with the count, unless 2⁵³ steps were made. -/
theorem le_zero_iff (h : Remains n left a) (reach : n ≤ 2 ^ 53 ∨ n < left + 2 ^ 53) :
    a.le 0 ↔ left = 0 := by
  have unit := quantaPerUnit_pos
  rcases Nat.lt_or_ge (2 ^ 53) n with large | small
  · -- The counter is still at one or above, and the count is, too.
    have le := h.le
    obtain ⟨r, s, low, place, above⟩ := le_iff.1 (h.least large)
    rw [rank_ofNat (by omega)] at low
    have positive : 0 < (left + 2 ^ 53 - n) * quantaPerUnit := Nat.mul_pos (by omega) unit
    rw [le_of_rank place rank_zero, decide_eq_true_eq]
    cases low
    omega
  · rw [h.exact small, le_of_rank (rank_ofNat (h.le.trans small)) rank_zero, decide_eq_true_eq]
    constructor
    · intro none
      exact (Nat.mul_eq_zero.1 (by omega)).resolve_right unit.ne'
    · rintro rfl
      simp

end Remains

end SceneLogic.Number
