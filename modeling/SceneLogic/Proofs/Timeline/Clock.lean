/-
The clock of a timeline.

A clock that was moved so often stands at `clockTick`: it begins at `-1` and counts the moves for as
long as numbers are told apart from the next one.  At a tick rate that a valid configuration has,
the times of a clock are in the order of its moves (`clockRank_mono`) and the time before the first
tick lies before every start time (`clockRank_neg_one`).  Both are read off `clockRank`, the place
of a time in the order of numbers.
-/
import SceneLogic.Playback.Loaded
import SceneLogic.Proofs.Number.Counting
namespace SceneLogic

attribute [local irreducible] quantaPerUnit quantaLimit

/-! ### Ticks -/

/-- The tick of a clock that was moved so often: one less, up to 2⁵³, where a clock stands still. -/
def tickAfter (moves : Nat) : Int := min ((moves : Int) - 1) (2 ^ 53)

/-- What a clock shows that was moved so often. -/
def clockTick (moves : Nat) : Number := .ofInt (tickAfter moves)

theorem tickAfter_mono {m n : Nat} (le : m ≤ n) : tickAfter m ≤ tickAfter n := by
  unfold tickAfter
  omega

/-- Before its first move a clock shows `-1`. -/
theorem clockTick_zero : clockTick 0 = -1 := by decide +kernel

theorem clockTick_succ (moves : Nat) : clockTick (moves + 1) = .ofNat (min moves (2 ^ 53)) := by
  have count : tickAfter (moves + 1) = (min moves (2 ^ 53) : Nat) := by
    unfold tickAfter
    omega
  rw [clockTick, count]
  rfl

theorem clockTick_add_one (moves : Nat) : (clockTick moves).add 1 = clockTick (moves + 1) := by
  cases moves with
  | zero => decide +kernel
  | succ moves => rw [clockTick_succ, clockTick_succ, Number.ofNat_min_add_one]

/-- Once it was moved, a clock shows something else. -/
theorem clockTick_same_iff (moves : Nat) : (clockTick moves).same (-1) ↔ moves = 0 := by
  cases moves with
  | zero =>
    rw [clockTick_zero]
    exact iff_of_true (by decide +kernel) rfl
  | succ moves =>
    obtain ⟨x, minus, quanta⟩ := Number.neg_one_eq_scalar
    have unit := quantaPerUnit_pos
    rw [clockTick_succ, minus, Number.same_of_rank (Number.rank_ofNat (Nat.min_le_right _ _)) rfl,
      decide_eq_true_eq, quanta]
    omega

/-! ### Times -/

theorem rankOfSecond_mono {n m : Nat} (d e : Nat) (le : n ≤ m) :
    Number.rankOfSecond n d e ≤ Number.rankOfSecond m d e := by
  have first := roundQuotient_mono d le
  unfold Number.rankOfSecond
  split
  · split
    · exact rankOfQuotient_mono e (Nat.mul_le_mul_right _ first)
    · exact Nat.min_le_right _ _
  · rw [if_neg (by omega)]

/-- The place in the order of the time at a tick of a clock. -/
def clockRank (rate : Scalar) (tick : Int) : Int :=
  signedRank (decide (tick < 0))
    (Number.rankOfSecond (tick.natAbs * quantaPerUnit) 1 rate.quanta.natAbs)

theorem rank_clockTime {rate : Scalar} (pos : 0 < rate.quanta) (tick : Int) :
    (Loaded.clockTime (.scalar rate) (.ofInt tick)).rank = some (clockRank rate tick) := by
  have sign : decide (tick * (quantaPerUnit : Int) < 0) = decide (tick < 0) := by
    have := Int.mul_lt_mul_right (b := tick) (c := 0) natCast_quantaPerUnit_pos
    rw [Int.zero_mul] at this
    simp only [this]
  rw [Loaded.clockTime, Number.ofInt, Number.ofQuanta, Number.rank_ofQuotient_div _ _ _ pos, sign,
    Int.natAbs_mul, Int.natAbs_natCast]
  rfl

theorem clockRank_mono (rate : Scalar) {j k : Int} (le : j ≤ k) :
    clockRank rate j ≤ clockRank rate k :=
  signedRank_mono (g := fun n => Number.rankOfSecond (n * quantaPerUnit) 1 rate.quanta.natAbs)
    (fun _ _ h => rankOfSecond_mono 1 _ (Nat.mul_le_mul_right _ h)) le

theorem roundQuotient_self {d : Nat} (pos : 0 < d) : roundQuotient d d = 1 := by
  have one : lastPlace 1 = 0 := by decide
  have self : nearestWhole d d = 1 := by
    have := nearestWhole_mul 1 pos
    rw [Nat.one_mul] at this
    exact this
  rw [roundQuotient_eq, Nat.div_self pos, one, Nat.pow_zero, Nat.mul_one, Nat.mul_one, self]

theorem two_pow_le_mul {j k : Nat} (le : j ≤ k + k) : 2 ^ j ≤ 2 ^ k * 2 ^ k := by
  rw [← Nat.pow_add]
  exact Nat.pow_le_pow_right (by decide) le

theorem quantaLimit_le : quantaLimit ≤ quantaPerUnit * quantaPerUnit := by
  rw [quantaLimit, quantaPerUnit]
  apply two_pow_le_mul
  decide

/-- Before its first tick a clock stands before zero. -/
theorem clockRank_neg_one {rate : Scalar} (pos : 0 < rate.quanta) : clockRank rate (-1) < 0 := by
  have unit := Number.representable_mul_quantaPerUnit (n := 1) (by decide)
  -- Divided by the greatest finite rate, a unit still leaves a quantum.
  have limit : rate.quanta.natAbs ≤ 1 * quantaPerUnit * quantaPerUnit := by
    rw [Nat.one_mul]
    exact (Nat.le_of_lt rate.representable.1).trans quantaLimit_le
  have quotient : 1 ≤ roundQuotient (1 * quantaPerUnit * quantaPerUnit) rate.quanta.natAbs := by
    have self := roundQuotient_self (d := rate.quanta.natAbs) (by omega)
    have le := roundQuotient_mono rate.quanta.natAbs limit
    rw [self] at le
    exact le
  have some_limit : 1 ≤ quantaLimit := Scalar.quantaLimit_pos
  have second : 1 ≤ Number.rankOfSecond (1 * quantaPerUnit) 1 rate.quanta.natAbs := by
    rw [Number.rankOfSecond, roundQuotient_one_of_precise unit.2, if_pos unit.1, rankOfQuotient]
    exact Nat.le_min.2 ⟨quotient, some_limit⟩
  show -((Number.rankOfSecond (1 * quantaPerUnit) 1 rate.quanta.natAbs : Nat) : Int) < 0
  omega

end SceneLogic
