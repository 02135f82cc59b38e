/-
When a number of ticks overflows.

Of the steps from seconds to ticks only the product with the tick rate can leave the finite
numbers: taking the slack off it brings it nearer to zero, and the greatest finite number is whole,
so rounding up stays below it (`Number.isFinite_ceil`).  So a span has finitely many ticks exactly
if this product is finite, and else infinitely many (`Span.isFinite_ticks_iff`,
`Span.ticks_eq_infinity`).  A longer span has a greater product, which is why the longest of some
spans overflows exactly if one of them does (`Span.fits_longest_iff`).
-/
import SceneLogic.Proofs.Number.Whole
namespace SceneLogic

/-! ### The greatest finite number -/

/-- The units of the greatest finite number. -/
def greatestUnits : Nat := (2 ^ 53 - 1) * 2 ^ 971

attribute [local irreducible] quantaPerUnit quantaLimit greatestUnits

/-- Below a power of two, 53 digits make no more than as many ones with zeros behind them. -/
theorem digits_mul_le {t s k l : Nat} (digits : t < 2 ^ 53) (below : t * 2 ^ s < 2 ^ l)
    (room : l = 53 + k) : t * 2 ^ s ≤ (2 ^ 53 - 1) * 2 ^ k := by
  rcases Nat.le_total s k with le | le
  · exact Nat.mul_le_mul (Nat.le_pred_of_lt digits) (Nat.pow_le_pow_right (by decide) le)
  · obtain ⟨j, rfl⟩ := Nat.exists_eq_add_of_le le
    have whole : t * 2 ^ (k + j) = t * 2 ^ j * 2 ^ k := by
      rw [Nat.pow_add, Nat.mul_comm (2 ^ k), Nat.mul_assoc]
    rw [room, whole, Nat.pow_add] at below
    rw [whole]
    exact Nat.mul_le_mul_right _ (Nat.le_pred_of_lt (Nat.lt_of_mul_lt_mul_right below))

theorem greatest_eq : ∃ k, greatestUnits * quantaPerUnit = (2 ^ 53 - 1) * 2 ^ k ∧
    quantaLimit = 2 ^ (53 + k) := by
  have powers : ∃ i j, greatestUnits = (2 ^ 53 - 1) * 2 ^ i ∧ quantaPerUnit = 2 ^ j ∧
      quantaLimit = 2 ^ (53 + (i + j)) := by
    refine ⟨971, 1074, ?_, ?_, ?_⟩
    · unfold greatestUnits
      rfl
    · unfold quantaPerUnit
      rfl
    · unfold quantaLimit
      rfl
  obtain ⟨i, j, greatest, unit, limit⟩ := powers
  exact ⟨i + j, by rw [greatest, unit, Nat.mul_assoc, Nat.pow_add], limit⟩

theorem Representable.le_greatest {m : Nat} (h : Representable m) :
    m ≤ greatestUnits * quantaPerUnit := by
  obtain ⟨k, greatest, limit⟩ := greatest_eq
  obtain ⟨below, t, s, rfl, digits⟩ := h
  rw [limit] at below
  rw [greatest]
  exact digits_mul_le digits below rfl

theorem representable_greatest : Representable (greatestUnits * quantaPerUnit) := by
  obtain ⟨k, greatest, limit⟩ := greatest_eq
  rw [greatest]
  refine ⟨?_, 2 ^ 53 - 1, k, rfl, by decide⟩
  rw [limit, Nat.pow_add]
  exact Nat.mul_lt_mul_of_pos_right (by decide) (Nat.two_pow_pos k)

namespace Number

theorem isFinite_ofQuotient {negative : Bool} {n d : Nat} :
    (ofQuotient negative n d).isFinite ↔ roundQuotient n d < quantaLimit := by
  by_cases h : roundQuotient n d < quantaLimit
  · rw [isFinite_iff, quanta?_ofQuotient negative h]
    exact ⟨fun _ => h, fun _ => ⟨_, rfl⟩⟩
  · rw [ofQuotient_of_le negative (Nat.not_lt.1 h)]
    constructor
    · rintro ⟨⟩
    · intro h'
      exact absurd h' h

/-- What is no further from zero than the greatest finite number is rounded to a finite one. -/
theorem isFinite_ofQuanta {q : Int} (le : q.natAbs ≤ greatestUnits * quantaPerUnit) :
    (ofQuanta q).isFinite := by
  have greatest := representable_greatest
  rw [ofQuanta, isFinite_ofQuotient]
  calc roundQuotient q.natAbs 1
      ≤ roundQuotient (greatestUnits * quantaPerUnit) 1 := roundQuotient_mono 1 le
    _ = greatestUnits * quantaPerUnit := roundQuotient_one_of_precise greatest.2
    _ < quantaLimit := greatest.1

/-- Rounding up leaves a finite number finite. -/
theorem isFinite_ceil {a : Number} (finite : a.isFinite) : a.ceil.isFinite := by
  obtain ⟨x, value⟩ := Option.isSome_iff_exists.1 finite
  have bound : x.quanta.natAbs ≤ greatestUnits * quantaPerUnit := x.representable.le_greatest
  have unit := natCast_quantaPerUnit_pos
  have cast := Int.natCast_mul greatestUnits quantaPerUnit
  -- The units above the number lie between the same whole numbers of units as the number.
  have above : -x.quanta / (quantaPerUnit : Int) ≤ greatestUnits := by
    refine Int.ediv_le_of_le_mul unit ?_
    rw [← cast]
    omega
  have below : -(greatestUnits : Int) ≤ -x.quanta / (quantaPerUnit : Int) := by
    refine Int.le_ediv_of_mul_le unit ?_
    rw [Int.neg_mul, ← cast]
    omega
  rw [ceil, value]
  dsimp only
  split
  · rfl
  · refine isFinite_ofQuanta ?_
    rw [Int.natAbs_mul, Int.natAbs_natCast]
    exact Nat.mul_le_mul_right _ (by omega)

/-- The slack is a finite number above zero. -/
theorem exists_slack : ∃ y : Scalar, tickSlack.neg = scalar y ∧ y.quanta ≤ 0 := by
  have slack : tickSlack.neg.quanta?.any (· ≤ 0) ∧ tickSlack.neg ≠ negativeZero := by
    decide +kernel
  obtain ⟨below, nonzero⟩ := slack
  cases h : tickSlack.neg with
  | nan =>
    rw [h] at below
    cases below
  | infinity negative =>
    rw [h] at below
    cases below
  | negativeZero => exact absurd h nonzero
  | scalar y =>
    rw [h] at below
    exact ⟨y, rfl, of_decide_eq_true below⟩

/-- Without the slack, a number that is not negative stays finite. -/
theorem isFinite_sub_slack {x : Scalar} (nonneg : 0 ≤ x.quanta) :
    ((scalar x).sub tickSlack).isFinite := by
  obtain ⟨y, slack, le⟩ := exists_slack
  have own : x.quanta.natAbs ≤ greatestUnits * quantaPerUnit := x.representable.le_greatest
  have other : y.quanta.natAbs ≤ greatestUnits * quantaPerUnit := y.representable.le_greatest
  rw [sub, slack, add_scalar rfl]
  exact isFinite_ofQuanta (by omega)

theorem infinity_sub_slack (negative : Bool) :
    (infinity negative).sub tickSlack = infinity negative := by
  obtain ⟨y, slack, -⟩ := exists_slack
  rw [sub, slack]
  rfl

end Number

/-! ### The longest span -/

namespace Span

theorem eq_zero_of_le {s : Span} (le : s.seconds ≤ (0 : Span).seconds) : s = 0 := by
  obtain ⟨seconds, nonneg⟩ := s
  have zero : seconds = 0 := Scalar.ext (Int.le_antisymm le nonneg)
  subst zero
  rfl

theorem le_foldl_max (spans : List Span) (first : Span) :
    ∀ s ∈ first :: spans, s.seconds ≤ (spans.foldl max first).seconds := by
  induction spans generalizing first with
  | nil =>
    intro s mem
    rw [List.mem_singleton.1 mem]
    exact Int.le_refl _
  | cons t spans ih =>
    have all := List.forall_mem_cons.1 (ih (first.max t))
    have both : first.seconds ≤ (first.max t).seconds ∧ t.seconds ≤ (first.max t).seconds := by
      rw [max]
      split
      · next less => exact ⟨Int.le_of_lt less, Int.le_refl _⟩
      · next notLess => exact ⟨Int.le_refl _, Int.not_lt.1 notLess⟩
    rw [List.forall_mem_cons, List.forall_mem_cons, List.foldl_cons]
    exact ⟨Int.le_trans both.1 all.1, Int.le_trans both.2 all.1, all.2⟩

theorem foldl_max_mem (spans : List Span) (first : Span) :
    spans.foldl max first ∈ first :: spans := by
  induction spans generalizing first with
  | nil => exact List.mem_singleton_self first
  | cons t spans ih =>
    rw [List.foldl_cons]
    rcases List.mem_cons.1 (ih (first.max t)) with same | mem
    · rw [same, max]
      split <;> simp
    · exact List.mem_cons_of_mem _ (List.mem_cons_of_mem _ mem)

theorem le_longest {s : Span} {spans : List Span} (mem : s ∈ spans) :
    s.seconds ≤ (longest spans).seconds :=
  le_foldl_max spans 0 s (List.mem_cons_of_mem _ mem)

/-- The longest of some spans is one of them. -/
theorem longest_mem {spans : List Span} (some : spans ≠ []) : longest spans ∈ spans := by
  rcases List.mem_cons.1 (foldl_max_mem spans 0) with none | mem
  · -- None of them is longer than the zero that the search begins with, so each is that zero.
    obtain ⟨s, rest, rfl⟩ := List.exists_cons_of_ne_nil some
    have le : s.seconds ≤ (longest (s :: rest)).seconds := le_longest List.mem_cons_self
    rw [longest, none] at le ⊢
    rw [eq_zero_of_le le]
    exact List.mem_cons_self
  · exact mem

end Span

/-! ### Spans at a rate -/

namespace Span

/-- The product of a span with a tick rate is finite. -/
def Fits (rate : Number) (s : Span) : Prop := (s.number.mul rate).isFinite

variable {x : Scalar} (positive : 0 < x.quanta)
include positive

theorem mul_rate (s : Span) : s.number.mul (.scalar x) =
    .ofQuotient false (s.seconds.quanta.natAbs * x.quanta.natAbs) quantaPerUnit := by
  have span : 0 ≤ s.seconds.quanta := s.nonneg
  show Number.ofQuotient (decide (s.seconds.quanta < 0) != decide (x.quanta < 0)) _ _ = _
  rw [decide_eq_false (Int.not_lt.2 span), decide_eq_false (Int.not_lt.2 (Int.le_of_lt positive))]
  rfl

theorem fits_iff (s : Span) : s.Fits (.scalar x) ↔
    roundQuotient (s.seconds.quanta.natAbs * x.quanta.natAbs) quantaPerUnit < quantaLimit := by
  rw [Fits, mul_rate positive, Number.isFinite_ofQuotient]

theorem fits_zero : (0 : Span).Fits (.scalar x) := by
  rw [fits_iff positive, show (0 : Span).seconds.quanta.natAbs = 0 from rfl, Nat.zero_mul,
    roundQuotient_zero]
  exact Scalar.quantaLimit_pos

theorem fits_of_le {s t : Span} (le : s.seconds ≤ t.seconds) (fits : t.Fits (.scalar x)) :
    s.Fits (.scalar x) := by
  have span : 0 ≤ s.seconds.quanta := s.nonneg
  have quanta : s.seconds.quanta ≤ t.seconds.quanta := le
  rw [fits_iff positive] at fits ⊢
  refine Nat.lt_of_le_of_lt (roundQuotient_mono _ (Nat.mul_le_mul_right _ ?_)) fits
  omega

/-- What fits has finitely many ticks. -/
theorem isFinite_ticks {s : Span} (fits : s.Fits (.scalar x)) :
    (secondsToTicks s.number (.scalar x)).isFinite := by
  rw [secondsToTicks]
  split
  · exact Number.isFinite_ofQuanta (q := 0 * quantaPerUnit) (by simp)
  · refine Number.isFinite_ceil ?_
    have finite := (fits_iff positive s).1 fits
    rw [mul_rate positive, Number.ofQuotient, dif_pos finite, if_neg Bool.false_ne_true]
    exact Number.isFinite_sub_slack (Int.natCast_nonneg _)

/-- What does not fit has infinitely many. -/
theorem ticks_eq_infinity {s : Span} (exceeds : ¬ s.Fits (.scalar x)) :
    secondsToTicks s.number (.scalar x) = .infinity false := by
  have infinite : s.number.mul (.scalar x) = .infinity false := by
    rw [fits_iff positive, Nat.not_lt] at exceeds
    rw [mul_rate positive, Number.ofQuotient_of_le _ exceeds]
  have later : ¬ s.number.le 0 := by
    rw [Number.le_of_rank rfl Number.rank_zero, decide_eq_true_eq]
    exact fun le => exceeds (fits_of_le positive le (fits_zero positive))
  rw [secondsToTicks, if_neg later, infinite, Number.infinity_sub_slack]
  rfl

theorem isFinite_ticks_iff (s : Span) :
    (secondsToTicks s.number (.scalar x)).isFinite ↔ s.Fits (.scalar x) := by
  refine ⟨fun finite => ?_, isFinite_ticks positive⟩
  by_contra exceeds
  rw [ticks_eq_infinity positive exceeds] at finite
  cases finite

/-- The longest of some spans fits exactly if all of them do. -/
theorem fits_longest_iff {spans : List Span} :
    (longest spans).Fits (.scalar x) ↔ ∀ s ∈ spans, s.Fits (.scalar x) := by
  refine ⟨fun fits s mem => fits_of_le positive (le_longest mem) fits, fun all => ?_⟩
  by_cases none : spans = []
  · rw [none]
    exact fits_zero positive
  · exact all _ (longest_mem none)

end Span

end SceneLogic
