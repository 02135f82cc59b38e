/-
Ticks of spans, and the longest of them.

Seconds are converted to ticks by one formula, which can be followed in any arithmetic
(`Arithmetic.ticks`).  The program follows it with numbers, which are rounded at every step
(`Arithmetic.rounded`).  Without rounding (`Arithmetic.exact`) it gives the least whole number that
is not below the product less the slack (`Arithmetic.exact_ticks_isLeast`), more for longer spans
and for higher rates.

Rounding keeps the order, for it leaves infinities alone and is monotone in between
(`Number.le_of_monotone`): the product with a rate, the difference from the slack and rounding up
are all of this kind, and so more seconds never give fewer ticks (`Number.secondsToTicks_mono`).
Therefore the ticks of the longest of some spans are the greatest of their ticks, as the number is
that a search for the greatest comes to (`Span.isGreatestOf_longest`,
`Span.isGreatestOf_foldl_max`).  `TickLaw` has what is known of the formula, with rounding and
without.
-/
import Mathlib.Data.Rat.Floor
import Mathlib.Tactic.Linarith
import Mathlib.Tactic.NormNum
import SceneLogic.Proofs.Number.Overflow
namespace SceneLogic

attribute [local irreducible] quantaPerUnit quantaLimit

/-! ### The formula -/

/-- What seconds are converted to ticks with. -/
structure Arithmetic (α : Type) where
  zero : α
  /-- What is taken off a product before it is rounded up. -/
  slack : α
  le : α → α → Bool
  mul : α → α → α
  sub : α → α → α
  ceil : α → α

namespace Arithmetic

/-- The ticks of some seconds at a rate. -/
def ticks {α : Type} (A : Arithmetic α) (seconds rate : α) : α :=
  if A.le seconds A.zero then A.zero else A.ceil (A.sub (A.mul seconds rate) A.slack)

/-- Arithmetic that rounds every result. -/
def rounded : Arithmetic Number := 
  ⟨0, tickSlack, Number.le, Number.mul, Number.sub, Number.ceil⟩

/-- Arithmetic that rounds nothing. -/
def exact : Arithmetic ℚ :=
  ⟨0, 1 / 10 ^ 9, fun x y => decide (x ≤ y), (· * ·), (· - ·), fun x => ⌈x⌉⟩

theorem rounded_ticks : rounded.ticks = secondsToTicks := rfl

theorem exact_ticks (s r : ℚ) :
    exact.ticks s r = if s ≤ 0 then 0 else (⌈s * r - 1 / 10 ^ 9⌉ : ℚ) := by
  simp only [ticks, exact, decide_eq_true_eq]

/-- Without rounding, ticks are the least whole number that covers the product but for the slack. -/
theorem exact_ticks_isLeast {s r : ℚ} (pos : 0 < s) :
    ∃ n : ℤ, exact.ticks s r = n ∧ IsLeast {m : ℤ | s * r - 1 / 10 ^ 9 ≤ m} n := by
  refine ⟨⌈s * r - 1 / 10 ^ 9⌉, ?_, ?_, fun m covers => Int.ceil_le.2 covers⟩
  · rw [exact_ticks, if_neg (not_le.2 pos)]
  · show s * r - 1 / 10 ^ 9 ≤ _
    exact Int.le_ceil _

/-- A product less than the slack above three is three ticks. -/
example : exact.ticks (3 / 10 + 1 / 10 ^ 11) 10 = 3 := by decide +kernel

theorem exact_ticks_nonneg {s r : ℚ} (rate : 0 ≤ r) : 0 ≤ exact.ticks s r := by
  rw [exact_ticks]
  split
  · exact le_refl 0
  · next pos =>
    -- The slack is less than one, so taking it off something positive does not reach minus one.
    have product : 0 ≤ s * r := mul_nonneg (le_of_lt (not_le.1 pos)) rate
    have covered : (-1 : ℚ) < s * r - 1 / 10 ^ 9 := by
      have : (1 : ℚ) / 10 ^ 9 < 1 := by norm_num
      linarith
    have : -1 < ⌈s * r - 1 / 10 ^ 9⌉ := Int.lt_ceil.2 (by exact_mod_cast covered)
    exact_mod_cast (by omega : 0 ≤ ⌈s * r - 1 / 10 ^ 9⌉)

theorem exact_ticks_mono_seconds {s s' r : ℚ} (rate : 0 ≤ r) (le : s ≤ s') :
    exact.ticks s r ≤ exact.ticks s' r := by
  rcases le_or_gt s 0 with none | pos
  · rw [exact_ticks s, if_pos none]
    exact exact_ticks_nonneg rate
  · rw [exact_ticks, exact_ticks, if_neg (not_le.2 pos), if_neg (not_le.2 (pos.trans_le le))]
    exact_mod_cast Int.ceil_mono (sub_le_sub_right (mul_le_mul_of_nonneg_right le rate) _)

theorem exact_ticks_mono_rate {s r r' : ℚ} (le : r ≤ r') :
    exact.ticks s r ≤ exact.ticks s r' := by
  rw [exact_ticks, exact_ticks]
  split
  · exact le_refl 0
  · next pos =>
    have products := mul_le_mul_of_nonneg_left le (le_of_lt (not_le.1 pos))
    exact_mod_cast Int.ceil_mono (sub_le_sub_right products _)

end Arithmetic

/-! ### More seconds -/

namespace Number

variable {x : Scalar} {a b : Number}

theorem rank_mul_scalar (pos : 0 < x.quanta) {q : Int} (value : a.quanta? = some q) :
    (a.mul (scalar x)).rank = some (roundedRank quantaPerUnit (q * x.quanta)) := by
  have sign : (scalar x).isNegative = false := decide_eq_false (by omega)
  cases a with
  | nan => cases value
  | infinity negative => cases value
  | negativeZero =>
    cases value
    show (ofQuotient (true != (scalar x).isNegative) (0 * x.quanta.natAbs) _).rank = _
    rw [rank_ofQuotient, roundedRank, Int.zero_mul, Nat.zero_mul, Int.natAbs_zero, rankOfQuotient,
      roundQuotient_zero, Nat.zero_min, sign]
    rfl
  | scalar y =>
    cases value
    show (ofQuotient (decide (y.quanta < 0) != (scalar x).isNegative) _ _).rank = _
    have signs : decide (y.quanta * x.quanta < 0) = decide (y.quanta < 0) := by
      rw [decide_eq_decide]
      exact ⟨fun neg => Int.neg_of_mul_neg_left neg pos,
        fun neg => Int.mul_neg_of_neg_of_pos neg pos⟩
    rw [rank_ofQuotient, roundedRank, signs, Int.natAbs_mul, sign, Bool.bne_false]
    rfl

theorem mul_mono (pos : 0 < x.quanta) (h : a.le b) :
    (a.mul (scalar x)).le (b.mul (scalar x)) := by
  refine le_of_monotone (g := fun q => roundedRank quantaPerUnit (q * x.quanta))
    (f := fun a => a.mul (scalar x)) ?_ (fun a q => rank_mul_scalar pos) ?_ h
  · intro negative
    have sign : (scalar x).isNegative = false := decide_eq_false (by omega)
    have nonzero : (scalar x).same 0 = false := by
      rw [same_of_rank rfl rank_zero]
      exact decide_eq_false (by omega)
    show (if (scalar x).same 0 then nan else infinity (negative != (scalar x).isNegative)) = _
    rw [nonzero, sign, if_neg Bool.false_ne_true, Bool.bne_false]
  · intro q q' le
    exact roundedRank_mono _ (Int.mul_le_mul_of_nonneg_right le (Int.le_of_lt pos))

theorem sub_slack_mono (h : a.le b) : (a.sub tickSlack).le (b.sub tickSlack) := by
  obtain ⟨y, slack, -⟩ := exists_slack
  rw [sub, sub, slack]
  exact add_mono y h

theorem rank_ceil {q : Int} (value : a.quanta? = some q) :
    a.ceil.rank = some (roundedRank 1 (-(-q / (quantaPerUnit : Int)) * quantaPerUnit)) := by
  obtain ⟨y, finite, rfl⟩ : ∃ y : Scalar, a.toScalar? = some y ∧ y.quanta = q := by
    cases a <;> cases value <;> exact ⟨_, rfl, rfl⟩
  rw [ceil, finite]
  dsimp only
  split
  · next zero =>
    rw [zero.1, Int.zero_mul]
    simp [rank, roundedRank, rankOfQuotient, signedRank]
  · exact rank_ofQuanta _

theorem ceil_mono (h : a.le b) : a.ceil.le b.ceil := by
  have unit := natCast_quantaPerUnit_pos
  refine le_of_monotone (fun _ => rfl) (fun a q => rank_ceil) (fun q q' le => ?_) h
  refine roundedRank_mono 1 (Int.mul_le_mul_of_nonneg_right ?_ (Int.le_of_lt unit))
  have := Int.ediv_le_ediv unit (Int.neg_le_neg le)
  omega

theorem ticks_nonneg (pos : 0 < x.quanta) (h : Number.le 0 a) :
    Number.le 0 ((a.mul (scalar x)).sub tickSlack).ceil := by
  have product : Number.le 0 (a.mul (scalar x)) := by
    have zero : (0 : Number).quanta? = some 0 := by decide +kernel
    refine le_trans (le_of_rank rank_zero (rank_mul_scalar pos zero) ▸ ?_) (mul_mono pos h)
    simp [roundedRank, rankOfQuotient, signedRank]
  -- The slack is less than one, so zero without it is rounded up to a zero again.
  have zero : Number.le 0 ((0 : Number).sub tickSlack).ceil := by decide +kernel
  exact le_trans zero (ceil_mono (sub_slack_mono product))

/-- More seconds never give fewer ticks. -/
theorem secondsToTicks_mono (pos : 0 < x.quanta) (h : a.le b) :
    (secondsToTicks a (scalar x)).le (secondsToTicks b (scalar x)) := by
  rw [secondsToTicks, secondsToTicks]
  split
  · split
    · exact zero_le_zero
    · next later =>
      obtain ⟨r, s, -, place, -⟩ := le_iff.1 h
      refine ticks_nonneg pos ?_
      rw [le_of_rank place rank_zero, decide_eq_true_eq] at later
      rw [le_of_rank rank_zero place, decide_eq_true_eq]
      omega
  · next later =>
    rw [if_neg fun none => later (le_trans h none)]
    exact ceil_mono (sub_slack_mono (mul_mono pos h))

theorem secondsToTicks_zero (rate : Number) : secondsToTicks 0 rate = 0 := by
  rw [secondsToTicks, if_pos zero_le_zero]

/-! ### The greatest of some numbers -/

/-- A number is the greatest of some, up to the sign of zero, or zero if there are none. -/
structure IsGreatestOf (x : Number) (xs : List Number) : Prop where
  zero : xs = [] → x = 0
  mem : xs ≠ [] → ∃ y ∈ xs, y.same x
  le : ∀ y ∈ xs, y.le x

theorem same_of_le (h : a.le b) (h' : b.le a) : a.same b := by
  obtain ⟨r, s, place, place', le⟩ := le_iff.1 h
  rw [le_of_rank place' place, decide_eq_true_eq] at h'
  rw [same_of_rank place place', decide_eq_true_eq]
  exact Int.le_antisymm le h'

theorem max_eq_or (a b : Number) : a.max b = nan ∨ a.max b = a ∨ a.max b = b := by
  rw [Number.max]
  split
  · exact .inl rfl
  · split
    · exact .inr (.inr rfl)
    · exact .inr (.inl rfl)

/-- Numbers from zero on are bounded by the greatest that a search among them comes to, which is one
of them. -/
theorem foldl_max_spec (xs : List Number) (first : Number)
    (nonneg : ∀ y ∈ first :: xs, Number.le 0 y) :
    (∀ y ∈ first :: xs, y.le (xs.foldl Number.max first)) ∧
      xs.foldl Number.max first ∈ first :: xs := by
  induction xs generalizing first with
  | nil =>
    have own : first.le first := by
      obtain ⟨r, s, -, place, -⟩ := le_iff.1 (nonneg first List.mem_cons_self)
      rw [le_of_rank place place, decide_eq_true_eq]
    exact ⟨fun y mem => List.mem_singleton.1 mem ▸ own, List.mem_singleton_self first⟩
  | cons x xs ih =>
    obtain ⟨first0, rest⟩ := List.forall_mem_cons.1 nonneg
    obtain ⟨-, r, -, place, -⟩ := le_iff.1 first0
    obtain ⟨-, s, -, place', -⟩ := le_iff.1 (rest x List.mem_cons_self)
    have left := le_max_left place place'
    have right := le_max_right place place'
    obtain ⟨bounds, mem⟩ := ih (first.max x) (List.forall_mem_cons.2
      ⟨le_trans first0 left, fun y hy => rest y (List.mem_cons_of_mem _ hy)⟩)
    obtain ⟨greater, others⟩ := List.forall_mem_cons.1 bounds
    rw [List.foldl_cons]
    refine ⟨List.forall_mem_cons.2 ⟨le_trans left greater, List.forall_mem_cons.2
      ⟨le_trans right greater, others⟩⟩, ?_⟩
    rcases List.mem_cons.1 mem with found | found
    · rw [found]
      rcases max_eq_or first x with none | same | same
      · obtain ⟨r, s, -, place, -⟩ := le_iff.1 left
        rw [none] at place
        cases place
      · rw [same]
        exact List.mem_cons_self
      · rw [same]
        exact List.mem_cons_of_mem _ List.mem_cons_self
    · exact List.mem_cons_of_mem _ (List.mem_cons_of_mem _ found)

theorem isGreatestOf_foldl_max {xs : List Number} (nonneg : ∀ y ∈ xs, Number.le 0 y) :
    (xs.foldl Number.max 0).IsGreatestOf xs := by
  obtain ⟨bounds, mem⟩ :=
    foldl_max_spec xs 0 (List.forall_mem_cons.2 ⟨zero_le_zero, nonneg⟩)
  obtain ⟨-, le⟩ := List.forall_mem_cons.1 bounds
  refine ⟨fun none => none ▸ rfl, fun some => ?_, le⟩
  rcases List.mem_cons.1 mem with zero | found
  · -- The search ends where it began, so none of them is above zero.
    obtain ⟨y, rest, rfl⟩ := List.exists_cons_of_ne_nil some
    refine ⟨y, List.mem_cons_self, ?_⟩
    rw [zero] at le ⊢
    exact same_of_le (le y List.mem_cons_self) (nonneg y List.mem_cons_self)
  · refine ⟨_, found, same_of_le ?_ ?_⟩ <;> exact le _ found

end Number

/-! ### Spans -/

namespace Span

/-- The ticks of a span at a rate. -/
def ticks (rate : Number) (s : Span) : Number := secondsToTicks s.number rate

variable {x : Scalar} {spans : List Span}

theorem ticks_zero (rate : Number) : (0 : Span).ticks rate = 0 := by
  have zero : (0 : Span).number = 0 := by decide +kernel
  rw [ticks, zero, Number.secondsToTicks_zero]

theorem ticks_mono (pos : 0 < x.quanta) {s t : Span} (le : s.seconds ≤ t.seconds) :
    (s.ticks (.scalar x)).le (t.ticks (.scalar x)) := by
  refine Number.secondsToTicks_mono pos ?_
  rw [Number.le_of_rank (r := s.seconds.quanta) (s := t.seconds.quanta) rfl rfl]
  exact decide_eq_true le

theorem ticks_nonneg (pos : 0 < x.quanta) (s : Span) : Number.le 0 (s.ticks (.scalar x)) := by
  have first := ticks_mono (s := 0) pos s.nonneg
  rw [ticks_zero] at first
  exact first

/-- The ticks of the longest of some spans are the greatest of their ticks. -/
theorem isGreatestOf_longest (pos : 0 < x.quanta) (spans : List Span) :
    ((longest spans).ticks (.scalar x)).IsGreatestOf (spans.map (ticks (.scalar x))) where
  zero none := by
    rw [List.map_eq_nil_iff.1 none]
    exact ticks_zero _
  mem some := by
    have own := ticks_mono pos (Int.le_refl (longest spans).seconds.quanta)
    exact ⟨_, List.mem_map_of_mem (longest_mem fun none => some (none ▸ rfl)),
      Number.same_of_le own own⟩
  le := by
    rw [List.forall_mem_map]
    exact fun s mem => ticks_mono pos (le_longest mem)

/-- The greatest of the ticks of some spans is found by a search that begins with zero. -/
theorem isGreatestOf_foldl_max (pos : 0 < x.quanta) (spans : List Span) :
    ((spans.map (ticks (.scalar x))).foldl Number.max 0).IsGreatestOf
      (spans.map (ticks (.scalar x))) := by
  refine Number.isGreatestOf_foldl_max ?_
  rw [List.forall_mem_map]
  exact fun s _ => ticks_nonneg pos s

end Span

/-! ### The law of ticks -/

/-- What is known of the conversion of seconds to ticks at a rate. -/
structure TickLaw (rate : Number) : Prop where
  /-- Ticks are computed by the formula, with rounding. -/
  formula : secondsToTicks = Arithmetic.rounded.ticks
  zero : secondsToTicks 0 rate = 0
  mono : ∀ a b : Number, a.le b → (secondsToTicks a rate).le (secondsToTicks b rate)
  /-- Without rounding, the formula gives the least whole number that covers the product, but for
  the slack. -/
  least : ∀ s r : ℚ, 0 < s → ∃ n : ℤ, Arithmetic.exact.ticks s r = n ∧
    IsLeast {m : ℤ | s * r - 1 / 10 ^ 9 ≤ m} n
  mono_seconds : ∀ s s' r : ℚ, 0 ≤ r → s ≤ s' →
    Arithmetic.exact.ticks s r ≤ Arithmetic.exact.ticks s' r
  mono_rate : ∀ s r r' : ℚ, r ≤ r' → Arithmetic.exact.ticks s r ≤ Arithmetic.exact.ticks s r'

theorem tickLaw {x : Scalar} (pos : 0 < x.quanta) : TickLaw (.scalar x) where
  formula := Arithmetic.rounded_ticks.symm
  zero := Number.secondsToTicks_zero _
  mono _ _ := Number.secondsToTicks_mono pos
  least _ _ := Arithmetic.exact_ticks_isLeast
  mono_seconds _ _ _ := Arithmetic.exact_ticks_mono_seconds
  mono_rate _ _ _ := Arithmetic.exact_ticks_mono_rate

end SceneLogic
