/-
Numbers as exact counts of the smallest step.

Times, positions, tick counts and rates are binary64 numbers.  A finite one is a whole number
of quanta of 2⁻¹⁰⁷⁴ with at most 53 significant binary digits (`Representable`), so it is
held as an integer (`Scalar`) and arithmetic is integer arithmetic followed by one rounding:

* `roundQuotient n d` is the representable count nearest to `n / d`, a tie going to the even
  one; `roundQuotient_representable` says that it has at most 53 significant digits.
* `Number.ofQuotient` makes a number of it, infinite beyond the greatest finite count.
* `Number.lt`, `Number.le` and `Number.same` compare by `Number.rank`; nothing compares with
  a number that is not one (`Number.nan`).

A `Scalar` has one zero.  `Number` also has the zero below it, which only shows as a divisor.
-/
namespace SceneLogic

/-! ### Finite values -/

/-- The number of quanta in one. -/
def quantaPerUnit : Nat := Nat.pow 2 1074

/-- The least count of quanta that is beyond every finite value. -/
def quantaLimit : Nat := Nat.pow 2 2098

/-- A count with at most 53 significant binary digits. -/
def Precise (m : Nat) : Prop := ∃ t s, m = t * Nat.pow 2 s ∧ t < Nat.pow 2 53

/-- A count that a finite value can have. -/
def Representable (m : Nat) : Prop := m < quantaLimit ∧ Precise m

/-- A finite value, as its number of quanta. -/
structure Scalar where
  quanta : Int
  representable : Representable quanta.natAbs
deriving DecidableEq

namespace Scalar

theorem quantaLimit_pos : 0 < quantaLimit := by
  unfold quantaLimit
  exact Nat.two_pow_pos 2098

theorem representable_zero : Representable 0 :=
  ⟨quantaLimit_pos, 0, 0, by simp, by decide⟩

instance : Zero Scalar := ⟨⟨0, representable_zero⟩⟩
instance : Inhabited Scalar := ⟨0⟩

instance : LE Scalar := ⟨fun x y => x.quanta ≤ y.quanta⟩
instance : LT Scalar := ⟨fun x y => x.quanta < y.quanta⟩

instance (x y : Scalar) : Decidable (x ≤ y) := inferInstanceAs (Decidable (x.quanta ≤ y.quanta))
instance (x y : Scalar) : Decidable (x < y) := inferInstanceAs (Decidable (x.quanta < y.quanta))

/-- A value without a fractional part. -/
def isWhole (x : Scalar) : Bool := x.quanta.natAbs % quantaPerUnit == 0

/-- The opposite value. -/
def neg (x : Scalar) : Scalar := ⟨-x.quanta, by simpa using x.representable⟩

end Scalar

/-! ### Rounding -/

/-- The binary exponent of the last of 53 digits of a count. -/
def lastPlace (q : Nat) : Nat := q.log2 + 1 - 53

/-- The count nearest to `n / d` with at most 53 significant digits; of two equally near ones
that with an even last digit. -/
def roundQuotient (n d : Nat) : Nat :=
  let step := Nat.pow 2 (lastPlace (n / d))
  let below := n / (d * step)
  let rest := n % (d * step)
  if 2 * rest < d * step ∨ (2 * rest = d * step ∧ below % 2 = 0) then below * step
  else (below + 1) * step

theorem div_step_lt (q : Nat) : q / Nat.pow 2 (lastPlace q) < Nat.pow 2 53 := by
  rw [Nat.pow_eq, Nat.pow_eq, Nat.div_lt_iff_lt_mul (Nat.two_pow_pos _), ← Nat.pow_add]
  refine Nat.lt_of_lt_of_le Nat.lt_log2_self (Nat.pow_le_pow_right (by decide) ?_)
  unfold lastPlace
  omega

/-- Rounding leaves at most 53 significant digits. -/
theorem roundQuotient_precise (n d : Nat) : Precise (roundQuotient n d) := by
  have below : n / (d * Nat.pow 2 (lastPlace (n / d))) < Nat.pow 2 53 := by
    rw [← Nat.div_div_eq_div_mul]
    exact div_step_lt _
  unfold roundQuotient
  dsimp only
  split
  · exact ⟨_, _, rfl, below⟩
  · by_cases h : n / (d * Nat.pow 2 (lastPlace (n / d))) + 1 = Nat.pow 2 53
    · refine ⟨1, 53 + lastPlace (n / d), ?_, by decide⟩
      rw [h, Nat.one_mul, Nat.pow_eq, Nat.pow_eq, Nat.pow_eq, Nat.pow_add]
    · exact ⟨_, _, rfl, by omega⟩

theorem roundQuotient_representable {n d : Nat} (h : roundQuotient n d < quantaLimit) :
    Representable (roundQuotient n d) :=
  ⟨h, roundQuotient_precise n d⟩

/-! ### Numbers -/

/-- A binary64 number. -/
inductive Number where
  | nan
  | infinity (negative : Bool)
  | negativeZero
  | scalar (x : Scalar)
deriving DecidableEq, Inhabited

namespace Number

instance : Coe Scalar Number := ⟨scalar⟩

/-- The number nearest to `± n / d`, for a positive `d`. -/
def ofQuotient (negative : Bool) (n d : Nat) : Number :=
  if h : roundQuotient n d < quantaLimit then
    if negative then
      if roundQuotient n d = 0 then negativeZero
      else scalar ⟨-(roundQuotient n d : Int), by
        rw [Int.natAbs_neg, Int.natAbs_natCast]; exact roundQuotient_representable h⟩
    else scalar ⟨(roundQuotient n d : Int), by
        rw [Int.natAbs_natCast]; exact roundQuotient_representable h⟩
  else infinity negative

/-- The number nearest to an integer count of quanta. -/
def ofQuanta (q : Int) : Number := ofQuotient (decide (q < 0)) q.natAbs 1

/-- The number nearest to an integer. -/
def ofInt (n : Int) : Number := ofQuanta (n * quantaPerUnit)

/-- The number nearest to a natural number. -/
def ofNat (n : Nat) : Number := ofInt n

instance (n : Nat) : OfNat Number n := ⟨ofNat n⟩

/-- The exact count of quanta of a finite number. -/
def quanta? : Number → Option Int
  | negativeZero => some 0
  | scalar x => some x.quanta
  | _ => none

/-- The finite value of a number, the two zeros being one. -/
def toScalar? : Number → Option Scalar
  | negativeZero => some 0
  | scalar x => some x
  | _ => none

/-- Neither infinite nor undefined. -/
def isFinite (a : Number) : Bool := a.toScalar?.isSome

/-- Finite and without a fractional part. -/
def isWhole (a : Number) : Bool := a.toScalar?.any Scalar.isWhole

/-- Carries a minus sign. -/
def isNegative : Number → Bool
  | nan => false
  | infinity negative => negative
  | negativeZero => true
  | scalar x => decide (x.quanta < 0)

/-! ### Order -/

/-- The place of a number in the order, in quanta; infinities lie just beyond the finite ones. -/
def rank : Number → Option Int
  | nan => none
  | infinity true => some (-(quantaLimit : Int))
  | infinity false => some quantaLimit
  | negativeZero => some 0
  | scalar x => some x.quanta

/-- Compares by rank; false as soon as one side is not a number. -/
def compareBy (r : Int → Int → Bool) (a b : Number) : Bool :=
  match a.rank, b.rank with
  | some x, some y => r x y
  | _, _ => false

/-- Less than. -/
def lt (a b : Number) : Bool := compareBy (fun x y => decide (x < y)) a b

/-- Less than or equal. -/
def le (a b : Number) : Bool := compareBy (fun x y => decide (x ≤ y)) a b

/-- Equal as numbers: the two zeros are, and nothing equals `nan`. -/
def same (a b : Number) : Bool := compareBy (fun x y => decide (x = y)) a b

/-- The greater of two numbers, `nan` if either is; of the two zeros, that without a sign. -/
def max (a b : Number) : Number :=
  if a = nan ∨ b = nan then nan else if a.lt b ∨ (a.same b ∧ a.isNegative) then b else a

/-- The lesser of two numbers, `nan` if either is; of the two zeros, that with a sign. -/
def min (a b : Number) : Number :=
  if a = nan ∨ b = nan then nan else if b.lt a ∨ (b.same a ∧ b.isNegative) then b else a

/-! ### Arithmetic -/

/-- The opposite number. -/
def neg : Number → Number
  | nan => nan
  | infinity negative => infinity (!negative)
  | negativeZero => scalar 0
  | scalar x => if x.quanta = 0 then negativeZero else scalar x.neg

instance : Neg Number := ⟨neg⟩

/-- The sum, rounded. -/
def add (a b : Number) : Number :=
  match a, b with
  | nan, _ | _, nan => nan
  | infinity s, infinity t => if s = t then infinity s else nan
  | infinity s, _ => infinity s
  | _, infinity t => infinity t
  | negativeZero, negativeZero => negativeZero
  | a, b => ofQuanta ((a.quanta?.getD 0) + (b.quanta?.getD 0))

/-- The difference, rounded. -/
def sub (a b : Number) : Number := a.add b.neg

/-- The product, rounded. -/
def mul (a b : Number) : Number :=
  let negative := a.isNegative != b.isNegative
  match a, b with
  | nan, _ | _, nan => nan
  | infinity _, b => if b.same 0 then nan else infinity negative
  | a, infinity _ => if a.same 0 then nan else infinity negative
  | a, b => ofQuotient negative ((a.quanta?.getD 0).natAbs * (b.quanta?.getD 0).natAbs) quantaPerUnit

/-- The quotient, rounded. -/
def div (a b : Number) : Number :=
  let negative := a.isNegative != b.isNegative
  match a, b with
  | nan, _ | _, nan => nan
  | infinity _, infinity _ => nan
  | infinity _, _ => infinity negative
  | _, infinity _ => ofQuotient negative 0 1
  | a, b =>
    if b.same 0 then if a.same 0 then nan else infinity negative
    else ofQuotient negative ((a.quanta?.getD 0).natAbs * quantaPerUnit) (b.quanta?.getD 0).natAbs

/-- The least whole number that is not below a finite one; other numbers stay as they are.  A
number with a minus sign that is rounded up to zero keeps the sign. -/
def ceil (a : Number) : Number :=
  match a.toScalar? with
  | some x =>
    let units := -((-x.quanta) / (quantaPerUnit : Int))
    if units = 0 ∧ a.isNegative then negativeZero else ofInt units
  | none => a

end Number

end SceneLogic
