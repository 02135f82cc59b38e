/-
The order of numbers.

Numbers are compared by their places (`Number.rank`), infinities lying just beyond the finite ones.
An operation that leaves infinities alone and is monotone on the places of finite numbers keeps the
order, whatever it rounds to (`Number.le_of_monotone`); adding a finite number is one
(`Number.add_mono`).
-/
import SceneLogic.Proofs.Number.Rounding
namespace SceneLogic.Number

attribute [local irreducible] quantaPerUnit quantaLimit

variable {a b c : Number}

/-! ### Places -/

theorem le_iff : a.le b ↔ ∃ r s, a.rank = some r ∧ b.rank = some s ∧ r ≤ s := by
  rw [le, compareBy]
  cases a.rank <;> cases b.rank <;> simp

theorem lt_iff : a.lt b ↔ ∃ r s, a.rank = some r ∧ b.rank = some s ∧ r < s := by
  rw [lt, compareBy]
  cases a.rank <;> cases b.rank <;> simp

/-- A number is none, infinite, or has quanta that place it between the infinities. -/
theorem cases_rank (a : Number) :
    a = nan ∨ (∃ negative, a = infinity negative) ∨
      ∃ q, a.quanta? = some q ∧ a.rank = some q ∧ q.natAbs < quantaLimit := by
  cases a with
  | nan => exact .inl rfl
  | infinity negative => exact .inr (.inl ⟨negative, rfl⟩)
  | negativeZero => exact .inr (.inr ⟨0, rfl, rfl, Scalar.quantaLimit_pos⟩)
  | scalar x => exact .inr (.inr ⟨x.quanta, rfl, rfl, x.representable.1⟩)

theorem rank_bounds {r : Int} (h : a.rank = some r) : r.natAbs ≤ quantaLimit := by
  rcases a.cases_rank with rfl | ⟨negative, rfl⟩ | ⟨q, -, rank, below⟩
  · cases h
  · cases negative <;> cases h <;> simp
  · cases rank.symm.trans h
    exact Nat.le_of_lt below

theorem le_trans (h : a.le b) (h' : b.le c) : a.le c := by
  obtain ⟨r, s, place, place', le⟩ := le_iff.1 h
  obtain ⟨s', t, again, place'', le'⟩ := le_iff.1 h'
  have same : s = s' := Option.some_inj.1 (place'.symm.trans again)
  exact le_iff.2 ⟨r, t, place, place'', by omega⟩

theorem zero_le_zero : Number.le 0 0 := by
  rw [le_of_rank rank_zero rank_zero, decide_eq_true_eq]

/-- A number is not above zero or it is, unless it is none. -/
theorem zero_lt_iff {r : Int} (h : a.rank = some r) : Number.lt 0 a ↔ ¬ a.le 0 := by
  rw [lt_of_rank rank_zero h, le_of_rank h rank_zero, decide_eq_true_eq, decide_eq_true_eq]
  exact Int.not_le.symm

theorem lt_of_lt_of_le (h : a.lt b) (h' : b.le c) : a.lt c := by
  obtain ⟨r, s, place, place', less⟩ := lt_iff.1 h
  obtain ⟨s', t, again, place'', le⟩ := le_iff.1 h'
  have same : s = s' := Option.some_inj.1 (place'.symm.trans again)
  exact lt_iff.2 ⟨r, t, place, place'', by omega⟩

theorem not_zero_lt_zero : ¬ Number.lt 0 0 := by
  rw [lt_of_rank rank_zero rank_zero, decide_eq_true_eq]
  exact Int.lt_irrefl 0

theorem le_max_left {r s : Int} (ha : a.rank = some r) (hb : b.rank = some s) :
    a.le (a.max b) := by
  rw [le_of_rank ha (rank_max ha hb), decide_eq_true_eq]
  exact Int.le_max_left r s

theorem le_max_right {r s : Int} (ha : a.rank = some r) (hb : b.rank = some s) :
    b.le (a.max b) := by
  rw [le_of_rank hb (rank_max ha hb), decide_eq_true_eq]
  exact Int.le_max_right r s

/-! ### What keeps the order -/

/-- What leaves infinities alone and keeps the order of finite numbers keeps the order: a result is
never beyond the infinities, wherever it comes from. -/
theorem le_of_monotone {f : Number → Number} {g : Int → Int}
    (outer : ∀ negative, f (infinity negative) = infinity negative)
    (inner : ∀ a q, a.quanta? = some q → (f a).rank = some (g q))
    (mono : ∀ q q', q ≤ q' → g q ≤ g q') (h : a.le b) : (f a).le (f b) := by
  obtain ⟨r, s, place, place', le⟩ := le_iff.1 h
  rcases a.cases_rank with rfl | ⟨negative, rfl⟩ | ⟨q, value, rank, below⟩
  · cases place
  · rcases b.cases_rank with rfl | ⟨negative', rfl⟩ | ⟨q', value', rank', below'⟩
    · cases place'
    · rw [outer, outer]
      exact h
    · have bounds := rank_bounds (inner b q' value')
      have same : q' = s := Option.some_inj.1 (rank'.symm.trans place')
      rw [outer, le_of_rank place (inner b q' value'), decide_eq_true_eq]
      cases negative <;> cases place <;> omega
  · have same : q = r := Option.some_inj.1 (rank.symm.trans place)
    rcases b.cases_rank with rfl | ⟨negative', rfl⟩ | ⟨q', value', rank', below'⟩
    · cases place'
    · have bounds := rank_bounds (inner a q value)
      rw [outer, le_of_rank (inner a q value) place', decide_eq_true_eq]
      cases negative' <;> cases place' <;> omega
    · have same' : q' = s := Option.some_inj.1 (rank'.symm.trans place')
      rw [le_of_rank (inner a q value) (inner b q' value'), decide_eq_true_eq]
      exact mono q q' (by omega)

/-- The place of a quotient once it is rounded. -/
def roundedRank (d : Nat) (q : Int) : Int :=
  signedRank (decide (q < 0)) (rankOfQuotient q.natAbs d)

theorem roundedRank_mono (d : Nat) {q q' : Int} (le : q ≤ q') :
    roundedRank d q ≤ roundedRank d q' :=
  signedRank_mono (fun _ _ => rankOfQuotient_mono d) le

theorem rank_ofQuanta (q : Int) : (ofQuanta q).rank = some (roundedRank 1 q) :=
  rank_ofQuotient _ _ _

theorem add_scalar {q : Int} (h : a.quanta? = some q) (y : Scalar) :
    a.add (scalar y) = ofQuanta (q + y.quanta) := by
  cases a with
  | nan => cases h
  | infinity negative => cases h
  | negativeZero =>
    cases h
    rfl
  | scalar x =>
    cases h
    rfl

theorem add_mono (y : Scalar) (h : a.le b) : (a.add (scalar y)).le (b.add (scalar y)) := by
  refine le_of_monotone (f := fun a => a.add (scalar y))
    (g := fun q => roundedRank 1 (q + y.quanta)) (fun _ => rfl) ?_ ?_ h
  · intro a q value
    rw [add_scalar value, rank_ofQuanta]
  · intro q q' le
    exact roundedRank_mono 1 (Int.add_le_add_right le _)

end SceneLogic.Number
