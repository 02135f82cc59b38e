/-
The full names of nodes.

A node is known by its carrier and its local name, so nodes of one carrier with different local
names have different full names (`nodeId_inj`).  The numbered local names differ from each other and
from the fixed ones (`numbered_inj`, `numbered_ne`).
-/
import Mathlib.Data.List.Infix
import SceneLogic.Compile.Blueprint
namespace SceneLogic

theorem nodeId_inj {carrier a b : String} : nodeId carrier a = nodeId carrier b ↔ a = b := by
  constructor
  · intro h
    exact (String.append_right_inj _).1 h
  · rintro rfl
    rfl

namespace Blueprint

/-- A number can be read back from its digits. -/
theorem repr_inj {i j : Nat} (h : Nat.repr i = Nat.repr j) : i = j := by
  have digits : Nat.toDigits 10 i = Nat.toDigits 10 j := by
    rw [← Nat.toList_repr, ← Nat.toList_repr, h]
  rw [← Nat.ofDigitChars_ten_toDigits (n := i), digits, Nat.ofDigitChars_ten_toDigits]

theorem numbered_inj {stem : String} {i j : Nat} :
    stem ++ Nat.repr i = stem ++ Nat.repr j ↔ i = j := by
  constructor
  · intro h
    exact repr_inj ((String.append_right_inj _).1 h)
  · rintro rfl
    rfl

/-- A name that does not begin with a stem is not numbered behind it. -/
theorem numbered_ne {stem name : String} (h : ¬ stem.toList <+: name.toList) (i : Nat) :
    stem ++ Nat.repr i ≠ name := by
  rintro rfl
  rw [String.toList_append] at h
  exact h (List.prefix_append _ _)

theorem dispatchName_inj {i j : Nat} : dispatchName i = dispatchName j ↔ i = j := numbered_inj

theorem scheduleName_inj {i j : Nat} : scheduleName i = scheduleName j ↔ i = j := numbered_inj

theorem dispatchName_ne {name : String} (h : ¬ "dispatch_".toList <+: name.toList) (i : Nat) :
    dispatchName i ≠ name :=
  numbered_ne h i

theorem scheduleName_ne {name : String} (h : ¬ "schedule_".toList <+: name.toList) (i : Nat) :
    scheduleName i ≠ name :=
  numbered_ne h i

theorem dispatchName_beq {name : String} (h : ¬ "dispatch_".toList <+: name.toList) (i : Nat) :
    (dispatchName i == name) = false :=
  beq_false_of_ne (dispatchName_ne h i)

/-- A later number is not the first one. -/
theorem dispatchName_later_beq (first i : Nat) :
    (dispatchName (first + (i + 1)) == dispatchName first) = false := by
  rw [beq_eq_false_iff_ne, Ne, dispatchName_inj]
  omega

theorem dispatchName_ne_scheduleName (i j : Nat) : dispatchName i ≠ scheduleName j := by
  refine dispatchName_ne ?_ i
  show ¬ "dispatch_".toList <+: ("schedule_" ++ Nat.repr j).toList
  rw [String.toList_append]
  rintro ⟨rest, h⟩
  have first := congrArg List.head? h
  simp at first

end Blueprint

end SceneLogic
