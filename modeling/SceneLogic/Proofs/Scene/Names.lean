/-
Claims in a row.

A claim adds one name to those that are taken (`Names.isTaken_of_claim`), and releasing it gives
back the registry as it was (`Names.release_of_claim`).  Names that are claimed one after the other
differ from each other and from all that was taken before, and afterwards exactly they are claimed
in addition (`Names.ClaimsAll`).
-/
import Mathlib.Data.List.Nodup
import SceneLogic.Scene.Names
namespace SceneLogic

namespace Table

variable {α : Type}

/-- Of the entry of a name nothing is left when it is taken out, whatever was entered. -/
theorem erase_insert_self (t : Table α) (name : String) (value : α) :
    (t.insert name value).erase name = t.erase name := by
  have entries : ∀ xs : List (String × α),
      (insertEntry name value xs).filter (fun e => e.1 ≠ name) = xs.filter (fun e => e.1 ≠ name) := by
    intro xs
    induction xs with
    | nil => simp [insertEntry]
    | cons e xs ih =>
      unfold insertEntry
      split
      · next same =>
        rw [List.filter_cons_of_neg (by simp), List.filter_cons_of_neg (by simp [same])]
      · split
        · rw [List.filter_cons_of_neg (by simp)]
        · rw [List.filter_cons, List.filter_cons, ih]
  simp only [insert, erase, entries t.entries]

theorem erase_erase_self (t : Table α) (name : String) :
    (t.erase name).erase name = t.erase name := by
  simp only [erase, List.filter_filter, Bool.and_self]

/-- Taking out what is not there changes nothing. -/
theorem erase_of_absent {t : Table α} {name : String} (absent : t.get? name = none) :
    t.erase name = t := by
  have other : ∀ e ∈ t.entries, e.1 ≠ name := by
    rintro ⟨k, v⟩ mem rfl
    exact absurd absent (by simpa [get?, List.lookup_eq_none_iff] using ⟨v, mem⟩)
  simp only [erase, List.filter_eq_self.2 fun e he => decide_eq_true (other e he)]

/-- Entering a value under a new name and taking it out again changes nothing. -/
theorem erase_insert {t : Table α} {name : String} (value : α) (h : t.get? name = none) :
    (t.insert name value).erase name = t := by
  rw [erase_insert_self, erase_of_absent h]

end Table

namespace Names

variable {names names' : Names} {name : String} {kind : NameKind}

theorem isTaken_iff (names : Names) (name : String) :
    names.isTaken name ↔ (names.claims.get? name).isSome ∨ Reserved.isReserved name := by
  rw [isTaken, holder?, Reserved.isReserved]
  cases names.claims.get? name <;> simp

/-- A name can be claimed if it is neither blank nor taken. -/
theorem claim_eq_ok : names.claim name kind = .ok names' ↔
    ¬ Text.Blank name ∧ names.isTaken name = false ∧
      names' = ⟨names.claims.insert name kind⟩ := by
  rw [claim, isTaken]
  split
  · next blank => simp [blank]
  · next present =>
    cases names.holder? name with
    | none => simp [present, eq_comm]
    | some holder => simp

theorem get?_of_not_taken (h : names.isTaken name = false) : names.claims.get? name = none := by
  rw [Bool.eq_false_iff, Ne, isTaken_iff, not_or] at h
  simpa using h.1

theorem isTaken_of_claim (h : names.claim name kind = .ok names') (other : String) :
    names'.isTaken other ↔ other = name ∨ names.isTaken other := by
  obtain ⟨-, -, rfl⟩ := claim_eq_ok.1 h
  rw [isTaken_iff, isTaken_iff, Table.get?_insert]
  by_cases same : other = name <;> simp [same]

/-- **Releasing a claim undoes it.** -/
theorem release_of_claim (h : names.claim name kind = .ok names') : names'.release name = names := by
  obtain ⟨-, free, rfl⟩ := claim_eq_ok.1 h
  rw [release, Table.erase_insert kind (get?_of_not_taken free)]

/-- Names are claimed one after the other for carriers of logic. -/
inductive ClaimsAll : Names → List String → Names → Prop
  | nil {names : Names} : ClaimsAll names [] names
  | cons {names names₁ names₂ : Names} {name : String} {rest : List String} :
      names.claim name .logic = .ok names₁ → ClaimsAll names₁ rest names₂ →
      ClaimsAll names (name :: rest) names₂

namespace ClaimsAll

variable {claimed : List String}

theorem isTaken (h : ClaimsAll names claimed names') (other : String) :
    names'.isTaken other ↔ other ∈ claimed ∨ names.isTaken other := by
  induction h with
  | nil => simp
  | cons first _ ih => rw [ih, isTaken_of_claim first, List.mem_cons, or_left_comm, or_assoc]

/-- Names claimed in a row were free, and they differ from each other. -/
theorem fresh (h : ClaimsAll names claimed names') :
    claimed.Nodup ∧ ∀ name ∈ claimed, names.isTaken name = false := by
  induction h with
  | nil => simp
  | @cons names names₁ names₂ name rest first _ ih =>
    obtain ⟨nodup, free⟩ := ih
    obtain ⟨-, new, -⟩ := claim_eq_ok.1 first
    have apart : ∀ other ∈ rest, ¬ (other = name ∨ names.isTaken other) := by
      intro other mem
      rw [← isTaken_of_claim first, free other mem]
      exact Bool.false_ne_true
    rw [List.nodup_cons, List.forall_mem_cons]
    refine ⟨⟨fun mem => apart name mem (.inl rfl), nodup⟩, new, fun other mem => ?_⟩
    exact Bool.eq_false_iff.2 fun taken => apart other mem (.inr taken)

theorem get? (h : ClaimsAll names claimed names') (other : String) :
    names'.claims.get? other =
      if other ∈ claimed then some .logic else names.claims.get? other := by
  induction h with
  | nil => simp
  | @cons names names₁ names₂ name rest first _ ih =>
    obtain ⟨-, -, rfl⟩ := claim_eq_ok.1 first
    rw [ih, Table.get?_insert]
    by_cases later : other ∈ rest <;> by_cases same : other = name <;> simp [later, same]

end ClaimsAll

end Names

end SceneLogic
