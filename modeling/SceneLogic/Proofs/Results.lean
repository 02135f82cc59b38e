/-
Results of steps that may fail.

A chain of steps succeeds by the success of each of them (`bind_eq_ok`), and a step that is done
for every item of a list succeeds by its success for each (`mapM_eq_ok_iff`) and fails as it does
for the first item for which it fails (`mapM_eq_error_iff`).
-/
import Mathlib.Data.List.Forall2
import SceneLogic.Fault
namespace SceneLogic

variable {α β γ : Type}

/-- A chain goes on with the result of its first step. -/
theorem bind_of_eq_ok {x : Except Fault α} {f : α → Except Fault β} {r : Except Fault β} {a : α}
    (h : x = .ok a) (rest : f a = r) : (x >>= f) = r := by
  rw [h]
  exact rest

/-- A chain of two steps succeeds by the success of both. -/
theorem bind_eq_ok {x : Except Fault α} {f : α → Except Fault β} {b : β} :
    (x >>= f) = .ok b ↔ ∃ a, x = .ok a ∧ f a = .ok b := by
  cases x with
  | error fault =>
    constructor
    · intro h
      cases h
    · rintro ⟨a, h, -⟩
      cases h
  | ok a =>
    constructor
    · intro h
      exact ⟨a, rfl, h⟩
    · rintro ⟨a', same, h⟩
      cases same
      exact h

/-- A chain of two steps fails in its first step or in its second. -/
theorem bind_eq_error {x : Except Fault α} {f : α → Except Fault β} {fault : Fault} :
    (x >>= f) = .error fault ↔ x = .error fault ∨ ∃ a, x = .ok a ∧ f a = .error fault := by
  cases x with
  | error first =>
    constructor
    · intro h
      cases h
      exact .inl rfl
    · rintro (h | ⟨a, h, -⟩)
      · cases h
        rfl
      · cases h
  | ok a =>
    constructor
    · intro h
      exact .inr ⟨a, rfl, h⟩
    · rintro (h | ⟨a', same, h⟩)
      · cases h
      · cases same
        exact h

theorem exists_of_map_eq_ok {x : Except Fault α} {f : α → β} {b : β} (h : x.map f = .ok b) :
    ∃ a, x = .ok a ∧ f a = b := by
  cases x with
  | error fault => cases h
  | ok a => exact ⟨a, rfl, Except.ok.inj h⟩

theorem exists_of_forall₂ {R : α → β → Prop} {xs : List α} {ys : List β}
    (related : List.Forall₂ R xs ys) {y : β} (mem : y ∈ ys) : ∃ x ∈ xs, R x y := by
  induction related with
  | nil => cases mem
  | cons first _ ih =>
    rcases List.mem_cons.1 mem with rfl | later
    · exact ⟨_, List.mem_cons_self, first⟩
    · obtain ⟨x, there, related⟩ := ih later
      exact ⟨x, List.mem_cons_of_mem _ there, related⟩

theorem forall₂_imp_of_mem {R S : α → β → Prop} {xs : List α} {ys : List β}
    (related : List.Forall₂ R xs ys) (each : ∀ x ∈ xs, ∀ y, R x y → S x y) :
    List.Forall₂ S xs ys := by
  induction related with
  | nil => exact .nil
  | cons first _ ih =>
    obtain ⟨here, others⟩ := List.forall_mem_cons.1 each
    exact .cons (here _ first) (ih others)

/-- The results for a list are those for its items, in order. -/
theorem mapM_eq_ok_iff {f : α → Except Fault β} {xs : List α} {ys : List β} :
    xs.mapM f = .ok ys ↔ List.Forall₂ (fun x y => f x = .ok y) xs ys := by
  induction xs generalizing ys with
  | nil =>
    rw [List.mapM_nil, List.forall₂_nil_left_iff]
    constructor
    · rintro ⟨⟩
      rfl
    · rintro rfl
      rfl
  | cons x xs ih =>
    rw [List.mapM_cons, bind_eq_ok, List.forall₂_cons_left_iff]
    constructor
    · rintro ⟨y, first, h⟩
      obtain ⟨ys, rest, same⟩ := bind_eq_ok.1 h
      cases same
      exact ⟨y, ys, first, ih.1 rest, rfl⟩
    · rintro ⟨y, ys, first, rest, rfl⟩
      exact ⟨y, first, bind_eq_ok.2 ⟨ys, ih.2 rest, rfl⟩⟩

/-- What fails for a list fails for its first item that fails. -/
theorem mapM_eq_error_iff {f : α → Except Fault β} {xs : List α} {fault : Fault} :
    xs.mapM f = .error fault ↔
      ∃ before x after, xs = before ++ x :: after ∧ (∀ y ∈ before, ∃ b, f y = .ok b) ∧
        f x = .error fault := by
  induction xs with
  | nil =>
    constructor
    · rintro ⟨⟩
    · rintro ⟨before, x, after, split, -⟩
      exact absurd split.symm (by simp)
  | cons x xs ih =>
    rw [List.mapM_cons, bind_eq_error]
    constructor
    · rintro (first | ⟨b, succeeds, h⟩)
      · exact ⟨[], x, xs, rfl, List.forall_mem_nil _, first⟩
      · rcases bind_eq_error.1 h with rest | ⟨ys, -, h⟩
        · obtain ⟨before, x', after, rfl, passed, fails⟩ := ih.1 rest
          exact ⟨x :: before, x', after, rfl, List.forall_mem_cons.2 ⟨⟨b, succeeds⟩, passed⟩, fails⟩
        · cases h
    · rintro ⟨before, x', after, split, passed, fails⟩
      cases before with
      | nil =>
        cases split
        exact .inl fails
      | cons y before =>
        cases split
        obtain ⟨⟨b, succeeds⟩, passed⟩ := List.forall_mem_cons.1 passed
        exact .inr ⟨b, succeeds, bind_eq_error.2 (.inl (ih.2 ⟨before, x', after, rfl, passed, fails⟩))⟩

theorem mapM_eq_error {f : α → Except Fault β} {xs : List α} {fault : Fault}
    (h : xs.mapM f = .error fault) : ∃ x ∈ xs, f x = .error fault := by
  obtain ⟨before, x, after, rfl, -, fails⟩ := mapM_eq_error_iff.1 h
  exact ⟨x, by simp, fails⟩

theorem mapM_map_eq_ok {f : β → Except Fault γ} {g : α → β} {h : α → γ} {xs : List α}
    (each : ∀ x ∈ xs, f (g x) = .ok (h x)) : (xs.map g).mapM f = .ok (xs.map h) :=
  mapM_eq_ok_iff.2 (List.forall₂_map_left_iff.2 (List.forall₂_map_right_iff.2
    (List.forall₂_same.2 each)))

theorem mapM_eq_ok {f : α → Except Fault β} {g : α → β} {xs : List α}
    (each : ∀ x ∈ xs, f x = .ok (g x)) : xs.mapM f = .ok (xs.map g) :=
  mapM_eq_ok_iff.2 (List.forall₂_map_right_iff.2 (List.forall₂_same.2 each))

end SceneLogic
