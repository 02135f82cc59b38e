/-
Calls that may be refused.

A call gives a new state or fails, and a call that fails leaves the state as it was.  So what is
known of a state behind the calls that were accepted, and is kept by every call that is accepted,
is known after any calls (`attemptAll_induction`): refused calls leave no trace.  What is told of a
state by the calls before it is followed from call to call: one among them is the last, or it was
among them already (`concat_eq_append_cons_iff`).
-/
import Mathlib.Data.List.Basic
import SceneLogic.Fault
namespace SceneLogic

variable {σ κ : Type} (step : σ → κ → Except Fault σ)

/-- The state after a call, which may be refused. -/
def attempt (s : σ) (c : κ) : σ :=
  match step s c with
  | .ok s' => s'
  | .error _ => s

/-- The state after some calls. -/
def attemptAll (s : σ) (cs : List κ) : σ := cs.foldl (attempt step) s

/-- The calls that are not refused, in order. -/
def accepted (s : σ) : List κ → List κ
  | [] => []
  | c :: cs =>
    match step s c with
    | .ok s' => c :: accepted s' cs
    | .error _ => accepted s cs

variable {step} {s s' : σ} {c : κ}

theorem attempt_of_ok (done : step s c = .ok s') : attempt step s c = s' := by
  rw [attempt, done]

theorem attempt_of_error {fault : Fault} (refused : step s c = .error fault) :
    attempt step s c = s := by
  rw [attempt, refused]

theorem attemptAll_append (s : σ) (cs ds : List κ) :
    attemptAll step s (cs ++ ds) = attemptAll step (attemptAll step s cs) ds :=
  List.foldl_append

theorem attemptAll_concat (s : σ) (cs : List κ) (c : κ) :
    attemptAll step s (cs ++ [c]) = attempt step (attemptAll step s cs) c :=
  attemptAll_append s cs [c]

/-- A call among some with a last one is the last, or it is among those before. -/
theorem concat_eq_append_cons_iff {cs earlier later : List κ} {d : κ} :
    cs ++ [c] = earlier ++ d :: later ↔ (cs = earlier ∧ c = d ∧ later = []) ∨
      ∃ between, cs = earlier ++ d :: between ∧ later = between ++ [c] := by
  constructor
  · intro split
    rcases later.eq_nil_or_concat' with rfl | ⟨between, last, rfl⟩
    · obtain ⟨rfl, same⟩ := List.append_inj' split rfl
      exact .inl ⟨rfl, List.singleton_inj.1 same, rfl⟩
    · rw [← List.cons_append, ← List.append_assoc] at split
      obtain ⟨rfl, same⟩ := List.append_inj' split rfl
      exact .inr ⟨between, rfl, by rw [same]⟩
  · rintro (⟨rfl, rfl, rfl⟩ | ⟨between, rfl, rfl⟩)
    · rfl
    · rw [List.append_assoc, List.cons_append]

theorem accepted_sublist (s : σ) (cs : List κ) : (accepted step s cs).Sublist cs := by
  induction cs generalizing s with
  | nil => exact .slnil
  | cons c cs ih =>
    rw [accepted]
    split
    · exact (ih _).cons_cons c
    · exact (ih s).cons c

/-- A call that no state refuses is accepted wherever it comes. -/
theorem mem_accepted_of_always (always : ∀ s, ∃ s', step s c = .ok s') {cs : List κ}
    (mem : c ∈ cs) (s : σ) : c ∈ accepted step s cs := by
  induction cs generalizing s with
  | nil => cases mem
  | cons d cs ih =>
    rw [accepted]
    rcases List.mem_cons.1 mem with rfl | later
    · obtain ⟨s', done⟩ := always s
      rw [done]
      exact List.mem_cons_self
    · split
      · exact List.mem_cons_of_mem _ (ih later _)
      · exact ih later s

/-- What every accepted call keeps holds after any calls, with the accepted ones in order behind
those that were done before. -/
theorem attemptAll_induction {P : List κ → σ → Prop} {done : List κ} (now : P done s)
    (keep : ∀ {done s c s'}, P done s → step s c = .ok s' → P (done ++ [c]) s') (cs : List κ) :
    P (done ++ accepted step s cs) (attemptAll step s cs) := by
  induction cs generalizing done s with
  | nil =>
    rw [accepted, List.append_nil]
    exact now
  | cons c cs ih =>
    show P (done ++ accepted step s (c :: cs)) (attemptAll step (attempt step s c) cs)
    cases result : step s c with
    | error fault =>
      rw [attempt_of_error result, accepted, result]
      exact ih now
    | ok s' =>
      have rest := ih (keep now result)
      rw [List.append_assoc] at rest
      rw [attempt_of_ok result, accepted, result]
      exact rest

end SceneLogic
