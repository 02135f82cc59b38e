/-
A registry after any calls.

A call enters a claim, takes claims out or changes nothing (`Names.get?_attempt`).  So whatever was
asked of a registry, it holds the claims in force, that is those that succeeded and were neither
released nor cleared since (`Names.get?_after`).  What it answers about a name depends
on these alone, but for the names that are always in use (`Names.answers_by_claims`): such a name
can never be claimed, and is said to be in use all the same (`Names.constructor_is_taken`).
-/
import Mathlib.Data.List.Induction
import SceneLogic.Proofs.Attempts
import SceneLogic.Proofs.Scene.Names
import SceneLogic.Workspace.Basic
namespace SceneLogic

/-- A name that is always in use has a character that is not blank. -/
theorem Reserved.not_blank {name : String} (reserved : isReserved name) : ¬ Text.Blank name := by
  have each : ∀ n ∈ "constructor" :: unassignable :: operations, ¬ Text.Blank n := by decide
  refine each name ?_
  rw [isReserved, description?] at reserved
  split at reserved
  · next mem => exact List.mem_cons_of_mem _ (List.mem_cons_of_mem _ mem)
  · split at reserved
    · next same => simp [same]
    · split at reserved
      · next same => simp [same, unassignable]
      · cases reserved

namespace Names

variable {names : Names} {name : String} {kind : NameKind} {calls : List Call}

/-! ### Calls -/

/-- What may be asked of a registry that changes it. -/
inductive Call where
  | claim (name : String) (kind : NameKind)
  | release (name : String)
  | clear

/-- The registry behind a call. -/
def call (names : Names) : Call → Except Fault Names
  | .claim name kind => names.claim name kind
  | .release name => .ok (names.release name)
  | .clear => .ok empty

/-- A new registry after some calls. -/
def after (calls : List Call) : Names := attemptAll call empty calls

/-- A claim is in force: it succeeded, and since then the name was not released, nor were all names
cleared. -/
def InForce (calls : List Call) (name : String) (kind : NameKind) : Prop :=
  ∃ earlier later, calls = earlier ++ .claim name kind :: later ∧
    (∃ names, (after earlier).claim name kind = .ok names) ∧
    .release name ∉ later ∧ .clear ∉ later

theorem inForce_concat {c : Call} : InForce (calls ++ [c]) name kind ↔
    (c = .claim name kind ∧ ∃ names, (after calls).claim name kind = .ok names) ∨
      (InForce calls name kind ∧ c ≠ .release name ∧ c ≠ .clear) := by
  constructor
  · rintro ⟨earlier, later, split, succeeds, kept, uncleared⟩
    -- The claim is the last call, or the last call is among those behind it.
    rcases concat_eq_append_cons_iff.1 split with ⟨rfl, same, -⟩ | ⟨between, rfl, rfl⟩
    · exact .inl ⟨same, succeeds⟩
    · simp only [List.mem_append, List.mem_singleton, not_or] at kept uncleared
      exact .inr ⟨⟨earlier, between, rfl, succeeds, kept.1, uncleared.1⟩, Ne.symm kept.2,
        Ne.symm uncleared.2⟩
  · rintro (⟨rfl, succeeds⟩ | ⟨⟨earlier, later, rfl, succeeds, kept, uncleared⟩, other, other'⟩)
    · exact ⟨calls, [], rfl, succeeds, List.not_mem_nil, List.not_mem_nil⟩
    · refine ⟨earlier, later ++ [c], by simp, succeeds, ?_, ?_⟩
      · simp [kept, Ne.symm other]
      · simp [uncleared, Ne.symm other']

/-- One call enters a claim, or it takes claims out, or it leaves them as they are. -/
theorem get?_attempt (names : Names) (c : Call) (name : String) (kind : NameKind) :
    (attempt call names c).claims.get? name = some kind ↔
      (c = .claim name kind ∧ ∃ names', names.claim name kind = .ok names') ∨
        (names.claims.get? name = some kind ∧ c ≠ .release name ∧ c ≠ .clear) := by
  cases c with
  | claim n k =>
    cases result : names.claim n k with
    | error fault =>
      have still : attempt call names (.claim n k) = names := attempt_of_error result
      rw [still]
      constructor
      · intro held
        exact .inr ⟨held, by simp, by simp⟩
      · rintro (⟨same, names', succeeds⟩ | ⟨held, -⟩)
        · cases same
          rw [result] at succeeds
          cases succeeds
        · exact held
    | ok names' =>
      have done : attempt call names (.claim n k) = names' := attempt_of_ok result
      obtain ⟨-, free, rfl⟩ := claim_eq_ok.1 result
      rw [done, Table.get?_insert]
      by_cases same : name = n
      · -- Before the claim nothing was entered under its name.
        subst same
        rw [if_pos rfl, get?_of_not_taken free]
        constructor
        · rintro ⟨⟩
          exact .inl ⟨rfl, _, result⟩
        · rintro (⟨⟨⟩, -⟩ | ⟨⟨⟩, -⟩)
          rfl
      · simp [same, Ne.symm same]
  | release n =>
    show (names.claims.erase n).get? name = some kind ↔ _
    rw [Table.get?_erase]
    by_cases same : name = n
    · simp [same]
    · simp [same, Ne.symm same]
  | clear =>
    show (none : Option NameKind) = some kind ↔ _
    simp

/-- **A registry holds the claims in force.** -/
theorem get?_after (calls : List Call) (name : String) (kind : NameKind) :
    (after calls).claims.get? name = some kind ↔ InForce calls name kind := by
  induction calls using List.reverseRecOn with
  | nil =>
    constructor
    · rintro ⟨⟩
    · rintro ⟨earlier, later, split, -⟩
      simp at split
  | append_singleton calls c ih =>
    rw [inForce_concat, ← ih, after, attemptAll_concat, ← after, get?_attempt]

theorem get?_after_eq_none_iff (calls : List Call) (name : String) :
    (after calls).claims.get? name = none ↔ ∀ held, ¬ InForce calls name held := by
  simp only [Option.eq_none_iff_forall_ne_some, ne_eq, get?_after]

theorem isTaken_after (calls : List Call) (name : String) :
    (after calls).isTaken name ↔ Reserved.isReserved name ∨ ∃ held, InForce calls name held := by
  rw [isTaken_iff, Option.isSome_iff_exists, or_comm]
  simp only [get?_after]

theorem isTaken_after_eq_false_iff (calls : List Call) (name : String) :
    (after calls).isTaken name = false ↔
      ¬ Reserved.isReserved name ∧ ∀ held, ¬ InForce calls name held := by
  rw [← not_exists, ← not_or, ← isTaken_after, Bool.not_eq_true]

/-- What is in force was claimed: so it is not blank, and not always in use. -/
theorem InForce.claimable (inForce : InForce calls name kind) :
    ¬ Text.Blank name ∧ ¬ Reserved.isReserved name := by
  obtain ⟨earlier, later, -, ⟨names', succeeds⟩, -⟩ := inForce
  obtain ⟨present, free, -⟩ := claim_eq_ok.1 succeeds
  exact ⟨present, ((isTaken_after_eq_false_iff earlier name).1 free).1⟩

/-- Claiming a name that is held is refused with what holds it. -/
theorem claim_of_holder? {holder : String} (present : ¬ Text.Blank name)
    (held : names.holder? name = some holder) (kind : NameKind) :
    names.claim name kind = .error (.nameTaken name holder) := by
  rw [claim, if_neg present, held]

/-! ### Answers -/

/-- What a registry says and does about each name, given the claims that are in force. -/
structure AnswersByClaims (calls : List Call) (names : Names) : Prop where
  /-- A claim succeeds if the name is not blank, not always in use, and not claimed. -/
  claim_accepted : ∀ name kind, (∃ names', names.claim name kind = .ok names') ↔
    ¬ Text.Blank name ∧ ¬ Reserved.isReserved name ∧ ∀ held, ¬ InForce calls name held
  claim_blank : ∀ name kind, Text.Blank name →
    names.claim name kind = .error .blankClaim ∧ Fault.blankClaim.kind = .validation
  /-- A claimed name is refused with what it is claimed for. -/
  claim_held : ∀ name kind held, InForce calls name held →
    names.claim name kind = .error (.nameTaken name held.text) ∧
      (Fault.nameTaken name held.text).kind = .nameCollision
  claim_reserved : ∀ name kind words, Reserved.description? name = some words →
    names.claim name kind = .error (.nameTaken name words)
  isTaken : ∀ name, names.isTaken name ↔
    Reserved.isReserved name ∨ ∃ held, InForce calls name held
  /-- Releasing answers whether the name was in use. -/
  released : ∀ (w : Workspace) name, w.names = names →
    ((Workspace.release name).run.run w).1 = .ok (names.isTaken name)
  /-- Releasing a name that is not claimed changes nothing. -/
  idle : ∀ name, (∀ held, ¬ InForce calls name held) → names.release name = names
  /-- A claim that fails changes nothing. -/
  refused : ∀ (w : Workspace) name kind fault, w.names = names →
    names.claim name kind = .error fault →
    (Workspace.claim name kind).run.run w = (.error fault, w)

/-- **What a registry answers**, whatever was asked of it before, is decided by the claims in force
and by the names that are always in use. -/
theorem answers_by_claims (calls : List Call) : AnswersByClaims calls (after calls) where
  claim_accepted := by
    intro name kind
    rw [← isTaken_after_eq_false_iff]
    constructor
    · rintro ⟨names', succeeds⟩
      obtain ⟨present, free, -⟩ := claim_eq_ok.1 succeeds
      exact ⟨present, free⟩
    · rintro ⟨present, free⟩
      exact ⟨_, claim_eq_ok.2 ⟨present, free, rfl⟩⟩
  claim_blank := by
    intro name kind blank
    rw [claim, if_pos blank]
    exact ⟨rfl, rfl⟩
  claim_held := by
    intro name kind held inForce
    have holder : (after calls).holder? name = some held.text := by
      rw [holder?, (get?_after calls name held).2 inForce]
    exact ⟨claim_of_holder? inForce.claimable.1 holder kind, rfl⟩
  claim_reserved := by
    intro name kind words described
    have reserved : Reserved.isReserved name := by
      rw [Reserved.isReserved, described]
      rfl
    -- A name that is always in use is never claimed, so it is held as the host describes it.
    have unclaimed : (after calls).claims.get? name = none :=
      (get?_after_eq_none_iff calls name).2 fun _ inForce => inForce.claimable.2 reserved
    have holder : (after calls).holder? name = some words := by
      rw [holder?, unclaimed]
      exact described
    exact claim_of_holder? (Reserved.not_blank reserved) holder kind
  isTaken := isTaken_after calls
  released := by
    intro w name same
    rw [← same]
    rfl
  idle := by
    intro name unclaimed
    rw [release, Table.erase_of_absent ((get?_after_eq_none_iff calls name).2 unclaimed)]
  refused := by
    intro w name kind fault same fails
    rw [← same] at fails
    have steps : (Workspace.claim name kind).run.run w =
        ((Workspace.ofResult (w.names.claim name kind) >>= fun names =>
          set (w.withNames w.context.registry names) : Workspace.Work Unit)).run.run w := rfl
    rw [steps, fails]
    rfl

/-- The kind of an object. -/
def objectKind : NameKind := ⟨"object"⟩

/-- A new registry takes a name for claimed that nothing was ever claimed for. -/
theorem constructor_is_taken :
    ¬ Text.Blank "constructor" ∧ (∀ held, ¬ InForce [] "constructor" held) ∧
      (after []).claim "constructor" objectKind =
        .error (.nameTaken "constructor" "function Object() \x7b [native code] \x7d") ∧
      (after []).isTaken "constructor" := by
  refine ⟨by decide, ?_, by decide, by decide⟩
  rintro held ⟨earlier, later, split, -⟩
  simp at split

end Names

end SceneLogic
