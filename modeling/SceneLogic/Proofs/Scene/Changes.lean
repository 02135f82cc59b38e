/-
What becomes of the members of a group.

A group is defined of objects that are there and stays as it was defined, but its members may be
removed.  So a member of a group is there unless it was removed behind the back of the group and
has not come back (`Scene.hasObject_eq_false_iff`).
-/
import Mathlib.Data.List.Induction
import SceneLogic.Proofs.Results
import SceneLogic.Scene.Store
namespace SceneLogic

theorem Position.ofNumbers_eq_ok {label : String} {position : List Number} {p : Position} :
    Position.ofNumbers label position = .ok p ↔ Position.ofNumbers? position = some p := by
  rw [Position.ofNumbers]
  cases Position.ofNumbers? position <;> simp

namespace Scene

variable {s : Scene} {name group m : String} {members : List String}

theorem hasObject_of_insert {p : Position} (h : s.hasObject m) :
    { s with objects := s.objects.insert name p }.hasObject m := by
  rw [hasObject, Table.contains] at h ⊢
  rw [Table.get?_insert]
  split
  · rfl
  · exact h

theorem hasObject_removeObject (ne : m ≠ name) :
    (s.removeObject name).hasObject m = s.hasObject m := by
  rw [hasObject, hasObject, removeObject, Table.contains, Table.contains, Table.get?_erase,
    if_neg ne]

/-- What is found has a place, and nothing else has. -/
theorem position?_eq_none_iff : s.position? m = none ↔ s.hasObject m = false := by
  rw [position?, hasObject, Table.contains]
  cases s.objects.get? m with
  | some p => simp
  | none => cases Reserved.isReserved m <;> simp

/-! ### Changes -/

/-- What may be done to a scene. -/
inductive Change where
  | add (name : String) (position : List Number)
  | move (name : String) (position : List Number)
  | remove (name : String)
  | define (group : String) (members : List String)

/-- The scene with a change. -/
def apply (s : Scene) : Change → Except Fault Scene
  | .add name position => s.addObject name position
  | .move name position => s.moveObject name position
  | .remove name => .ok (s.removeObject name)
  | .define group members => s.defineGroup group members

/-- What an accepted change does: it enters or takes out what is given under its own name. -/
inductive Takes (s : Scene) : Change → Scene → Prop
  | add {name : String} {position : List Number} {p : Position} :
      s.hasObject name = false → s.hasGroup name = false →
      Position.ofNumbers? position = some p →
      Takes s (.add name position) { s with objects := s.objects.insert name p }
  | move {name : String} {position : List Number} {p : Position} :
      s.hasObject name → Position.ofNumbers? position = some p →
      Takes s (.move name position) { s with objects := s.objects.insert name p }
  | remove {name : String} : Takes s (.remove name) (s.removeObject name)
  | define {group : String} {members : List String} :
      s.hasObject group = false → s.hasGroup group = false → (∀ m ∈ members, s.hasObject m) →
      Takes s (.define group members)
        { s with groups := s.groups.insert group members.eraseDups }

theorem requireUnused_eq_ok :
    s.requireUnused name = .ok () ↔ s.hasObject name = false ∧ s.hasGroup name = false := by
  rw [requireUnused]
  cases s.hasObject name <;> cases s.hasGroup name <;> simp

theorem apply_eq_ok_iff {c : Change} {s' : Scene} : s.apply c = .ok s' ↔ s.Takes c s' := by
  constructor
  · intro done
    cases c with
    | add name position =>
      obtain ⟨⟨⟩, unused, done⟩ := bind_eq_ok.1 done
      obtain ⟨p, placed, done⟩ := bind_eq_ok.1 done
      obtain ⟨object, group⟩ := requireUnused_eq_ok.1 unused
      cases done
      exact .add object group (Position.ofNumbers_eq_ok.1 placed)
    | move name position =>
      rw [apply, moveObject] at done
      split at done
      · cases done
      · next found =>
        obtain ⟨p, placed, done⟩ := bind_eq_ok.1 done
        cases done
        exact .move (not_not.1 found) (Position.ofNumbers_eq_ok.1 placed)
    | remove name =>
      cases done
      exact .remove
    | define group members =>
      obtain ⟨⟨⟩, unused, done⟩ := bind_eq_ok.1 done
      obtain ⟨object, other⟩ := requireUnused_eq_ok.1 unused
      split at done
      · cases done
      · next found =>
        cases done
        refine .define object other fun m mem => ?_
        simpa using List.find?_eq_none.1 found m mem
  · rintro (⟨object, group, placed⟩ | ⟨found, placed⟩ | _ | ⟨object, other, found⟩)
    · exact bind_of_eq_ok (requireUnused_eq_ok.2 ⟨object, group⟩)
        (bind_of_eq_ok (Position.ofNumbers_eq_ok.2 placed) rfl)
    · rw [apply, moveObject, if_neg (not_not.2 found)]
      exact bind_of_eq_ok (Position.ofNumbers_eq_ok.2 placed) rfl
    · rfl
    · refine bind_of_eq_ok (requireUnused_eq_ok.2 ⟨object, other⟩) ?_
      rw [List.find?_eq_none.2 fun m mem => by simpa using found m mem]
      rfl

/-- The scene after a change, which may have failed. -/
def attempt (s : Scene) (c : Change) : Scene :=
  match s.apply c with
  | .ok s' => s'
  | .error _ => s

/-- What a scene without objects and groups is after some changes. -/
def after (changes : List Change) : Scene := changes.foldl attempt empty

theorem after_append_singleton (changes : List Change) (c : Change) :
    after (changes ++ [c]) = (after changes).attempt c := by
  rw [after, List.foldl_append]
  rfl

/-- All that a change can do. -/
inductive Becomes (s : Scene) : Change → Scene → Prop
  | refused {c : Change} : Becomes s c s
  | placed {c : Change} {name : String} {position : List Number} (p : Position) :
      c = .add name position ∨ c = .move name position →
      Becomes s c { s with objects := s.objects.insert name p }
  | removed {name : String} : Becomes s (.remove name) (s.removeObject name)
  | defined {group : String} {members : List String} : (∀ m ∈ members, s.hasObject m) →
      Becomes s (.define group members)
        { s with groups := s.groups.insert group members.eraseDups }

theorem becomes_attempt (s : Scene) (c : Change) : s.Becomes c (s.attempt c) := by
  rw [attempt]
  cases done : s.apply c with
  | error fault => exact .refused
  | ok s' =>
    cases apply_eq_ok_iff.1 done with
    | add _ _ _ => exact .placed _ (.inl rfl)
    | move _ _ => exact .placed _ (.inr rfl)
    | remove => exact .removed
    | define _ _ found => exact .defined found

/-! ### Members without an object -/

/-- A member of a group was removed and has not come back. -/
def Orphaned (changes : List Change) (group m : String) : Prop :=
  ∃ earlier later members, changes = earlier ++ .remove m :: later ∧
    (after earlier).groups.get? group = some members ∧ m ∈ members ∧
    (after earlier).hasObject m ∧
    ∀ rest, rest <+: later → (after (earlier ++ .remove m :: rest)).hasObject m = false

theorem Orphaned.hasObject_eq_false {changes : List Change} (orphaned : Orphaned changes group m) :
    (after changes).hasObject m = false := by
  obtain ⟨earlier, later, members, rfl, -, -, -, gone⟩ := orphaned
  exact gone later List.prefix_rfl

/-- What is away stays an orphan. -/
theorem Orphaned.concat {changes : List Change} {c : Change} (orphaned : Orphaned changes group m)
    (away : (after (changes ++ [c])).hasObject m = false) : Orphaned (changes ++ [c]) group m := by
  obtain ⟨earlier, later, members, rfl, known, mem, here, gone⟩ := orphaned
  rw [List.append_assoc, List.cons_append] at away ⊢
  refine ⟨earlier, later ++ [c], members, rfl, known, mem, here, fun rest before => ?_⟩
  rcases List.prefix_concat_iff.1 before with rfl | before
  · exact away
  · exact gone rest before

/-- **Members that are away were removed.** -/
theorem hasObject_eq_false_iff (changes : List Change)
    (known : (after changes).groups.get? group = some members) (mem : m ∈ members) :
    (after changes).hasObject m = false ↔ Orphaned changes group m := by
  refine ⟨fun away => ?_, Orphaned.hasObject_eq_false⟩
  induction changes using List.reverseRecOn with
  | nil => cases known
  | append_singleton changes c ih =>
    have becomes := (after changes).becomes_attempt c
    have away' := away
    rw [after_append_singleton] at known away'
    -- It is enough that the group was there and the member away before the last change.
    have before (known : (after changes).groups.get? group = some members)
        (away₀ : (after changes).hasObject m = false) : Orphaned (changes ++ [c]) group m :=
      (ih known away₀).concat away
    generalize (after changes).attempt c = s' at becomes known away'
    cases becomes with
    | refused => exact before known away'
    | placed p =>
      exact before known (Bool.eq_false_iff.2 fun here =>
        Bool.eq_false_iff.1 away' (hasObject_of_insert here))
    | @removed name =>
      cases here : (after changes).hasObject m with
      | false => exact before known here
      | true =>
        obtain rfl : m = name := by
          by_contra ne
          rw [hasObject_removeObject ne, here] at away'
          cases away'
        refine ⟨changes, [], members, rfl, known, mem, here, fun rest empty => ?_⟩
        rw [List.prefix_nil.1 empty]
        exact away
    | @defined group' members' found =>
      rw [Table.get?_insert] at known
      split at known
      · cases known
        exact absurd (found m (List.mem_eraseDups.1 mem)) (Bool.eq_false_iff.1 away')
      · exact before known away'

end Scene

end SceneLogic
