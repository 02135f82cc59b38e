/-
Which objects a scene has.

A change enters one name, takes one out or leaves the names as they are
(`Scene.contains_attempt`).  So after any changes the scene has the objects that were added and not
removed since, and apart from them only reserved names that something was moved to
(`Scene.contains_after`).  What can be moved and what can be a member of a group follows
(`Scene.moves_what_was_added`): reserved names, which are found in every scene, are the only ones
that are there without having been added (`Scene.constructor_moves`).
-/
import Mathlib.Data.List.Induction
import SceneLogic.Proofs.Scene.Store
namespace SceneLogic.Scene

variable {s : Scene} {name : String} {changes : List Change} {c : Change}
  {entering : String → List Number → Change}

/-! ### Names that were entered -/

/-- A change of one sort put an object under a name, and the object was not removed since. -/
def Entered (entering : String → List Number → Change) (changes : List Change) (name : String) :
    Prop :=
  ∃ earlier position later, changes = earlier ++ entering name position :: later ∧
    (∃ s', (after earlier).apply (entering name position) = .ok s') ∧ .remove name ∉ later

/-- A change enters a name. -/
def Enters (entering : String → List Number → Change) (s : Scene) (c : Change) (name : String) :
    Prop :=
  ∃ position, c = entering name position ∧ ∃ s', s.apply c = .ok s'

theorem not_entered_nil : ¬ Entered entering [] name := by
  rintro ⟨earlier, position, later, split, -⟩
  simp at split

theorem entered_concat : Entered entering (changes ++ [c]) name ↔
    Enters entering (after changes) c name ∨ (Entered entering changes name ∧ c ≠ .remove name) := by
  constructor
  · rintro ⟨earlier, position, later, split, accepted, kept⟩
    -- The name was entered by the last change, or that is among the changes behind.
    rcases concat_eq_append_cons_iff.1 split with ⟨rfl, rfl, -⟩ | ⟨between, rfl, rfl⟩
    · exact .inl ⟨position, rfl, accepted⟩
    · simp only [List.mem_append, List.mem_singleton, not_or] at kept
      exact .inr ⟨⟨earlier, position, between, rfl, accepted, kept.1⟩, Ne.symm kept.2⟩
  · rintro (⟨position, rfl, accepted⟩ | ⟨⟨earlier, position, later, rfl, accepted, kept⟩, other⟩)
    · exact ⟨changes, position, [], rfl, accepted, List.not_mem_nil⟩
    · refine ⟨earlier, position, later ++ [c], by simp, accepted, ?_⟩
      simp [kept, Ne.symm other]

/-- Adding is refused under a name that is always found. -/
theorem Entered.not_reserved (added : Entered .add changes name) : Reserved.isReserved name = false := by
  obtain ⟨earlier, position, later, -, ⟨s', accepted⟩, -⟩ := added
  cases apply_eq_ok_iff.1 accepted with
  | add object _ _ =>
    refine Bool.eq_false_iff.2 fun reserved => ?_
    rw [(hasObject_iff (after earlier) name).2 (.inr reserved)] at object
    cases object

/-- What is moved is found. -/
theorem Enters.hasObject (moved : Enters .move s c name) : s.hasObject name := by
  obtain ⟨position, rfl, s', accepted⟩ := moved
  cases apply_eq_ok_iff.1 accepted with
  | move found _ => exact found

/-! ### Names that are there -/

/-- One change enters a name by adding or by moving, or it takes the name out, or it leaves the name
as it is. -/
theorem contains_attempt (s : Scene) (c : Change) (name : String) :
    (s.attempt c).objects.contains name ↔
      Enters .add s c name ∨ Enters .move s c name ∨
        (s.objects.contains name ∧ c ≠ .remove name) := by
  cases result : s.apply c with
  | error fault =>
    have refused (entering : String → List Number → Change) : ¬ Enters entering s c name := by
      rintro ⟨position, -, s', accepted⟩
      rw [result] at accepted
      cases accepted
    have present : c ≠ .remove name := by
      rintro rfl
      cases result
    rw [attempt, result]
    simp [refused, present]
  | ok s' =>
    rw [attempt, result]
    cases apply_eq_ok_iff.1 result with
    | @add n position p object group placed =>
      by_cases same : name = n
      · subst same
        simp [Table.contains, Enters, result]
      · simp [Table.contains, Table.get?_insert, Enters, same, Ne.symm same]
    | @move n position p found placed =>
      by_cases same : name = n
      · subst same
        simp [Table.contains, Enters, result]
      · simp [Table.contains, Table.get?_insert, Enters, same, Ne.symm same]
    | @remove n =>
      by_cases same : name = n
      · subst same
        simp [Table.contains, removeObject, Table.get?_erase, Enters]
      · simp [Table.contains, removeObject, Table.get?_erase, Enters, same, Ne.symm same]
    | @define group members object other found => simp [Enters]

/-- **A scene has the objects that were added and not removed**, and reserved names that were moved
and not removed. -/
theorem contains_after (changes : List Change) (name : String) :
    (after changes).objects.contains name ↔
      Entered .add changes name ∨ (Reserved.isReserved name ∧ Entered .move changes name) := by
  induction changes using List.reverseRecOn with
  | nil =>
    have none_there : ¬ (after []).objects.contains name := by
      rintro ⟨⟩
    simp [not_entered_nil, none_there]
  | append_singleton changes c ih =>
    rw [after_append_singleton, contains_attempt, entered_concat, entered_concat, ih]
    constructor
    · rintro (added | moved | ⟨added | ⟨reserved, moved⟩, kept⟩)
      · exact .inl (.inl added)
      · -- What is moved is found: it has an entry, or its name is reserved.
        rcases (hasObject_iff _ _).1 moved.hasObject with there | reserved
        · have kept : c ≠ .remove name := by
            obtain ⟨position, rfl, -⟩ := moved
            simp
          exact (ih.1 there).imp (fun added => .inr ⟨added, kept⟩)
            (fun ⟨reserved, earlier⟩ => ⟨reserved, .inr ⟨earlier, kept⟩⟩)
        · exact .inr ⟨reserved, .inl moved⟩
      · exact .inl (.inr ⟨added, kept⟩)
      · exact .inr ⟨reserved, .inr ⟨moved, kept⟩⟩
    · rintro ((added | ⟨added, kept⟩) | ⟨reserved, moved | ⟨moved, kept⟩⟩)
      · exact .inl added
      · exact .inr (.inr ⟨.inl added, kept⟩)
      · exact .inr (.inl moved)
      · exact .inr (.inr ⟨.inr ⟨reserved, moved⟩, kept⟩)

theorem hasObject_after (changes : List Change) (name : String) :
    (after changes).hasObject name ↔ Entered .add changes name ∨ Reserved.isReserved name := by
  rw [hasObject_iff, contains_after]
  constructor
  · rintro ((added | ⟨reserved, -⟩) | reserved)
    · exact .inl added
    · exact .inr reserved
    · exact .inr reserved
  · rintro (added | reserved)
    · exact .inl (.inl added)
    · exact .inr reserved

/-! ### Moving and grouping -/

/-- What a scene does to objects, given which of them were added. -/
structure ChangesWhatWasAdded (changes : List Change) (s : Scene) : Prop where
  /-- Adding is the one way into the scene, save for reserved names, which can only be moved in. -/
  there : ∀ name, s.objects.contains name ↔
    Entered .add changes name ∨ (Reserved.isReserved name ∧ Entered .move changes name)
  enters : ∀ c name, s.objects.contains name = false →
    (after (changes ++ [c])).objects.contains name →
    Enters .add s c name ∨ (Reserved.isReserved name ∧ Enters .move s c name)
  added : ∀ name, Entered .add changes name → Reserved.isReserved name = false
  /-- Moving puts what was added, or is always found, to three finite numbers. -/
  moves : ∀ name position s', s.moveObject name position = .ok s' ↔
    (Entered .add changes name ∨ Reserved.isReserved name) ∧
      ∃ p, Position.ofNumbers? position = some p ∧
        s' = { s with objects := s.objects.insert name p }
  /-- Moving anything else is refused, wherever it is to go. -/
  move_refused : ∀ name position,
    (∃ fault, s.moveObject name position = .error fault ∧ fault.kind = .unresolvedReference) ↔
      ¬ Entered .add changes name ∧ Reserved.isReserved name = false
  /-- A group may be defined of what was added or is always found, under an unused name. -/
  defines : ∀ group members, (∃ s', s.defineGroup group members = .ok s') ↔
    s.hasObject group = false ∧ s.hasGroup group = false ∧
      ∀ m ∈ members, Entered .add changes m ∨ Reserved.isReserved m

theorem moveObject_unresolved_iff {position : List Number} :
    (∃ fault, s.moveObject name position = .error fault ∧ fault.kind = .unresolvedReference) ↔
      s.hasObject name = false := by
  rw [moveObject]
  cases found : s.hasObject name with
  | false =>
    rw [if_pos (by simp)]
    exact iff_of_true ⟨_, rfl, rfl⟩ rfl
  | true =>
    -- Where the object is found, only the position can be refused, and that is another kind of fault.
    rw [if_neg (by simp)]
    refine iff_of_false ?_ (by simp)
    rintro ⟨fault, refused, kind⟩
    rcases bind_eq_error.1 refused with early | ⟨p, -, late⟩
    · rw [Position.ofNumbers] at early
      split at early
      · cases early
      · cases early
        cases kind
    · cases late

/-- **Moving never makes an object**, and groups are made of objects that are there, whatever was
done to a scene before; only the reserved names are there without having been added. -/
theorem moves_what_was_added (changes : List Change) :
    ChangesWhatWasAdded changes (after changes) where
  there := contains_after changes
  enters := by
    intro c name absent present
    rw [after_append_singleton, contains_attempt] at present
    rcases present with added | moved | ⟨present, -⟩
    · exact .inl added
    · rcases (hasObject_iff _ _).1 moved.hasObject with there | reserved
      · rw [absent] at there
        cases there
      · exact .inr ⟨reserved, moved⟩
    · rw [absent] at present
      cases present
  added := fun name => Entered.not_reserved
  moves := by
    intro name position s'
    rw [← hasObject_after]
    refine (apply_eq_ok_iff (c := .move name position)).trans ?_
    constructor
    · intro takes
      cases takes with
      | move found placed => exact ⟨found, _, placed, rfl⟩
    · rintro ⟨found, p, placed, rfl⟩
      exact .move found placed
  move_refused := by
    intro name position
    rw [moveObject_unresolved_iff, ← Bool.not_eq_true, hasObject_after, not_or, Bool.not_eq_true]
  defines := by
    intro group members
    simp only [← hasObject_after]
    constructor
    · rintro ⟨s', accepted⟩
      cases (apply_eq_ok_iff (c := .define group members)).1 accepted with
      | define object other found => exact ⟨object, other, found⟩
    · rintro ⟨object, other, found⟩
      exact ⟨_, (apply_eq_ok_iff (c := .define group members)).2 (.define object other found)⟩

/-- A new scene moves an object that was never added, and takes it for one from then on. -/
theorem constructor_moves :
    ¬ Entered .add [] "constructor" ∧ ¬ (after []).objects.contains "constructor" ∧
      ∃ s, (after []).moveObject "constructor" [1, 2, 3] = .ok s ∧
        s.objects.contains "constructor" ∧
        ∃ s', s.defineGroup "movers" ["constructor"] = .ok s' := by
  refine ⟨not_entered_nil, by decide, ?_⟩
  have moves : ((after []).moveObject "constructor" [1, 2, 3]).toOption.any fun s =>
      s.objects.contains "constructor" &&
        (s.defineGroup "movers" ["constructor"]).toOption.isSome := by
    decide +kernel
  cases moved : (after []).moveObject "constructor" [1, 2, 3] with
  | error fault =>
    rw [moved] at moves
    cases moves
  | ok s =>
    rw [moved] at moves
    obtain ⟨there, grouped⟩ := Bool.and_eq_true_iff.1 moves
    refine ⟨s, rfl, there, ?_⟩
    cases defined : s.defineGroup "movers" ["constructor"] with
    | error fault =>
      rw [defined] at grouped
      cases grouped
    | ok s' => exact ⟨s', rfl⟩

end SceneLogic.Scene
