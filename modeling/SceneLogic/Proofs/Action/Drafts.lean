/-
What documents keep of an action.

A draft that passes the checks is kept but for what its kind does not have and for the sign of a
zero (`Draft.essential`), as the action that it describes tells these fields again
(`Action.toDraft_of_ofDraft`).  Written and read again it is the same, two drafts that differ in
them are stored differently, and what is read of any element is a fixed point of writing and
reading (`Action.documents_keep_actions`).
-/
import SceneLogic.Proofs.Action.Stored
namespace SceneLogic

attribute [local irreducible] quantaPerUnit quantaLimit

/-! ### The fields of a kind -/

/-- The value, with one zero for both if it is a number. -/
def Draft.Field.unsigned : Draft.Field → Draft.Field
  | .number x => .number x.unsigned
  | field => field

/-- A draft with the fields that its kind has, and without the signs of zeros. -/
def Draft.essential (d : Draft) : Draft :=
  match d.kind with
  | .text word =>
    match Action.Kind.ofText? word with
    | some .move =>
      { kind := d.kind, target := d.target, position := d.position.map Number.unsigned,
        relative := d.relative, duration := d.duration.unsigned }
    | some .visibility | some .group =>
      { kind := d.kind, target := d.target, visible := d.visible, duration := d.duration.unsigned }
    | some .link | some .sound | some .timeline =>
      { kind := d.kind, target := d.target, change := d.change }
    | some .event => { kind := d.kind, target := d.target, enable := d.enable }
    | some .reset => { kind := d.kind }
    | none => d
  | _ => d

theorem Number.unsigned_of_toScalar? {x : Number} {s : Scalar} (h : x.toScalar? = some s) :
    x.unsigned = .scalar s := by
  cases x with
  | scalar x =>
    cases h
    rfl
  | negativeZero =>
    cases h
    decide +kernel
  | _ => cases h

theorem Position.map_unsigned {label : String} {values : List Number} {p : Position}
    (h : ofNumbers label values = .ok p) : values.map Number.unsigned = p.numbers := by
  rw [ofNumbers] at h
  split at h
  · next p' found =>
    cases h
    rw [ofNumbers?.eq_def] at found
    split at found
    · next x y z =>
      obtain ⟨x', hx, found⟩ := Option.bind_eq_some_iff.1 found
      obtain ⟨y', hy, found⟩ := Option.bind_eq_some_iff.1 found
      obtain ⟨z', hz, same⟩ := Option.bind_eq_some_iff.1 found
      cases same
      rw [List.map_cons, List.map_cons, List.map_singleton, Number.unsigned_of_toScalar? hx,
        Number.unsigned_of_toScalar? hy, Number.unsigned_of_toScalar? hz]
      rfl
    · cases found
  · cases h

namespace Action

/-! ### What the checks let pass -/

theorem Kind.text_of_ofText? {word : String} {kind : Kind} (h : ofText? word = some kind) :
    word = kind.text := by
  have same := List.find?_some h
  exact (beq_iff_eq.1 same).symm

theorem field_of_requireTarget {kind : Kind} {field : Draft.Field} {t : Target}
    (h : requireTarget kind field = .ok t) : field = .text t.name := by
  rw [requireTarget.eq_def] at h
  split at h
  · next name =>
    split at h
    · next found =>
      cases h
      obtain ⟨_, same⟩ := Option.dite_none_left_eq_some.1 found
      cases same
      rfl
    · cases h
  · cases h

theorem field_of_requireDuration {kind : Kind} {field : Draft.Field} {s : Span}
    (h : requireDuration kind field = .ok s) : field.unsigned = .number s.number := by
  cases field with
  | number x =>
    rw [requireDuration] at h
    split at h
    · next found =>
      cases h
      obtain ⟨seconds, value, proper⟩ := Option.bind_eq_some_iff.1 found
      rw [Draft.Field.unsigned, Number.unsigned_of_toScalar? value, Span.number,
        Span.seconds_of_ofNumber? proper]
    · cases h
  | _ => cases h

theorem field_of_requireChange {α : Type} {kind : Kind} {options : List α} {word : α → String}
    {field : Draft.Field} {change : α} (h : requireChange kind options word field = .ok change) :
    field = .text (word change) := by
  rw [requireChange] at h
  split at h
  · next found =>
    cases h
    have same := List.find?_some found
    exact beq_iff_eq.1 same
  · cases h

/-- The action that a draft describes tells all that the draft has for its kind. -/
theorem toDraft_of_ofDraft {d : Draft} {a : Action} (h : ofDraft d = .ok a) :
    a.toDraft = d.essential := by
  cases field : d.kind with
  | text word =>
    cases known : Kind.ofText? word with
    | none =>
      simp only [ofDraft, field, known] at h
      cases h
    | some kind =>
      have spelled : word = kind.text := Kind.text_of_ofText? known
      simp only [ofDraft, field, known] at h
      simp only [Draft.essential, field, known]
      cases kind with
      | move =>
        obtain ⟨target, named, h⟩ := bind_eq_ok.1 h
        obtain ⟨duration, lasts, h⟩ := bind_eq_ok.1 h
        obtain ⟨position, placed, made⟩ := bind_eq_ok.1 h
        cases made
        rw [spelled, field_of_requireTarget named, field_of_requireDuration lasts,
          Position.map_unsigned placed]
        rfl
      | visibility | group =>
        obtain ⟨target, named, h⟩ := bind_eq_ok.1 h
        obtain ⟨duration, lasts, made⟩ := bind_eq_ok.1 h
        cases made
        rw [spelled, field_of_requireTarget named, field_of_requireDuration lasts]
        rfl
      | link | sound | timeline =>
        obtain ⟨target, named, h⟩ := bind_eq_ok.1 h
        obtain ⟨change, changes, made⟩ := bind_eq_ok.1 h
        cases made
        rw [spelled, field_of_requireTarget named, field_of_requireChange changes]
        rfl
      | event =>
        obtain ⟨target, named, made⟩ := bind_eq_ok.1 h
        cases made
        rw [spelled, field_of_requireTarget named]
        rfl
      | reset =>
        cases h
        rw [spelled]
        rfl
  | _ =>
    simp only [ofDraft, field] at h
    cases h

/-! ### Documents -/

/-- Actions that are stored alike are the same. -/
theorem toElement_injective : Function.Injective toElement := by
  intro a b same
  have read : ofElement a.toElement = ofElement b.toElement := congrArg ofElement same
  rw [ofElement_toElement, ofElement_toElement] at read
  exact Except.ok.inj read

/-- Actions with the same draft are the same. -/
theorem toDraft_injective : Function.Injective toDraft := by
  intro a b same
  have made : ofDraft a.toDraft = ofDraft b.toDraft := congrArg ofDraft same
  rw [ofDraft_toDraft, ofDraft_toDraft] at made
  exact Except.ok.inj made

/-- **Documents keep actions.**  A draft that describes an action reads back with all that its
kind has, up to the signs of zeros; two of them are stored alike only if they agree in that; and
what is read of an element passes the checks as it is, and reads back. -/
theorem documents_keep_actions :
    (∀ d a, ofDraft d = .ok a → ofElement a.toElement = .ok a ∧ a.toDraft = d.essential) ∧
    (∀ d d' a a', ofDraft d = .ok a → ofDraft d' = .ok a' →
      (a.toElement = a'.toElement ↔ d.essential = d'.essential)) ∧
    (∀ e a, ofElement e = .ok a →
      ofDraft a.toDraft = .ok a ∧ a.toDraft.essential = a.toDraft ∧
        ofElement a.toElement = .ok a) := by
  refine ⟨?_, ?_, ?_⟩
  · intro d a made
    exact ⟨ofElement_toElement a, toDraft_of_ofDraft made⟩
  · intro d d' a a' made made'
    rw [toElement_injective.eq_iff, ← toDraft_of_ofDraft made, ← toDraft_of_ofDraft made',
      toDraft_injective.eq_iff]
  · intro e a _
    have made := ofDraft_toDraft a
    exact ⟨made, (toDraft_of_ofDraft made).symm, ofElement_toElement a⟩

/-- A shift by an offset with a negative zero, whose duration is a negative zero too. -/
def shiftDraft : Draft where
  kind := .text "move"
  target := .text "lift (east), "
  position := [1, .negativeZero, -3]
  relative := true
  duration := .number .negativeZero

/-- A stored move that also says that its object is hidden, and that is loosely spelled. -/
def looseMove : Element :=
  .node "ObjectChange" [("name", "lift"), ("duration", " 1e1 ")]
    [.node "Visible" [("value", "false")],
      .node "Move" [("position", "( 1, -0 ,2.50)"), ("relative", "TRUE ")]]

theorem shiftDraft_is_kept : ∃ shift place loose,
    ofDraft shiftDraft = .ok shift ∧ ofElement shift.toElement = .ok shift ∧
    shift.toDraft.position = [1, 0, -3] ∧ shift.toDraft.duration = .number 0 ∧
    ofDraft { shiftDraft with relative := false } = .ok place ∧
    shift.toElement ≠ place.toElement ∧
    ofElement looseMove = .ok loose ∧ ofDraft loose.toDraft = .ok loose ∧
    ofElement loose.toElement = .ok loose := by
  have shifts : (ofDraft shiftDraft).map span = .ok 0 := by decide +kernel
  have places : (ofDraft { shiftDraft with relative := false }).map span = .ok 0 := by
    decide +kernel
  have loosely : (ofElement looseMove).map (·.span.number) = .ok 10 := by decide +kernel
  obtain ⟨shift, made, -⟩ := exists_of_map_eq_ok shifts
  obtain ⟨place, made', -⟩ := exists_of_map_eq_ok places
  obtain ⟨loose, read, -⟩ := exists_of_map_eq_ok loosely
  obtain ⟨drafts, stored, elements⟩ := documents_keep_actions
  obtain ⟨back, kept⟩ := drafts _ _ made
  have differ : shift.toElement ≠ place.toElement := by
    rw [Ne, stored _ _ _ _ made made']
    intro same
    cases congrArg Draft.relative same
  have position : shift.toDraft.position = [1, 0, -3] :=
    (congrArg Draft.position kept).trans (by decide +kernel)
  have duration : shift.toDraft.duration = .number 0 :=
    (congrArg Draft.duration kept).trans (by decide +kernel)
  obtain ⟨passes, -, again⟩ := elements _ _ read
  exact ⟨shift, place, loose, made, back, position, duration, made', differ, read, passes, again⟩

end Action

end SceneLogic
