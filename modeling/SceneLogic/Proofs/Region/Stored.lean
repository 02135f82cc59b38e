/-
Stored region triggers.

A trigger reads back from its document in every part (`RegionTrigger.ofElement_toElement`), so
whatever document it was read from, it is the same after it was written and read again.
-/
import SceneLogic.Proofs.Action.Stored
import SceneLogic.Region.Document
namespace SceneLogic

theorem Side.ofText?_text (side : Side) : ofText? side.text = some side := by
  cases side <;> rfl

namespace Tracked

/-- What is tracked, as it came from outside. -/
def toDraft : Tracked → Draft
  | .objects names => .objects (names.map Target.name)
  | .group name => .group name.name

theorem ofDraft_toDraft (label : String) (tracked : Tracked) :
    ofDraft label tracked.toDraft = .ok tracked := by
  cases tracked with
  | objects names =>
    have targets : (names.map Target.name).mapM Target.ofText? = some names := by
      induction names with
      | nil => rfl
      | cons name names ih =>
        rw [List.map_cons, List.mapM_cons, Target.ofText?_name, ih]
        rfl
    rw [toDraft, ofDraft, targets]
  | group name => rw [toDraft, ofDraft, Target.ofText?_name]

end Tracked

namespace RegionTrigger

/-- The draft that describes a trigger. -/
def toDraft (t : RegionTrigger) : RegionDraft where
  name := t.name.text
  corner1 := t.corner1.numbers
  corner2 := t.corner2.numbers
  direction := t.direction.text
  tracked := t.tracked.toDraft
  actions := t.actions
  enabled := t.enabled
  remainEnabled := t.remainEnabled
  duration := t.duration.number
  detectAny := t.detectAny

theorem requireDuration_number (label : String) (s : Span) :
    requireDuration label s.number = .ok s := by
  rw [requireDuration, Span.ofNumber?_number]

/-- The draft of a trigger gives the trigger again. -/
theorem ofDraft_toDraft (t : RegionTrigger) : ofDraft t.toDraft = .ok t := by
  rw [ofDraft]
  simp only [toDraft, Text.Identifier.ofText?_text, Side.ofText?_text]
  refine bind_of_eq_ok (requireDuration_number _ t.duration) ?_
  refine bind_of_eq_ok (Position.ofNumbers_numbers _ t.corner1) ?_
  refine bind_of_eq_ok (Position.ofNumbers_numbers _ t.corner2) ?_
  exact bind_of_eq_ok (Tracked.ofDraft_toDraft _ t.tracked) rfl

/-! ### Elements -/

/-- The stored form of the box of a trigger. -/
def boxElement (t : RegionTrigger) : Element :=
  .node "Box" [("corner1", tupleText t.corner1.numbers), ("corner2", tupleText t.corner2.numbers),
    ("direction", t.direction.text)]

/-- The stored form of the test of a trigger. -/
def testElement (t : RegionTrigger) : Element :=
  .node "ObjectTrigger" [("detect-any", flagText t.detectAny)]
    [trackedElement t.tracked, t.boxElement]

theorem requireChild_testElement (t : RegionTrigger) :
    t.testElement.requireChild "Box" = .ok t.boxElement := by
  rw [testElement]
  cases t.tracked <;> rfl

theorem readTracked_testElement (name : String) (t : RegionTrigger) :
    readTracked name t.testElement = .ok t.tracked.toDraft := by
  rw [testElement]
  cases t.tracked with
  | group target => exact bind_of_eq_ok (Element.requireAttribute_node rfl) rfl
  | objects names =>
    have read : ((trackedElement (.objects names)).childrenOf "Object").mapM
        (·.requireAttribute "name") = .ok (names.map Target.name) := by
      rw [trackedElement, Element.childrenOf_node_map]
      · exact mapM_map_eq_ok fun n _ => Element.requireAttribute_node rfl
      · exact fun _ => rfl
    exact bind_of_eq_ok read rfl

theorem readDirection_node {tag : String} {attributes : List (String × String)}
    {children : List Element} {side : Side}
    (h : attributes.reverse.lookup "direction" = some side.text) :
    readDirection (.node tag attributes children) = .ok side.text := by
  rw [readDirection, Element.attribute?_node, h]
  cases side <;> rfl

/-- A stored trigger reads back. -/
theorem ofElement_toElement (t : RegionTrigger) : ofElement t.toElement = .ok t := by
  rw [← ofDraft_toDraft t]
  refine bind_of_eq_ok (Element.requireAttribute_node rfl) ?_
  have test : t.toElement.requireChild "ObjectTrigger" = .ok t.testElement := rfl
  refine bind_of_eq_ok test ?_
  refine bind_of_eq_ok t.requireChild_testElement ?_
  refine bind_of_eq_ok (readDirection_node rfl) ?_
  refine bind_of_eq_ok (readTracked_testElement _ t) ?_
  refine bind_of_eq_ok (Element.flagOr_node rfl) ?_
  refine bind_of_eq_ok (Element.flagOr_node rfl) ?_
  refine bind_of_eq_ok (Action.readDuration_node rfl) ?_
  refine bind_of_eq_ok (Element.flagOr_node rfl) ?_
  refine bind_of_eq_ok (Element.requireAttribute_node rfl) ?_
  refine bind_of_eq_ok (Position.readTuple_numbers _ t.corner1) ?_
  refine bind_of_eq_ok (Element.requireAttribute_node rfl) ?_
  refine bind_of_eq_ok (Position.readTuple_numbers _ t.corner2) ?_
  exact bind_of_eq_ok (Action.ofElements_map_toElement t.actions) rfl

/-- **A stored trigger reads back**, and whatever document a trigger was read from, it is the same
after it was written and read again. -/
theorem stored_reads_back :
    (∀ t : RegionTrigger, ofDraft t.toDraft = .ok t ∧ ofElement t.toElement = .ok t) ∧
      ∀ (e : Element) (t : RegionTrigger), ofElement e = .ok t → ofElement t.toElement = .ok t :=
  ⟨fun t => ⟨ofDraft_toDraft t, ofElement_toElement t⟩, fun _ t _ => ofElement_toElement t⟩

/-- A document that leaves out what has a standard value and spells the rest in its own way. -/
def looseDocument : Element :=
  .node "EventTrigger" [("name", "door"), ("remain-enabled", " FALSE ")]
    [.node "ObjectTrigger" []
      [.node "Objects" [] [.node "Object" [("name", "player")]],
        .node "Group" [("name", "players")],
        .node "Box" [("corner1", "( 0, -0, 1e1 )"), ("corner2", ".5,0x10,3")]]]

/-- A name that is not blank. -/
def players : Target := ⟨"players", by decide⟩

/-- It is read as a trigger that tracks the group, and is the same after it was written. -/
theorem looseDocument_reads_back :
    ∃ t, ofElement looseDocument = .ok t ∧ ofElement t.toElement = .ok t ∧
      tupleText t.corner1.numbers = "0,0,10" ∧ tupleText t.corner2.numbers = "0.5,16,3" ∧
      t.tracked = .group players := by
  have shown : (ofElement looseDocument).map
      (fun t => (tupleText t.corner1.numbers, tupleText t.corner2.numbers, t.tracked)) =
        .ok ("0,0,10", "0.5,16,3", .group players) := by
    decide +kernel
  obtain ⟨t, read, parts⟩ := exists_of_map_eq_ok shown
  obtain ⟨first, rest⟩ := Prod.mk.inj parts
  obtain ⟨second, tracked⟩ := Prod.mk.inj rest
  exact ⟨t, read, stored_reads_back.2 looseDocument t read, first, second, tracked⟩

end RegionTrigger

end SceneLogic
