/-
Stored timelines.

A timeline reads back as it was written, open to changes again, and whatever document is read, the
entries are the stable sort of the actions that its `TimedActions` list, in document order
(`Timeline.stored_entries_sorted`).  So the order of entries of one time is that of the document,
and writing the entries in their order keeps it.
-/
import SceneLogic.Proofs.Action.Stored
import SceneLogic.Proofs.Timeline.Sorting
import SceneLogic.Timeline.Document
namespace SceneLogic

namespace Timeline

/-- What a `TimedActions` element lists: its actions in order, all at the time that it stores. -/
structure Lists (listed : List Timed) (timed : Element) : Prop where
  time : ∀ e ∈ listed, timed.requireNumber "seconds-time" = .ok e.time.seconds
  actions : Action.ofElements timed.children = .ok (listed.map Timed.action)

/-! ### Writing and reading -/

theorem create_eq (name : Text.Identifier) (startImmediately : Bool)
    (actions : List (Number × Action)) :
    create name.text startImmediately actions = (empty name startImmediately).insertAll actions := by
  rw [create, Text.Identifier.ofText?_text]

theorem readTimed_node (e : Timed) :
    readTimed (.node "TimedActions" [("seconds-time", e.time.text)] [e.action.toElement]) =
      .ok [(e.time.number, e.action)] := by
  refine bind_of_eq_ok (Element.requireNumber_node rfl) ?_
  exact bind_of_eq_ok (Action.ofElements_map_toElement [e.action]) rfl

/-- A stored timeline reads back, open to changes. -/
theorem ofElement_toElement (t : Timeline) :
    ofElement t.toElement = .ok { t with compiled := false } := by
  have entries : (t.toElement.childrenOf "TimedActions").mapM readTimed =
      .ok (t.entries.map fun e => [(e.time.number, e.action)]) := by
    rw [toElement, Element.childrenOf_node_map]
    · exact mapM_map_eq_ok fun e _ => readTimed_node e
    · exact fun _ => rfl
  have inserted : List.Forall₂ Timed.IsOf t.entries
      (t.entries.map fun e => [(e.time.number, e.action)]).flatten := by
    -- Every element lists one action.
    rw [← List.flatMap_def, ← List.map_eq_flatMap]
    refine List.forall₂_map_right_iff.2 (List.forall₂_same.2 fun e _ => ?_)
    exact ⟨Span.ofNumber?_number e.time, rfl⟩
  refine bind_of_eq_ok (Element.requireAttribute_node rfl) ?_
  refine bind_of_eq_ok entries ?_
  refine bind_of_eq_ok (Element.flagOr_node rfl) ?_
  rw [create_eq]
  refine (insertAll_eq_ok_iff rfl).2 ⟨t.entries, inserted, ?_⟩
  exact eq_of_parts rfl rfl (stableSort_of_sorted t.sorted) rfl

/-! ### Reading -/

theorem lists_of_readTimed {timed : Element} {read : List (Number × Action)} {listed : List Timed}
    (stored : readTimed timed = .ok read) (each : List.Forall₂ Timed.IsOf listed read) :
    Lists listed timed := by
  obtain ⟨time, number, stored⟩ := bind_eq_ok.1 stored
  obtain ⟨actions, elements, made⟩ := bind_eq_ok.1 stored
  cases made
  have entries : List.Forall₂
      (fun (e : Timed) action => Span.ofNumber? time = some e.time ∧ e.action = action)
      listed actions := List.forall₂_map_right_iff.1 each
  obtain ⟨times, same⟩ := (List.forall₂_and_left _ _).1 entries
  constructor
  · intro e mem
    rw [number, Span.seconds_of_ofNumber? (times e mem)]
  · have all : List.Forall₂ Eq (listed.map Timed.action) actions := List.forall₂_map_left_iff.2 same
    rw [List.forall₂_eq_eq_eq] at all
    rw [elements, all]

/-- What was inserted for some elements falls into what each of them lists. -/
theorem exists_lists {elements : List Element} {read : List (List (Number × Action))}
    (stored : List.Forall₂ (fun timed actions => readTimed timed = .ok actions) elements read)
    {inserted : List Timed} (each : List.Forall₂ Timed.IsOf inserted read.flatten) :
    ∃ listed, List.Forall₂ Lists listed elements ∧ listed.flatten = inserted := by
  induction stored generalizing inserted with
  | nil =>
    cases each
    exact ⟨[], .nil, rfl⟩
  | cons first _ ih =>
    -- What the first element lists was inserted first.
    rw [List.flatten_cons] at each
    have here := lists_of_readTimed first (List.forall₂_take_append _ _ _ each)
    obtain ⟨listed, later, rest⟩ := ih (List.forall₂_drop_append _ _ _ each)
    refine ⟨_ :: listed, .cons here later, ?_⟩
    rw [List.flatten_cons, rest, List.take_append_drop]

/-- The entries that are read are the stable sort of what the elements list. -/
theorem lists_of_ofElement {e : Element} {t : Timeline} (read : ofElement e = .ok t) :
    ∃ listed, List.Forall₂ Lists listed (e.childrenOf "TimedActions") ∧
      t.entries = stableSort listed.flatten := by
  obtain ⟨name, -, read⟩ := bind_eq_ok.1 read
  obtain ⟨actions, stored, read⟩ := bind_eq_ok.1 read
  obtain ⟨startImmediately, -, read⟩ := bind_eq_ok.1 read
  rw [create] at read
  split at read
  · obtain ⟨inserted, each, rfl⟩ := (insertAll_eq_ok_iff rfl).1 read
    obtain ⟨listed, lists, rfl⟩ := exists_lists (mapM_eq_ok_iff.1 stored) each
    exact ⟨listed, lists, rfl⟩
  · cases read

/-- **Documents keep the order of entries.**  A stored timeline reads back, open to changes, and
whatever document is read, the entries are the stable sort of what its elements list. -/
theorem stored_entries_sorted :
    (∀ t : Timeline, ofElement t.toElement = .ok { t with compiled := false }) ∧
      ∀ (e : Element) (t : Timeline), ofElement e = .ok t →
        ∃ listed, List.Forall₂ Lists listed (e.childrenOf "TimedActions") ∧
          t.entries = stableSort listed.flatten :=
  ⟨ofElement_toElement, fun _ _ => lists_of_ofElement⟩

/-- A document whose second element comes before the others in time, which share theirs. -/
def shuffledDocument : Element :=
  .node "Timeline" [("name", "intro")]
    [.node "TimedActions" [("seconds-time", "2")]
        [.node "SoundChange" [("name", "chime"), ("change", "stop")], .node "Reset" []],
      .node "TimedActions" [("seconds-time", "0.5")]
        [.node "SoundChange" [("name", "chime"), ("change", "start")]],
      .node "TimedActions" [("seconds-time", " 2.0 ")]
        [.node "EventChange" [("name", "door"), ("enable", "TRUE")]]]

/-- Its timeline begins with what comes first in time and keeps the order of the others. -/
theorem shuffledDocument_entries_sorted :
    ∃ t listed, ofElement shuffledDocument = .ok t ∧
      List.Forall₂ Lists listed (shuffledDocument.childrenOf "TimedActions") ∧
      t.entries = stableSort listed.flatten ∧
      t.entries.map (fun e => e.action.describe) =
        ["start sound chime", "stop sound chime", "reset scene", "enable trigger door"] := by
  have shown : (ofElement shuffledDocument).map (fun t => t.entries.map fun e => e.action.describe) =
      .ok ["start sound chime", "stop sound chime", "reset scene", "enable trigger door"] := by
    decide +kernel
  obtain ⟨t, read, entries⟩ := exists_of_map_eq_ok shown
  obtain ⟨listed, lists, sorted⟩ := stored_entries_sorted.2 shuffledDocument t read
  exact ⟨t, listed, read, lists, sorted, entries⟩

end Timeline

end SceneLogic
