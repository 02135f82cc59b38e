/-
Stored actions read back.

The draft of an action passes the checks and gives the action again (`Action.ofDraft_toDraft`).
What is read from the element of an action is its draft, so the element gives the action again as
well (`Action.ofElement_toElement`).
-/
import SceneLogic.Action.Document
import SceneLogic.Proofs.Document.Parts
import SceneLogic.Proofs.Results
namespace SceneLogic

namespace Action

/-! ### Words for changes -/

/-- Every word stands for the option that it is the word for. -/
def Tells {α : Type} (options : List α) (word : α → String) : Prop :=
  ∀ option, options.find? (fun o => word o == word option) = some option

theorem tells_linkChange : Tells LinkChange.all LinkChange.text := by
  intro change
  cases change <;> rfl

theorem tells_soundChange : Tells SoundChange.all SoundChange.text := by
  intro change
  cases change <;> rfl

theorem tells_timelineChange : Tells TimelineChange.all TimelineChange.text := by
  intro change
  cases change <;> rfl

section Changes

variable {α : Type} {options : List α} {word : α → String} (tells : Tells options word)
include tells

theorem requireChange_word (kind : Kind) (option : α) :
    requireChange kind options word (.text (word option)) = .ok option := by
  have test : (fun o => Draft.Field.text (word option) == .text (word o)) =
      fun o => word o == word option := by
    funext o
    rw [Bool.eq_iff_iff, beq_iff_eq, beq_iff_eq, Draft.Field.text.injEq, eq_comm]
  rw [requireChange, test, tells option]

theorem readChange_node {tag : String} {attributes : List (String × String)}
    {children : List Element} {option : α}
    (h : attributes.reverse.lookup "change" = some (word option)) :
    readChange (.node tag attributes children) options word = .ok option := by
  refine bind_of_eq_ok (Element.requireAttribute_node h) ?_
  rw [tells option]

end Changes

/-! ### Drafts -/

theorem requireTarget_name (kind : Kind) (t : Target) :
    requireTarget kind (.text t.name) = .ok t := by
  rw [requireTarget, Target.ofText?_name]

theorem requireDuration_number (kind : Kind) (s : Span) :
    requireDuration kind (.number s.number) = .ok s := by
  rw [requireDuration, Span.ofNumber?_number]

/-- The draft of an action gives the action again. -/
theorem ofDraft_toDraft (a : Action) : ofDraft a.toDraft = .ok a := by
  cases a with
  | move target position relative duration =>
    refine bind_of_eq_ok (requireTarget_name .move target) ?_
    refine bind_of_eq_ok (requireDuration_number .move duration) ?_
    exact bind_of_eq_ok (Position.ofNumbers_numbers _ position) rfl
  | visibility target visible duration =>
    refine bind_of_eq_ok (requireTarget_name .visibility target) ?_
    exact bind_of_eq_ok (requireDuration_number .visibility duration) rfl
  | link target change =>
    refine bind_of_eq_ok (requireTarget_name .link target) ?_
    exact bind_of_eq_ok (requireChange_word tells_linkChange .link change) rfl
  | sound target change =>
    refine bind_of_eq_ok (requireTarget_name .sound target) ?_
    exact bind_of_eq_ok (requireChange_word tells_soundChange .sound change) rfl
  | group target visible duration =>
    refine bind_of_eq_ok (requireTarget_name .group target) ?_
    exact bind_of_eq_ok (requireDuration_number .group duration) rfl
  | timeline target change =>
    refine bind_of_eq_ok (requireTarget_name .timeline target) ?_
    exact bind_of_eq_ok (requireChange_word tells_timelineChange .timeline change) rfl
  | event target enable => exact bind_of_eq_ok (requireTarget_name .event target) rfl
  | reset => rfl

/-! ### Elements -/

theorem readDuration_node {tag : String} {attributes : List (String × String)}
    {children : List Element} {duration : Span}
    (h : attributes.reverse.lookup "duration" = some duration.text) :
    readDuration (.node tag attributes children) = .ok duration.seconds := by
  rw [readDuration, Element.attribute?_node, h]
  exact Element.requireNumber_node h

/-- **A stored action reads back.** -/
theorem ofElement_toElement (a : Action) : ofElement a.toElement = .ok a := by
  rw [← ofDraft_toDraft a]
  cases a with
  | move target position relative duration =>
    refine bind_of_eq_ok (Element.requireAttribute_node rfl) ?_
    refine bind_of_eq_ok (Element.requireAttribute_node rfl) ?_
    refine bind_of_eq_ok (Position.readTuple_numbers _ position) ?_
    refine bind_of_eq_ok (Element.flagOr_node rfl) ?_
    exact bind_of_eq_ok (readDuration_node rfl) rfl
  | visibility target visible duration =>
    refine bind_of_eq_ok (Element.requireAttribute_node rfl) ?_
    refine bind_of_eq_ok (Element.requireAttribute_node rfl) ?_
    refine bind_of_eq_ok (readFlag_flagText visible) ?_
    exact bind_of_eq_ok (readDuration_node rfl) rfl
  | link target change =>
    refine bind_of_eq_ok (Element.requireAttribute_node rfl) ?_
    exact bind_of_eq_ok (readChange_node tells_linkChange rfl) rfl
  | sound target change =>
    refine bind_of_eq_ok (Element.requireAttribute_node rfl) ?_
    exact bind_of_eq_ok (readChange_node tells_soundChange rfl) rfl
  | group target visible duration =>
    refine bind_of_eq_ok (Element.requireAttribute_node rfl) ?_
    refine bind_of_eq_ok (Element.requireAttribute_node rfl) ?_
    refine bind_of_eq_ok (readFlag_flagText visible) ?_
    exact bind_of_eq_ok (readDuration_node rfl) rfl
  | timeline target change =>
    refine bind_of_eq_ok (Element.requireAttribute_node rfl) ?_
    exact bind_of_eq_ok (readChange_node tells_timelineChange rfl) rfl
  | event target enable =>
    refine bind_of_eq_ok (Element.requireAttribute_node rfl) ?_
    refine bind_of_eq_ok (Element.requireAttribute_node rfl) ?_
    exact bind_of_eq_ok (readFlag_flagText enable) rfl
  | reset => rfl

theorem ofElements_map_toElement (actions : List Action) :
    ofElements (actions.map toElement) = .ok actions := by
  rw [ofElements, mapM_map_eq_ok (fun a _ => ofElement_toElement a), List.map_id']

end Action

end SceneLogic
