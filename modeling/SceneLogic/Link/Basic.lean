/-
Click links: objects that dispatch actions when they are clicked.

Lists of actions are bound to counts of clicks, and one list may be bound to any click that has
no list of its own (`ClickLists`).  A link may wrap its counter at a count, which must have
actions bound to it (`ClickLink.reset_bound`), since documents can only tell the reset on one of
these.
-/
import SceneLogic.Action.Draft
namespace SceneLogic

/-! ### Counts of clicks -/

/-- What a list of actions is bound to. -/
inductive ClickCount where
  /-- Every click without a list of its own. -/
  | any
  | exactly (n : Number)
deriving DecidableEq

namespace ClickCount

/-- The word for any click. -/
def anyWord : String := "any"

/-- The written form. -/
def text : ClickCount → String
  | any => anyWord
  | exactly n => n.text

/-- The count is that of a click. -/
def isOf (click : Number) : ClickCount → Bool
  | any => false
  | exactly n => n.same click

/-- A finite value that can be a number of clicks. -/
def isCount (x : Scalar) : Bool := x.isWhole && decide (0 ≤ x)

/-- Any click, or a number of clicks. -/
def isProper : ClickCount → Bool
  | any => true
  | exactly (.scalar x) => isCount x
  | _ => false

/-- The count that a field gives: the word for any click, or a number of clicks. -/
def ofField? : Draft.Field → Option ClickCount
  | .text word => if word = anyWord then some any else none
  | .number n =>
    match n.toScalar? with
    | some x => if isCount x then some (exactly x) else none
    | none => none
  | _ => none

theorem isProper_of_ofField? {field : Draft.Field} {count : ClickCount}
    (h : ofField? field = some count) : count.isProper := by
  unfold ofField? at h
  repeat' split at h
  all_goals simp_all
  all_goals subst h; simp_all [isProper]

end ClickCount

/-! ### Bound lists -/

/-- Adds actions to the list bound to a count, which comes last if it is new. -/
def bindActions (count : ClickCount) (actions : List Action) :
    List (ClickCount × List Action) → List (ClickCount × List Action)
  | [] => [(count, actions)]
  | (c, bound) :: rest =>
    if c = count then (c, bound ++ actions) :: rest
    else (c, bound) :: bindActions count actions rest

/-- The counts after adding actions: the same ones, or a new one behind them. -/
theorem counts_bindActions (count : ClickCount) (actions : List Action)
    (lists : List (ClickCount × List Action)) :
    (bindActions count actions lists).map Prod.fst =
      if count ∈ lists.map Prod.fst then lists.map Prod.fst
      else lists.map Prod.fst ++ [count] := by
  induction lists with
  | nil => simp [bindActions]
  | cons head rest ih =>
    obtain ⟨c, bound⟩ := head
    unfold bindActions
    split
    case isTrue same => simp [same]
    case isFalse different =>
      simp only [List.map_cons, ih, List.mem_cons, Ne.symm different, false_or]
      split <;> simp

/-- Lists of actions bound to proper and distinct counts, in the order in which the counts were
first bound. -/
structure ClickLists where
  entries : List (ClickCount × List Action)
  distinct : (entries.map Prod.fst).Nodup
  proper : ∀ count ∈ entries.map Prod.fst, count.isProper
deriving DecidableEq

namespace ClickLists

/-- No lists. -/
def empty : ClickLists := ⟨[], by simp, by simp⟩

instance : Inhabited ClickLists := ⟨empty⟩

/-- The lists with more actions bound to a proper count. -/
def bind (lists : ClickLists) (count : ClickCount) (h : count.isProper) (actions : List Action) :
    ClickLists where
  entries := bindActions count actions lists.entries
  distinct := by
    rw [counts_bindActions]
    split
    · exact lists.distinct
    case isFalse new =>
      refine List.nodup_append.2 ⟨lists.distinct, by simp, fun a ha b hb => ?_⟩
      rw [List.mem_singleton.1 hb]
      exact fun same => new (same ▸ ha)
  proper := by
    rw [counts_bindActions]
    intro c hc
    split at hc
    · exact lists.proper c hc
    · rcases List.mem_append.1 hc with hc | hc
      · exact lists.proper c hc
      · exact List.mem_singleton.1 hc ▸ h

/-- The list bound to a count, empty if there is none. -/
def boundTo (lists : ClickLists) (count : ClickCount) : List Action :=
  (lists.entries.lookup count).getD []

/-- The actions for a click: those bound to its number, else those bound to any click. -/
def forClick (lists : ClickLists) (click : Number) : List Action :=
  match lists.entries.find? (fun e => e.1.isOf click) with
  | some (_, actions) => actions
  | none => lists.boundTo .any

/-- Binds lists one after the other, refusing a field that gives no count. -/
def ofFields (fields : List (Draft.Field × List Action)) : Except Fault ClickLists :=
  fields.foldlM (fun lists (field, actions) =>
    match h : ClickCount.ofField? field with
    | some count => .ok (lists.bind count (ClickCount.isProper_of_ofField? h) actions)
    | none => .error (.badClickCount field.shown)) empty

end ClickLists

/-! ### Links -/

/-- An object's response to clicks. -/
structure ClickLink where
  enabled : Bool
  /-- Otherwise the link disables itself when it fires. -/
  remainEnabled : Bool
  enabledColor : Color
  selectedColor : Color
  lists : ClickLists
  /-- The count at which the counter wraps to zero, if it ever does. -/
  reset : Option Scalar
  reset_bound : ∀ n ∈ reset, lists.boundTo (.exactly n) ≠ []
deriving DecidableEq

/-- A link as it came from outside. -/
structure LinkDraft where
  enabled : Bool := true
  remainEnabled : Bool := true
  enabledColor : Option (List Number) := none
  selectedColor : Option (List Number) := none
  lists : List (Draft.Field × List Action) := []
  /-- `-1` for a counter that never wraps. -/
  reset : Number := -1

namespace ClickLink

/-- The colour of a link that can be clicked, if no other is given. -/
def standardEnabledColor : Color := ⟨0, 128, 255⟩

/-- The colour of a link while it is clicked, if no other is given. -/
def standardSelectedColor : Color := ⟨255, 0, 0⟩

/-- Refuses a reset that is neither `-1` nor a number of clicks. -/
def requireReset (reset : Number) : Except Fault (Option Scalar) :=
  match reset.toScalar? with
  | some x =>
    if ClickCount.isCount x then .ok (some x)
    else if reset.same (-1) then .ok none
    else .error (.badReset reset)
  | none => .error (.badReset reset)

/-- Refuses a colour with a channel out of range; without a colour the standard one is taken. -/
def colorOr (label : String) (standard : Color) : Option (List Number) → Except Fault Color
  | some values => Color.ofNumbers label values
  | none => .ok standard

/-- The link that a draft describes. -/
def ofDraft (d : LinkDraft) : Except Fault ClickLink := do
  let reset ← requireReset d.reset
  let lists ← ClickLists.ofFields d.lists
  if bound : ∀ n ∈ reset, lists.boundTo (.exactly n) ≠ [] then
    let enabledColor ← colorOr "enabled color" standardEnabledColor d.enabledColor
    let selectedColor ← colorOr "selected color" standardSelectedColor d.selectedColor
    return { enabled := d.enabled, remainEnabled := d.remainEnabled, enabledColor, selectedColor,
             lists, reset, reset_bound := bound }
  else .error (.unboundReset d.reset)

/-- The reset as a number, `-1` for a counter that never wraps. -/
def resetNumber (l : ClickLink) : Number :=
  match l.reset with
  | some n => n
  | none => -1

end ClickLink

end SceneLogic
