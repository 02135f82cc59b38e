/-
Counting clicks.

A click has the number behind the count that was kept; the count kept after it is that number,
or zero when it is the one at which the counter wraps.  Actions are chosen by the number of the
click, so those bound to the wrapping count are dispatched as well.
-/
import SceneLogic.Link.Basic
namespace SceneLogic

/-- What a click comes to. -/
structure ClickAdvance where
  /-- The number of the click. -/
  click : Number
  /-- The count kept after it. -/
  count : Number
deriving DecidableEq

/-- Counts a click; a negative reset never wraps. -/
def advanceClicks (count reset : Number) : ClickAdvance :=
  let click := count.add 1
  ⟨click, if Number.le 0 reset ∧ click.same reset then 0 else click⟩

/-- The dispatch nodes bound to a count. -/
structure ClickBinding where
  clicks : ClickCount
  dispatch : List String
  /-- How long the link stays active when this list fires. -/
  activeTicks : Number
deriving DecidableEq

/-- The binding for a click: the first for its number, else the first for any click. -/
def ClickBinding.forClick? (bindings : List ClickBinding) (click : Number) : Option ClickBinding :=
  (bindings.find? fun b => b.clicks.isOf click).or (bindings.find? fun b => b.clicks = .any)

end SceneLogic
