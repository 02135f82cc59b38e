/-
Click links in documents.

The `Link` of a `LinkRoot` has one `Actions` child for every action, with the count that the
action is bound to.  A reader groups what it finds by count, takes the least count that is tagged
as the reset, and binds what has no count to any click.
-/
import SceneLogic.Action.Document
import SceneLogic.Link.Basic
namespace SceneLogic.ClickLink

/-! ### Writing -/

/-- The stored form of a count, tagged if it is the reset. -/
def countElement (reset : Option Scalar) : ClickCount → Element
  | .any => .node "Clicks" [] [.node "Any" []]
  | .exactly n =>
    .node "Clicks" [] [.node "NumClicks"
      [("num_clicks", n.text), ("reset", flagText (reset.any fun r => Number.same r n))]]

/-- The stored form of a link. -/
def toElement (l : ClickLink) : Element :=
  let bound := l.lists.entries.flatMap fun (count, actions) =>
    actions.map fun action =>
      Element.node "Actions" [] [action.toElement, countElement l.reset count]
  .node "LinkRoot" [] [.node "Link" []
    ([.ofText "Enabled" (flagText l.enabled),
      .ofText "RemainEnabled" (flagText l.remainEnabled),
      .ofText "EnabledColor" (tupleText l.enabledColor.numbers),
      .ofText "SelectedColor" (tupleText l.selectedColor.numbers)] ++ bound)]

/-! ### Reading -/

/-- What an `Actions` element says: a count, whether it is tagged as the reset, and actions. -/
structure Bound where
  count : ClickCount
  tagged : Bool
  actions : List Action

/-- The count of a `NumClicks` element. -/
def readCount (e : Element) : Except Fault Scalar := do
  let text ← e.requireAttribute "num_clicks"
  match (Number.read text).toScalar? with
  | some x =>
    if ClickCount.isCount x ∧ ¬ Text.Blank text then .ok x
    else .error (.badClicksAttribute text)
  | none => .error (.badClicksAttribute text)

/-- Reads an `Actions` element. -/
def readBound (e : Element) : Except Fault Bound := do
  let (count, tagged) ←
    match (e.child? "Clicks").bind (·.child? "NumClicks") with
    | some numbered => do
      let n ← readCount numbered
      let tagged ← numbered.flagOr "reset" false
      pure (ClickCount.exactly n, tagged)
    | none => pure (ClickCount.any, false)
  let actions ← Action.ofElements (e.children.filter (·.tag != "Clicks"))
  return { count, tagged, actions }

/-- The counts tagged as the reset. -/
def taggedCounts (bound : List Bound) : List Scalar :=
  bound.filterMap fun b =>
    match b.tagged, b.count with
    | true, .exactly (.scalar n) => some n
    | _, _ => none

/-- The least of some values. -/
def least? : List Scalar → Option Scalar
  | [] => none
  | x :: xs => some (xs.foldl (fun least y => if y < least then y else least) x)

/-- The field that gives a count. -/
def countField : ClickCount → Draft.Field
  | .any => .text ClickCount.anyWord
  | .exactly n => .number n

/-- The colour in the text of a child, if there is such a child and it has a text. -/
def readColor (e : Element) (tag : String) : Except Fault (Option (List Number)) :=
  match (e.child? tag).bind (·.text) with
  | some text => (readTuple tag 3 text).map some
  | none => .ok none

/-- Reads a stored link. -/
def ofElement (root : Element) : Except Fault ClickLink := do
  match root.child? "Link" with
  | none => .error .noLink
  | some e =>
    let bound ← (e.childrenOf "Actions").mapM readBound
    let enabled ← readFlag (← e.requireChildText "Enabled")
    let remainEnabled ← readFlag (← e.requireChildText "RemainEnabled")
    let enabledColor ← readColor e "EnabledColor"
    let selectedColor ← readColor e "SelectedColor"
    ofDraft { enabled, remainEnabled, enabledColor, selectedColor,
              lists := bound.map fun b => (countField b.count, b.actions),
              reset := match least? (taggedCounts bound) with
                | some n => n
                | none => -1 }

end SceneLogic.ClickLink
