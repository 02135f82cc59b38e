/-
Stored click links.

A link stores its actions one by one, each with its count.  Its reader groups them again and finds
the reset by its tags, so a link reads back without the counts whose lists are empty
(`ClickLink.ofElement_toElement`).  If there are none the link reads back in every part
(`ClickLink.full_lists_read_back`).  Otherwise a click whose own list is empty, and which therefore
does nothing, falls to the list that is bound to any click once the link was stored
(`ClickLink.clicks_of_stored`).
-/
import SceneLogic.Link.Document
import SceneLogic.Proofs.Action.Stored
import SceneLogic.Proofs.Link.Lists
namespace SceneLogic

attribute [local irreducible] quantaPerUnit quantaLimit

/-! ### Fields of counts -/

theorem ClickCount.ofField?_countField {count : ClickCount} (proper : count.isProper) :
    ofField? (ClickLink.countField count) = some count := by
  cases count with
  | any => rfl
  | exactly n =>
    cases n with
    | scalar x => exact if_pos proper
    | _ => cases proper

/-- Lists that are given by the fields of proper counts are bound one after the other. -/
theorem ClickLists.exists_ofFields_eq_ok {pairs : List (ClickCount × List Action)}
    (proper : ∀ p ∈ pairs, p.1.isProper) :
    ∃ lists, ofFields (pairs.map fun p => (ClickLink.countField p.1, p.2)) = .ok lists ∧
      lists.entries = bindEach pairs [] := by
  -- The lists that are bound so far are those of a prefix, so the induction is from the end.
  induction pairs using List.reverseRecOn with
  | nil => exact ⟨empty, rfl, rfl⟩
  | append_singleton pairs p ih =>
    obtain ⟨lists, read, entries⟩ := ih fun q mem => proper q (List.mem_append_left _ mem)
    have last : p.1.isProper := proper p (List.mem_append_right _ List.mem_cons_self)
    refine ⟨lists.bind p.1 last p.2, ?_, ?_⟩
    · rw [ofFields, List.map_append, List.foldlM_append]
      refine bind_of_eq_ok read ?_
      rw [List.map_singleton, List.foldlM_cons]
      refine bind_of_eq_ok (a := lists.bind p.1 last p.2) ?_ rfl
      dsimp only
      -- The field gives the count that it was made of, so that binding goes on.
      split
      · next count field =>
        cases field.symm.trans (ClickCount.ofField?_countField last)
        rfl
      · next none => cases none.symm.trans (ClickCount.ofField?_countField last)
    · rw [bindEach, List.foldl_append]
      show bindActions p.1 p.2 lists.entries = _
      rw [entries]
      rfl

namespace ClickLink

variable {reset : Option Scalar} {count : ClickCount}

/-! ### Stored lists -/

/-- The count is that of the reset. -/
def isReset (reset : Option Scalar) : ClickCount → Bool
  | .any => false
  | .exactly n => reset.any fun r => Number.same r n

/-- An element that stores a list of actions with its count. -/
def listElement (reset : Option Scalar) (entry : ClickCount × List Action) : Element :=
  .node "Actions" [] (entry.2.map Action.toElement ++ [countElement reset entry.1])

/-- What such an element says. -/
def boundOf (reset : Option Scalar) (entry : ClickCount × List Action) : Bound :=
  ⟨entry.1, isReset reset entry.1, entry.2⟩

theorem tag_countElement : (countElement reset count).tag = "Clicks" := by
  cases count <;> rfl

/-- No action is stored under the tag of a count. -/
theorem tag_of_mem_map {actions : List Action} {e : Element}
    (mem : e ∈ actions.map Action.toElement) : (e.tag == "Clicks") = false := by
  obtain ⟨a, -, rfl⟩ := List.mem_map.1 mem
  cases a <;> rfl

theorem child?_listElement (entry : ClickCount × List Action) :
    (listElement reset entry).child? "Clicks" = some (countElement reset entry.1) := by
  have actions : (entry.2.map Action.toElement).find? (·.tag == "Clicks") = none := by
    rw [List.find?_eq_none]
    intro e mem
    rw [tag_of_mem_map mem]
    decide
  show List.find? _ (_ ++ _) = _
  rw [List.find?_append, actions, Option.none_or, List.find?_singleton, tag_countElement]
  rfl

theorem actions_listElement (entry : ClickCount × List Action) :
    (listElement reset entry).children.filter (·.tag != "Clicks") =
      entry.2.map Action.toElement := by
  have actions : (entry.2.map Action.toElement).filter (·.tag != "Clicks") =
      entry.2.map Action.toElement := by
    rw [List.filter_eq_self]
    intro e mem
    rw [bne, tag_of_mem_map mem]
    rfl
  show List.filter _ (_ ++ _) = _
  rw [List.filter_append, actions, List.filter_cons_of_neg (by rw [tag_countElement]; decide)]
  exact List.append_nil _

theorem readCount_node {x : Scalar} (isCount : ClickCount.isCount x) {tag : String}
    {attributes : List (String × String)} {children : List Element}
    (h : attributes.reverse.lookup "num_clicks" = some (Number.scalar x).text) :
    readCount (.node tag attributes children) = .ok x := by
  refine bind_of_eq_ok (Element.requireAttribute_node h) ?_
  rw [Number.toScalar?_read_text]
  exact if_pos ⟨isCount, Number.not_blank_text _⟩

/-- A stored list reads back, even if it is empty. -/
theorem readBound_listElement {entry : ClickCount × List Action} (proper : entry.1.isProper) :
    readBound (listElement reset entry) = .ok (boundOf reset entry) := by
  have actions : Action.ofElements ((listElement reset entry).children.filter (·.tag != "Clicks")) =
      .ok entry.2 := by
    rw [actions_listElement, Action.ofElements_map_toElement]
  rw [readBound, child?_listElement]
  obtain ⟨count, list⟩ := entry
  cases count with
  | any => exact bind_of_eq_ok (a := (.any, false)) rfl (bind_of_eq_ok actions rfl)
  | exactly n =>
    cases n with
    | scalar x =>
      refine bind_of_eq_ok (readCount_node proper rfl) ?_
      refine bind_of_eq_ok (Element.flagOr_node rfl) ?_
      exact bind_of_eq_ok rfl (bind_of_eq_ok actions rfl)
    | _ => cases proper

/-! ### The reset -/

theorem mem_taggedCounts {bound : List Bound} {n : Scalar} :
    n ∈ taggedCounts bound ↔ ∃ b ∈ bound, b.tagged ∧ b.count = .exactly n := by
  rw [taggedCounts, List.mem_filterMap]
  refine exists_congr fun b => and_congr_right fun _ => ?_
  obtain ⟨count, tagged, actions⟩ := b
  cases tagged with
  | false => simp
  | true =>
    cases count with
    | any => simp
    | exactly m => cases m <;> simp

theorem isReset_exactly {n : Scalar} : isReset reset (.exactly n) ↔ reset = some n := by
  cases reset with
  | none =>
    constructor <;> rintro ⟨⟩
  | some r =>
    show decide (r.quanta = n.quanta) = true ↔ some r = some n
    rw [decide_eq_true_eq, Option.some_inj]
    obtain ⟨_, _⟩ := r
    obtain ⟨_, _⟩ := n
    exact ⟨fun same => by cases same; rfl, fun same => by cases same; rfl⟩

theorem least?_eq_some {xs : List Scalar} {r : Scalar} (nonempty : xs ≠ [])
    (all : ∀ x ∈ xs, x = r) : least? xs = some r := by
  cases xs with
  | nil => exact absurd rfl nonempty
  | cons x xs =>
    obtain ⟨first, rest⟩ := List.forall_mem_cons.1 all
    rw [least?, first]
    clear nonempty all
    -- No value is less than the one that was taken first.
    induction xs with
    | nil => rfl
    | cons y xs ih =>
      obtain ⟨next, rest⟩ := List.forall_mem_cons.1 rest
      rw [List.foldl_cons, next, ite_self]
      exact ih rest

/-- The reset of a link is the least count that is tagged as such, and the only one. -/
theorem least?_taggedCounts (l : ClickLink) :
    least? (taggedCounts ((singles l.lists.entries).map (boundOf l.reset))) = l.reset := by
  have tagged : ∀ n ∈ taggedCounts ((singles l.lists.entries).map (boundOf l.reset)),
      l.reset = some n := by
    intro n mem
    obtain ⟨b, stored, tagged, count⟩ := mem_taggedCounts.1 mem
    obtain ⟨entry, -, rfl⟩ := List.mem_map.1 stored
    have same : entry.1 = .exactly n := count
    rw [boundOf, same] at tagged
    exact isReset_exactly.1 tagged
  cases h : l.reset with
  | none =>
    rw [h] at tagged
    have none : taggedCounts ((singles l.lists.entries).map (boundOf none)) = [] :=
      List.eq_nil_iff_forall_not_mem.2 fun n mem => by cases tagged n mem
    rw [none]
    rfl
  | some r =>
    rw [h] at tagged
    refine least?_eq_some ?_ fun n mem => (Option.some.inj (tagged n mem)).symm
    -- The reset has an action, and it is stored with the tag.
    obtain ⟨a, mem⟩ := List.exists_mem_of_ne_nil _ (l.reset_bound r h)
    have stored : (.exactly r, [a]) ∈ singles l.lists.entries :=
      List.mem_flatMap.2 ⟨_, l.mem_of_reset h, List.mem_map_of_mem mem⟩
    exact List.ne_nil_of_mem (mem_taggedCounts.2
      ⟨_, List.mem_map_of_mem stored, isReset_exactly.2 rfl, rfl⟩)

theorem requireReset_resetNumber (l : ClickLink) : requireReset l.resetNumber = .ok l.reset := by
  rw [resetNumber]
  cases h : l.reset with
  | none => decide +kernel
  | some n =>
    have proper : ClickCount.isCount n := l.lists.proper _ (List.mem_map_of_mem (l.mem_of_reset h))
    exact if_pos proper

/-! ### Links -/

theorem ofDraft_eq_ok {d : LinkDraft} {l : ClickLink} (enabled : d.enabled = l.enabled)
    (remainEnabled : d.remainEnabled = l.remainEnabled)
    (enabledColor : d.enabledColor = some l.enabledColor.numbers)
    (selectedColor : d.selectedColor = some l.selectedColor.numbers)
    (lists : ClickLists.ofFields d.lists = .ok l.lists)
    (reset : d.reset = l.resetNumber) : ofDraft d = .ok l := by
  obtain ⟨_, _, _, _, _, _⟩ := d
  cases enabled
  cases remainEnabled
  cases enabledColor
  cases selectedColor
  cases reset
  refine bind_of_eq_ok l.requireReset_resetNumber ?_
  refine bind_of_eq_ok lists ?_
  refine (dif_pos l.reset_bound).trans ?_
  refine bind_of_eq_ok (Color.ofNumbers_numbers _ l.enabledColor) ?_
  exact bind_of_eq_ok (Color.ofNumbers_numbers _ l.selectedColor) rfl

theorem readColor_eq_ok {e : Element} {tag : String} {c : Color}
    (stored : (e.child? tag).bind (·.text) = some (tupleText c.numbers)) :
    readColor e tag = .ok (some c.numbers) := by
  rw [readColor, stored]
  dsimp only
  rw [Color.readTuple_numbers]
  rfl

/-- The link without the counts whose lists are empty. -/
def withoutEmpty (l : ClickLink) : ClickLink :=
  { l with
    lists := l.lists.withoutEmpty
    reset_bound := fun n h => by
      rw [ClickLists.boundTo_withoutEmpty]
      exact l.reset_bound n h }

/-- The element in which a link is stored. -/
def linkElement (l : ClickLink) : Element :=
  .node "Link" [] ([.ofText "Enabled" (flagText l.enabled),
      .ofText "RemainEnabled" (flagText l.remainEnabled),
      .ofText "EnabledColor" (tupleText l.enabledColor.numbers),
      .ofText "SelectedColor" (tupleText l.selectedColor.numbers)] ++
    (singles l.lists.entries).map (listElement l.reset))

theorem toElement_eq (l : ClickLink) : l.toElement = .node "LinkRoot" [] [l.linkElement] := by
  rw [toElement, linkElement, singles, List.map_flatMap]
  simp only [List.map_map]
  rfl

theorem childrenOf_linkElement (l : ClickLink) :
    l.linkElement.childrenOf "Actions" = (singles l.lists.entries).map (listElement l.reset) := by
  show (Element.node "Link" [] ((singles l.lists.entries).map (listElement l.reset))).childrenOf
    "Actions" = _
  exact Element.childrenOf_node_map fun _ => rfl

/-- A stored link reads back without the counts whose lists are empty. -/
theorem ofElement_toElement (l : ClickLink) : ofElement l.toElement = .ok l.withoutEmpty := by
  have proper : ∀ entry ∈ singles l.lists.entries, entry.1.isProper := by
    intro entry stored
    obtain ⟨e, mem, single⟩ := List.mem_flatMap.1 stored
    obtain ⟨a, -, rfl⟩ := List.mem_map.1 single
    exact l.lists.proper e.1 (List.mem_map_of_mem mem)
  have bound : (l.linkElement.childrenOf "Actions").mapM readBound =
      .ok ((singles l.lists.entries).map (boundOf l.reset)) := by
    rw [childrenOf_linkElement]
    exact mapM_map_eq_ok fun entry mem => readBound_listElement (proper entry mem)
  obtain ⟨lists, read, entries⟩ := ClickLists.exists_ofFields_eq_ok proper
  have grouped : lists = l.withoutEmpty.lists := by
    have distinct : (([] ++ l.lists.entries).map Prod.fst).Nodup := l.lists.distinct
    exact ClickLists.eq_of_entries (entries.trans (bindEach_singles distinct))
  rw [toElement_eq]
  -- The parts are read one by one, and what was read makes the link again.
  refine bind_of_eq_ok bound ?_
  refine bind_of_eq_ok rfl (bind_of_eq_ok (readFlag_flagText l.enabled) ?_)
  refine bind_of_eq_ok rfl (bind_of_eq_ok (readFlag_flagText l.remainEnabled) ?_)
  refine bind_of_eq_ok (readColor_eq_ok (c := l.enabledColor) rfl) ?_
  refine bind_of_eq_ok (readColor_eq_ok (c := l.selectedColor) rfl) ?_
  refine ofDraft_eq_ok rfl rfl rfl rfl ?_ ?_
  · rw [← grouped, ← read, List.map_map]
    rfl
  · rw [least?_taggedCounts]
    rfl

/-- **A stored link reads back** in every part if it has no empty list. -/
theorem full_lists_read_back (l : ClickLink) (full : ∀ e ∈ l.lists.entries, e.2 ≠ []) :
    ofElement l.toElement = .ok l := by
  have same : l.withoutEmpty = l := by
    obtain ⟨enabled, remainEnabled, enabledColor, selectedColor, lists, reset, bound⟩ := l
    rw [withoutEmpty, mk.injEq]
    exact ⟨rfl, rfl, rfl, rfl, ClickLists.withoutEmpty_eq_self full, rfl⟩
  rw [ofElement_toElement, same]

/-- A sound that is started by clicks. -/
def chime : Action := .sound ⟨"chime", by decide⟩ .start

/-- A link that wraps at its third click, with lists that are not in the order of their counts. -/
def thirdClickDraft : LinkDraft where
  enabled := false
  selectedColor := some [0, 255, 7]
  lists := [(.number 3, [.reset, chime]), (.text ClickCount.anyWord, [chime]), (.number 1, [chime]),
    (.number 3, [chime])]
  reset := 3

theorem thirdClickDraft_reads_back : ∃ l, ofDraft thirdClickDraft = .ok l ∧
    (∀ e ∈ l.lists.entries, e.2 ≠ []) ∧ ofElement l.toElement = .ok l ∧
    l.lists.entries = [(.exactly 3, [.reset, chime, chime]), (.any, [chime]),
      (.exactly 1, [chime])] := by
  have shown : (ofDraft thirdClickDraft).map (·.lists.entries) =
      .ok [(.exactly 3, [.reset, chime, chime]), (.any, [chime]), (.exactly 1, [chime])] := by
    decide +kernel
  obtain ⟨l, made, entries⟩ := exists_of_map_eq_ok shown
  have full : ∀ e ∈ l.lists.entries, e.2 ≠ [] := by
    rw [entries]
    simp
  exact ⟨l, made, full, full_lists_read_back l full, entries⟩

/-- **What a click does after a link was stored.**  The link reads back with its reset, and a click
has the actions that it had before, unless it had none: then it has those bound to any click. -/
theorem clicks_of_stored (l : ClickLink) :
    ∃ read, ofElement l.toElement = .ok read ∧ read.reset = l.reset ∧
      ∀ click, read.lists.forClick click =
        if l.lists.forClick click = [] then l.lists.boundTo .any else l.lists.forClick click :=
  ⟨l.withoutEmpty, l.ofElement_toElement, rfl, l.lists.forClick_withoutEmpty⟩

/-- A link whose first click is spared by an empty list of its own. -/
def sparedFirstClick : LinkDraft where
  lists := [(.number 1, []), (.text ClickCount.anyWord, [chime])]

/-- The first click does nothing, but it sounds once the link was stored. -/
theorem sparedFirstClick_sounds : ∃ l read, ofDraft sparedFirstClick = .ok l ∧
    ofElement l.toElement = .ok read ∧
    l.lists.forClick 1 = [] ∧ read.lists.forClick 1 = [chime] := by
  have shown : (ofDraft sparedFirstClick).map (fun l =>
      (l.lists.forClick 1, (ofElement l.toElement).map fun read => read.lists.forClick 1)) =
        .ok ([], .ok [chime]) := by
    decide +kernel
  obtain ⟨l, made, parts⟩ := exists_of_map_eq_ok shown
  obtain ⟨silent, stored⟩ := Prod.mk.inj parts
  obtain ⟨read, reads, sounds⟩ := exists_of_map_eq_ok stored
  exact ⟨l, read, made, reads, silent, sounds⟩

end ClickLink

end SceneLogic
