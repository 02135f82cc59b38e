/-
What a stored link says, read off its elements.

An `Actions` element is bound to the count of its first `NumClicks` (`countOf?`).  The reader goes
through these elements once, and what it makes of them is told from all of them together
(`Grouped`): the counts as they first appear, under each of them the actions of all the elements
with that count, and the least count with a tag as the reset (`read_links_are_grouped`).
-/
import SceneLogic.Proofs.Link.Stored
namespace SceneLogic

attribute [local irreducible] quantaPerUnit quantaLimit

/-! ### Binding, told from all that is bound -/

theorem bindEach_snoc (pairs : List (ClickCount × List Action)) (p : ClickCount × List Action) :
    bindEach (pairs ++ [p]) [] = bindActions p.1 p.2 (bindEach pairs []) := by
  rw [bindEach, List.foldl_append]
  rfl

/-- The counts that are bound, each where it first appears. -/
theorem counts_bindEach (pairs : List (ClickCount × List Action)) :
    (bindEach pairs []).map Prod.fst = (pairs.map Prod.fst).eraseDups := by
  -- The last pair meets the counts of all that stand before it, so the induction is from the end.
  induction pairs using List.reverseRecOn with
  | nil => rfl
  | append_singleton pairs p ih =>
    rw [bindEach_snoc, counts_bindActions, ih, List.map_append, List.map_singleton,
      List.eraseDups_append]
    simp only [List.mem_eraseDups]
    split
    case isTrue mem =>
      have known : [p.1].removeAll (pairs.map Prod.fst) = [] := by simpa [List.removeAll] using mem
      rw [known, List.eraseDups_nil, List.append_nil]
    case isFalse absent =>
      have new : [p.1].removeAll (pairs.map Prod.fst) = [p.1] := by
        simpa [List.removeAll] using absent
      rw [new]
      rfl

/-- More actions stand behind those that a count has, and no other count has them. -/
theorem lookup_bindActions (count c : ClickCount) (actions : List Action)
    (lists : List (ClickCount × List Action)) :
    ((bindActions count actions lists).lookup c).getD [] =
      (lists.lookup c).getD [] ++ if c = count then actions else [] := by
  induction lists with
  | nil =>
    by_cases same : c = count
    · simp [bindActions, same]
    · simp [bindActions, List.lookup_cons, beq_false_of_ne same, same]
  | cons e lists ih =>
    obtain ⟨own, bound⟩ := e
    rw [bindActions]
    by_cases found : c = own
    · subst found
      by_cases same : c = count
      · simp [same]
      · simp [same]
    · have passed : (c == own) = false := beq_false_of_ne found
      split
      case isTrue same =>
        have other : c ≠ count := same ▸ found
        simp [List.lookup_cons, passed, other]
      case isFalse => simpa [List.lookup_cons, passed] using ih

/-- Under a count stands all that is bound to it, in the order in which it is bound. -/
theorem lookup_bindEach (pairs : List (ClickCount × List Action)) (c : ClickCount) :
    ((bindEach pairs []).lookup c).getD [] =
      (pairs.filter (·.1 = c)).flatMap Prod.snd := by
  induction pairs using List.reverseRecOn with
  | nil => rfl
  | append_singleton pairs p ih =>
    rw [bindEach_snoc, lookup_bindActions, ih, List.filter_append, List.flatMap_append]
    by_cases same : p.1 = c
    · simp [same]
    · simp [same, Ne.symm same]

namespace ClickLink

/-! ### What the elements say -/

/-- The element with the number of clicks. -/
def numbered? (a : Element) : Option Element := (a.child? "Clicks").bind (·.child? "NumClicks")

/-- The count that an `Actions` element is bound to. -/
def countOf? (a : Element) : Option ClickCount :=
  match numbered? a with
  | none => some .any
  | some c => do
    let text ← c.attribute? "num_clicks"
    let n ← (Number.read text).toScalar?
    return .exactly n

/-- The elements of the actions in an `Actions` element. -/
def storedActions (a : Element) : List Element := a.children.filter (·.tag != "Clicks")

/-- The elements of all actions that are stored with a count. -/
def storedUnder (e : Element) (count : ClickCount) : List Element :=
  ((e.childrenOf "Actions").filter (countOf? · = some count)).flatMap storedActions

/-- The number of clicks has the tag of the reset. -/
def HasResetTag (a : Element) : Prop :=
  ∃ c text, numbered? a = some c ∧ c.attribute? "reset" = some text ∧ readFlag text = .ok true

/-- A number of clicks that is stored with the tag of the reset. -/
def StoredReset (e : Element) (n : Scalar) : Prop :=
  ∃ a ∈ e.childrenOf "Actions", countOf? a = some (.exactly n) ∧ HasResetTag a

/-- A link has what an element says. -/
structure Grouped (e : Element) (l : ClickLink) : Prop where
  counts : ∃ counts : List ClickCount,
    (e.childrenOf "Actions").map countOf? = counts.map some ∧
      l.lists.entries.map Prod.fst = counts.eraseDups
  lists : ∀ entry ∈ l.lists.entries, Action.ofElements (storedUnder e entry.1) = .ok entry.2
  /-- The reset is the least number of clicks with the tag. -/
  reset : ∀ n : Scalar, l.reset = some n ↔ StoredReset e n ∧ ∀ m, StoredReset e m → n ≤ m
  never : l.resetNumber = -1 ↔ ∀ n, ¬ StoredReset e n
  full : ∀ n, l.reset = some n → ∃ actions, (.exactly n, actions) ∈ l.lists.entries ∧ actions ≠ []

/-! ### Reading the elements one by one -/

/-- What was read of an `Actions` element is what it says. -/
structure ReadAs (a : Element) (b : Bound) : Prop where
  count : countOf? a = some b.count
  proper : b.count.isProper
  actions : Action.ofElements (storedActions a) = .ok b.actions
  tagged : b.tagged ↔ HasResetTag a

theorem attribute?_of_require {e : Element} {name value : String}
    (h : e.requireAttribute name = .ok value) : e.attribute? name = some value := by
  rw [Element.requireAttribute] at h
  split at h
  · next found =>
    cases h
    exact found
  · cases h

theorem readCount_eq_ok {c : Element} {n : Scalar} (h : readCount c = .ok n) :
    ∃ text, c.attribute? "num_clicks" = some text ∧ (Number.read text).toScalar? = some n ∧
      ClickCount.isCount n := by
  obtain ⟨text, required, h⟩ := bind_eq_ok.1 h
  refine ⟨text, attribute?_of_require required, ?_⟩
  split at h
  · next x value =>
    split at h
    · next proper =>
      cases h
      exact ⟨value, proper.1⟩
    · cases h
  · cases h

theorem flagOr_eq_ok {c : Element} {tagged : Bool} (h : c.flagOr "reset" false = .ok tagged) :
    tagged ↔ ∃ text, c.attribute? "reset" = some text ∧ readFlag text = .ok true := by
  rw [Element.flagOr] at h
  split at h
  · next text found =>
    constructor
    · rintro rfl
      exact ⟨text, found, h⟩
    · rintro ⟨text', found', flag⟩
      cases found.symm.trans found'
      cases h.symm.trans flag
      rfl
  · next none =>
    cases h
    constructor
    · rintro ⟨⟩
    · rintro ⟨text, found, -⟩
      cases none.symm.trans found

theorem readAs_of_readBound {a : Element} {b : Bound} (h : readBound a = .ok b) : ReadAs a b := by
  rw [readBound] at h
  cases number : (a.child? "Clicks").bind (·.child? "NumClicks") with
  | none =>
    rw [number] at h
    obtain ⟨_, any, h⟩ := bind_eq_ok.1 h
    cases any
    obtain ⟨actions, own, made⟩ := bind_eq_ok.1 h
    cases made
    have counted : countOf? a = some .any := by rw [countOf?, numbered?, number]
    refine ⟨counted, rfl, own, ?_⟩
    constructor
    · rintro ⟨⟩
    · rintro ⟨c, text, found, -⟩
      cases number.symm.trans found
  | some c =>
    rw [number] at h
    obtain ⟨n, clicks, h⟩ := bind_eq_ok.1 h
    obtain ⟨tagged, flag, h⟩ := bind_eq_ok.1 h
    obtain ⟨_, exactly, h⟩ := bind_eq_ok.1 h
    cases exactly
    obtain ⟨actions, own, made⟩ := bind_eq_ok.1 h
    cases made
    obtain ⟨text, found, value, proper⟩ := readCount_eq_ok clicks
    have counted : countOf? a = some (.exactly n) := by
      simp [countOf?, numbered?, number, found, value]
    refine ⟨counted, proper, own, ?_⟩
    rw [flagOr_eq_ok flag]
    constructor
    · rintro ⟨text, reset, true⟩
      exact ⟨c, text, number, reset, true⟩
    · rintro ⟨c', text, found', rest⟩
      cases number.symm.trans found'
      exact ⟨text, rest⟩

/-! ### Reading all of them -/

section Elements

variable {elements : List Element} {bound : List Bound}

theorem proper_of_reads (reads : List.Forall₂ ReadAs elements bound) :
    ∀ b ∈ bound, b.count.isProper := by
  induction reads with
  | nil => exact fun b mem => absurd mem List.not_mem_nil
  | cons first _ ih => exact List.forall_mem_cons.2 ⟨first.proper, ih⟩

theorem map_countOf? (reads : List.Forall₂ ReadAs elements bound) :
    elements.map countOf? = (bound.map Bound.count).map some := by
  induction reads with
  | nil => rfl
  | cons first _ ih => rw [List.map_cons, first.count, ih, List.map_cons, List.map_cons]

/-- The actions under a count are read in the order of their elements. -/
theorem ofElements_under (reads : List.Forall₂ ReadAs elements bound) (count : ClickCount) :
    Action.ofElements ((elements.filter (countOf? · = some count)).flatMap storedActions) =
      .ok ((bound.filter (·.count = count)).flatMap Bound.actions) := by
  induction reads with
  | nil => rfl
  | @cons a b _ _ first _ ih =>
    by_cases same : b.count = count
    · have own : countOf? a = some count := by rw [first.count, same]
      rw [List.filter_cons_of_pos (by simpa using own),
        List.filter_cons_of_pos (by simpa using same), List.flatMap_cons, List.flatMap_cons,
        Action.ofElements, List.mapM_append]
      exact bind_of_eq_ok first.actions (bind_of_eq_ok ih rfl)
    · have other : countOf? a ≠ some count := by
        rw [first.count]
        exact fun same' => same (Option.some.inj same')
      rwa [List.filter_cons_of_neg (by simpa using other),
        List.filter_cons_of_neg (by simpa using same)]

theorem mem_taggedCounts_iff (reads : List.Forall₂ ReadAs elements bound) {n : Scalar} :
    n ∈ taggedCounts bound ↔ ∃ a ∈ elements, countOf? a = some (.exactly n) ∧ HasResetTag a := by
  rw [mem_taggedCounts]
  induction reads with
  | nil => simp
  | cons first _ ih =>
    simp only [List.mem_cons, exists_eq_or_imp, ih, first.count, first.tagged, Option.some_inj]
    exact or_congr_left and_comm

end Elements

/-! ### The least number -/

theorem least?_eq_none {xs : List Scalar} : least? xs = none ↔ xs = [] := by
  cases xs with
  | nil => exact ⟨fun _ => rfl, fun _ => rfl⟩
  | cons x xs =>
    constructor
    · rintro ⟨⟩
    · rintro ⟨⟩

/-- The least of some values is one of them, and none of them is less. -/
theorem least?_of_eq_some {xs : List Scalar} {r : Scalar} (h : least? xs = some r) :
    r ∈ xs ∧ ∀ y ∈ xs, r ≤ y := by
  cases xs with
  | nil => cases h
  | cons x xs =>
    cases h
    -- The least value so far takes the place of the first one.
    induction xs generalizing x with
    | nil =>
      refine ⟨List.mem_cons_self, fun y mem => ?_⟩
      rw [List.mem_singleton.1 mem]
      exact Int.le_refl _
    | cons y xs ih =>
      rw [List.foldl_cons]
      split
      case isTrue less =>
        obtain ⟨mem, below⟩ := ih y
        refine ⟨List.mem_cons_of_mem _ mem, fun z mem' => ?_⟩
        rcases List.mem_cons.1 mem' with rfl | rest
        · exact Int.le_trans (below y List.mem_cons_self) (Int.le_of_lt less)
        · exact below z rest
      case isFalse notLess =>
        obtain ⟨mem, below⟩ := ih x
        refine ⟨?_, fun z mem' => ?_⟩
        · rcases List.mem_cons.1 mem with first | rest
          · rw [first]
            exact List.mem_cons_self
          · exact List.mem_cons_of_mem _ (List.mem_cons_of_mem _ rest)
        · rcases List.mem_cons.1 mem' with rfl | rest
          · exact below z List.mem_cons_self
          · rcases List.mem_cons.1 rest with rfl | rest
            · exact Int.le_trans (below x List.mem_cons_self) (Int.not_lt.1 notLess)
            · exact below z (List.mem_cons_of_mem _ rest)

/-- The least of some values is the only one of them that is not greater than any. -/
theorem least?_eq_some_iff {xs : List Scalar} {r : Scalar} :
    least? xs = some r ↔ r ∈ xs ∧ ∀ y ∈ xs, r ≤ y := by
  refine ⟨least?_of_eq_some, fun ⟨mem, below⟩ => ?_⟩
  cases h : least? xs with
  | none => rw [least?_eq_none.1 h] at mem; cases mem
  | some r' =>
    obtain ⟨mem', below'⟩ := least?_of_eq_some h
    have same : r'.quanta = r.quanta := Int.le_antisymm (below' r mem) (below r' mem')
    obtain ⟨_, _⟩ := r
    obtain ⟨_, _⟩ := r'
    cases same
    rfl

/-! ### The link -/

theorem requireReset_least {bound : List Bound} (proper : ∀ b ∈ bound, b.count.isProper) :
    requireReset (match least? (taggedCounts bound) with
      | some n => n
      | none => -1) = .ok (least? (taggedCounts bound)) := by
  cases h : least? (taggedCounts bound) with
  | none => decide +kernel
  | some n =>
    obtain ⟨b, mem, -, count⟩ := mem_taggedCounts.1 (least?_eq_some_iff.1 h).1
    have isProper := proper b mem
    rw [count] at isProper
    exact if_pos isProper

/-- A link that was made of a draft has its lists and its reset. -/
theorem parts_of_ofDraft {d : LinkDraft} {l : ClickLink} (h : ofDraft d = .ok l) :
    requireReset d.reset = .ok l.reset ∧ ClickLists.ofFields d.lists = .ok l.lists := by
  obtain ⟨reset, required, h⟩ := bind_eq_ok.1 h
  obtain ⟨lists, bound, h⟩ := bind_eq_ok.1 h
  split at h
  · obtain ⟨enabledColor, -, h⟩ := bind_eq_ok.1 h
    obtain ⟨selectedColor, -, made⟩ := bind_eq_ok.1 h
    cases made
    exact ⟨required, bound⟩
  · cases h

/-- A link that was read has its lists and its reset from its `Actions` elements. -/
theorem parts_of_ofElement {root : Element} {l : ClickLink} (h : ofElement root = .ok l) :
    ∃ e bound, root.child? "Link" = some e ∧
      List.Forall₂ ReadAs (e.childrenOf "Actions") bound ∧
      l.lists.entries = bindEach (bound.map fun b => (b.count, b.actions)) [] ∧
      l.reset = least? (taggedCounts bound) := by
  rw [ofElement] at h
  cases link : root.child? "Link" with
  | none =>
    rw [link] at h
    cases h
  | some e =>
    rw [link] at h
    obtain ⟨bound, each, h⟩ := bind_eq_ok.1 h
    obtain ⟨_, -, h⟩ := bind_eq_ok.1 h
    obtain ⟨_, -, h⟩ := bind_eq_ok.1 h
    obtain ⟨_, -, h⟩ := bind_eq_ok.1 h
    obtain ⟨_, -, h⟩ := bind_eq_ok.1 h
    obtain ⟨_, -, h⟩ := bind_eq_ok.1 h
    obtain ⟨_, -, h⟩ := bind_eq_ok.1 h
    obtain ⟨reset, lists⟩ := parts_of_ofDraft h
    have reads : List.Forall₂ ReadAs (e.childrenOf "Actions") bound :=
      (mapM_eq_ok_iff.1 each).imp fun _ _ => readAs_of_readBound
    have proper := proper_of_reads reads
    refine ⟨e, bound, rfl, reads, ?_, ?_⟩
    · have pairs : ∀ p ∈ bound.map fun b => (b.count, b.actions), p.1.isProper :=
        List.forall_mem_map.2 proper
      obtain ⟨made, same, entries⟩ := ClickLists.exists_ofFields_eq_ok pairs
      rw [List.map_map] at same
      cases same.symm.trans lists
      exact entries
    · exact Except.ok.inj (reset.symm.trans (requireReset_least proper))

/-- A number of clicks is not the number of a counter that never wraps. -/
theorem resetNumber_eq_iff (l : ClickLink) : l.resetNumber = -1 ↔ l.reset = none := by
  rw [resetNumber]
  cases h : l.reset with
  | none => exact ⟨fun _ => rfl, fun _ => rfl⟩
  | some n =>
    have isCount : ClickCount.isCount n := l.lists.proper _ (List.mem_map_of_mem (l.mem_of_reset h))
    have negative : (-1 : Number).toScalar?.all (fun x => !ClickCount.isCount x) := by
      decide +kernel
    constructor
    · intro same
      dsimp only at same
      rw [← same] at negative
      simp [Number.toScalar?, isCount] at negative
    · rintro ⟨⟩

/-- **A link that was read has its actions by their counts**, in the order of the document, and
the least count with the tag of the reset. -/
theorem read_links_are_grouped {root : Element} {l : ClickLink} (h : ofElement root = .ok l) :
    ∃ e, root.child? "Link" = some e ∧ Grouped e l := by
  obtain ⟨e, bound, link, reads, entries, reset⟩ := parts_of_ofElement h
  have stored : ∀ n, n ∈ taggedCounts bound ↔ StoredReset e n := fun n => mem_taggedCounts_iff reads
  refine ⟨e, link, ?_, ?_, ?_, ?_, ?_⟩
  · refine ⟨bound.map Bound.count, map_countOf? reads, ?_⟩
    rw [entries, counts_bindEach, List.map_map]
    rfl
  · rintro ⟨count, actions⟩ mem
    have under := lookup_bindEach (bound.map fun b => (b.count, b.actions)) count
    rw [← entries] at under
    have own : actions = (bound.filter (·.count = count)).flatMap Bound.actions := by
      rw [← ClickLists.boundTo_of_mem mem, ClickLists.boundTo, under, List.filter_map,
        List.flatMap_map]
      rfl
    rw [own]
    exact ofElements_under reads count
  · intro n
    simp only [reset, least?_eq_some_iff, stored]
  · rw [resetNumber_eq_iff, reset, least?_eq_none, List.eq_nil_iff_forall_not_mem]
    simp only [stored]
  · intro n wraps
    exact ⟨_, l.mem_of_reset wraps, l.reset_bound n wraps⟩

/-- An `Actions` element with a number of clicks as it is spelled, and the tag of the reset. -/
def clicksElement (clicks tag : String) (actions : List Action) : Element :=
  .node "Actions" [] (.node "Clicks" [] [.node "NumClicks" [("num_clicks", clicks), ("reset", tag)]]
    :: actions.map Action.toElement)

/-- A link whose fifth click is told in two places, and whose reset is tagged at two counts. -/
def interleavedDocument : Element :=
  .node "LinkRoot" [] [.node "Link" [] [.ofText "Enabled" "true", .ofText "RemainEnabled" "FALSE",
    clicksElement "5" "true" [.reset], .node "Actions" [] [chime.toElement],
    clicksElement "3" "True" [chime], clicksElement " 5.0 " "false" [chime, chime],
    clicksElement "1" "false" []]]

theorem interleavedDocument_is_grouped : ∃ l, ofElement interleavedDocument = .ok l ∧
    (∃ e, interleavedDocument.child? "Link" = some e ∧ Grouped e l) ∧
    l.lists.entries = [(.exactly 5, [.reset, chime, chime]), (.any, [chime]),
      (.exactly 3, [chime]), (.exactly 1, [])] ∧ l.resetNumber = 3 := by
  have shown : (ofElement interleavedDocument).map (fun l => (l.lists.entries, l.resetNumber)) =
      .ok ([(.exactly 5, [.reset, chime, chime]), (.any, [chime]), (.exactly 3, [chime]),
        (.exactly 1, [])], 3) := by
    decide +kernel
  obtain ⟨l, made, parts⟩ := exists_of_map_eq_ok shown
  obtain ⟨entries, reset⟩ := Prod.mk.inj parts
  exact ⟨l, made, read_links_are_grouped made, entries, reset⟩

end ClickLink

end SceneLogic
