/-
Lists bound to counts of clicks.

No count is bound twice, so an entry is the list bound to its count (`ClickLists.boundTo_of_mem`),
and at most one entry has the number of a click (`ClickLists.forClick_of_mem`).  Binding every
action on its own groups them again, but for the counts that had none
(`bindEach_singles`): these are lost, so that a click with an empty list of its own falls to the
list bound to any click (`ClickLists.forClick_withoutEmpty`).
-/
import Mathlib.Data.List.Nodup
import SceneLogic.Link.Basic
import SceneLogic.Proofs.Number.Rounding
namespace SceneLogic

/-! ### Binding one list after the other -/

/-- Binds lists one after the other. -/
def bindEach (bound lists : List (ClickCount × List Action)) : List (ClickCount × List Action) :=
  bound.foldl (fun lists b => bindActions b.1 b.2 lists) lists

/-- The actions of bound lists, each bound on its own. -/
def singles (entries : List (ClickCount × List Action)) : List (ClickCount × List Action) :=
  entries.flatMap fun e => e.2.map fun a => (e.1, [a])

section Binding

variable {count : ClickCount} {lists : List (ClickCount × List Action)}

/-- What is bound to other counts is passed over. -/
theorem bindActions_append (absent : count ∉ lists.map Prod.fst) (actions : List Action)
    (rest : List (ClickCount × List Action)) :
    bindActions count actions (lists ++ rest) = lists ++ bindActions count actions rest := by
  induction lists with
  | nil => rfl
  | cons e lists ih =>
    obtain ⟨c, bound⟩ := e
    rw [List.map_cons, List.mem_cons, not_or] at absent
    rw [List.cons_append, bindActions, if_neg (Ne.symm absent.1), ih absent.2, List.cons_append]

/-- Actions that are bound one after the other to the last count make one list. -/
theorem bindEach_last (absent : count ∉ lists.map Prod.fst) (bound actions : List Action) :
    bindEach (actions.map fun a => (count, [a])) (lists ++ [(count, bound)]) =
      lists ++ [(count, bound ++ actions)] := by
  induction actions generalizing bound with
  | nil => rw [List.append_nil]; rfl
  | cons a actions ih =>
    have first : bindActions count [a] (lists ++ [(count, bound)]) =
        lists ++ [(count, bound ++ [a])] := by
      rw [bindActions_append absent, bindActions, if_pos rfl]
    rw [List.map_cons, bindEach, List.foldl_cons, first]
    exact (ih _).trans (by rw [List.append_assoc]; rfl)

/-- Actions that are bound on their own are grouped by their counts again; a count without any is
not among these. -/
theorem bindEach_singles {entries : List (ClickCount × List Action)}
    (distinct : ((lists ++ entries).map Prod.fst).Nodup) :
    bindEach (singles entries) lists = lists ++ entries.filter (·.2 ≠ []) := by
  induction entries generalizing lists with
  | nil => exact (List.append_nil _).symm
  | cons e entries ih =>
    obtain ⟨c, actions⟩ := e
    have parts : bindEach (singles ((c, actions) :: entries)) lists =
        bindEach (singles entries) (bindEach (actions.map fun a => (c, [a])) lists) :=
      List.foldl_append ..
    rw [parts]
    cases actions with
    | nil =>
      -- Nothing is bound to the count of an empty list.
      rw [List.filter_cons_of_neg (by simp)]
      refine ih (distinct.sublist ?_)
      exact ((List.sublist_cons_self _ _).append_left lists).map _
    | cons a actions =>
      have absent : c ∉ lists.map Prod.fst := by
        rw [List.map_append, List.map_cons] at distinct
        exact fun mem => (List.nodup_append.1 distinct).2.2 c mem c List.mem_cons_self rfl
      -- The count is new for the first action and the last count for the others.
      have first : bindEach ((a :: actions).map fun a => (c, [a])) lists =
          lists ++ [(c, a :: actions)] := by
        have new := bindActions_append absent [a] []
        rw [List.append_nil] at new
        rw [List.map_cons, bindEach, List.foldl_cons, new]
        exact bindEach_last absent [a] actions
      rw [first, List.filter_cons_of_pos (by simp), ih (by rwa [List.append_assoc]),
        List.append_assoc]
      rfl

end Binding

namespace ClickLists

variable {lists : ClickLists} {count : ClickCount}

theorem eq_of_entries {lists lists' : ClickLists} (h : lists.entries = lists'.entries) :
    lists = lists' := by
  cases lists
  cases lists'
  cases h
  rfl

/-! ### The list of a count -/

theorem boundTo_of_mem {actions : List Action} (mem : (count, actions) ∈ lists.entries) :
    lists.boundTo count = actions := by
  rw [boundTo]
  cases found : lists.entries.lookup count with
  | none => simpa using List.lookup_eq_none_iff.1 found _ mem
  | some bound =>
    obtain ⟨before, after, entries, -⟩ := List.lookup_eq_some_iff.1 found
    have mem' : (count, bound) ∈ lists.entries := by simp [entries]
    exact (Prod.mk.inj (List.inj_on_of_nodup_map lists.distinct mem' mem rfl)).2

theorem boundTo_of_absent (absent : ∀ actions, (count, actions) ∉ lists.entries) :
    lists.boundTo count = [] := by
  rw [boundTo]
  cases found : lists.entries.lookup count with
  | none => rfl
  | some bound =>
    obtain ⟨before, after, entries, -⟩ := List.lookup_eq_some_iff.1 found
    exact absurd (by simp [entries]) (absent bound)

/-- What is bound to a count that has a list is an entry. -/
theorem mem_of_boundTo (nonempty : lists.boundTo count ≠ []) :
    (count, lists.boundTo count) ∈ lists.entries := by
  by_contra absent
  refine nonempty (boundTo_of_absent fun actions mem => absent ?_)
  rwa [boundTo_of_mem mem]

/-! ### The list of a click -/

/-- A count that is that of a click is a finite value, which the click has as well. -/
theorem exists_rank_of_isOf {click : Number} {c : ClickCount} (proper : c.isProper)
    (isOf : c.isOf click) :
    ∃ x : Scalar, c = .exactly x ∧ click.rank = some x.quanta := by
  cases c with
  | any => cases isOf
  | exactly n =>
    cases n with
    | scalar x =>
      have same : (Number.scalar x).same click := isOf
      rw [Number.same, Number.compareBy] at same
      split at same
      · next quanta r own rank =>
        cases own
        exact ⟨x, rfl, rank.trans (congrArg some (of_decide_eq_true same).symm)⟩
      · cases same
    | _ => cases proper

/-- No two counts have the number of one click. -/
theorem count_eq_of_isOf {click : Number} {c c' : ClickCount} (proper : c.isProper)
    (proper' : c'.isProper) (isOf : c.isOf click) (isOf' : c'.isOf click) : c = c' := by
  obtain ⟨x, rfl, rank⟩ := exists_rank_of_isOf proper isOf
  obtain ⟨y, rfl, rank'⟩ := exists_rank_of_isOf proper' isOf'
  obtain ⟨_, _⟩ := x
  obtain ⟨_, _⟩ := y
  cases rank.symm.trans rank'
  rfl

theorem forClick_of_mem {click : Number} {actions : List Action}
    (mem : (count, actions) ∈ lists.entries) (isOf : count.isOf click) :
    lists.forClick click = actions := by
  rw [forClick]
  cases found : lists.entries.find? (fun e => e.1.isOf click) with
  | none => exact absurd isOf (List.find?_eq_none.1 found _ mem)
  | some e =>
    have first := List.mem_of_find?_eq_some found
    have test := List.find?_some found
    have same : e.1 = count := count_eq_of_isOf (lists.proper _ (List.mem_map_of_mem first))
      (lists.proper _ (List.mem_map_of_mem mem)) test isOf
    rw [List.inj_on_of_nodup_map lists.distinct first mem same]

theorem forClick_of_absent {click : Number} (absent : ∀ e ∈ lists.entries, ¬ e.1.isOf click) :
    lists.forClick click = lists.boundTo .any := by
  rw [forClick, List.find?_eq_none.2 absent]

/-! ### Lists that are not empty -/

/-- The lists that are not empty. -/
def withoutEmpty (lists : ClickLists) : ClickLists where
  entries := lists.entries.filter (·.2 ≠ [])
  distinct := lists.distinct.sublist (List.filter_sublist.map _)
  proper := fun c mem => lists.proper c ((List.filter_sublist.map _).subset mem)

theorem withoutEmpty_eq_self (full : ∀ e ∈ lists.entries, e.2 ≠ []) :
    lists.withoutEmpty = lists :=
  eq_of_entries (List.filter_eq_self.2 fun e mem => decide_eq_true (full e mem))

theorem mem_withoutEmpty {e : ClickCount × List Action} :
    e ∈ lists.withoutEmpty.entries ↔ e ∈ lists.entries ∧ e.2 ≠ [] := by
  rw [withoutEmpty, List.mem_filter, decide_eq_true_eq]

/-- A count has the same list, as an empty one is as good as none. -/
theorem boundTo_withoutEmpty (lists : ClickLists) (count : ClickCount) :
    lists.withoutEmpty.boundTo count = lists.boundTo count := by
  by_cases none : lists.boundTo count = []
  · rw [none]
    refine boundTo_of_absent fun actions mem => ?_
    obtain ⟨mem, some⟩ := mem_withoutEmpty.1 mem
    exact some ((boundTo_of_mem mem).symm.trans none)
  · exact boundTo_of_mem (mem_withoutEmpty.2 ⟨mem_of_boundTo none, none⟩)

/-- A click has the same actions unless it has none: then it has those bound to any click. -/
theorem forClick_withoutEmpty (lists : ClickLists) (click : Number) :
    lists.withoutEmpty.forClick click =
      if lists.forClick click = [] then lists.boundTo .any else lists.forClick click := by
  by_cases own : ∃ e ∈ lists.entries, e.1.isOf click
  · obtain ⟨⟨c, actions⟩, mem, isOf⟩ := own
    rw [forClick_of_mem mem isOf]
    split
    · next none =>
      rw [forClick_of_absent, boundTo_withoutEmpty]
      -- A list that is left is not empty, so it is not the one of the click.
      intro e mem' isOf'
      obtain ⟨mem', some⟩ := mem_withoutEmpty.1 mem'
      have actions' := forClick_of_mem mem' isOf'
      rw [forClick_of_mem mem isOf, none] at actions'
      exact some actions'.symm
    · next some => exact forClick_of_mem (mem_withoutEmpty.2 ⟨mem, some⟩) isOf
  · have absent : ∀ e ∈ lists.entries, ¬ e.1.isOf click := fun e mem isOf => own ⟨e, mem, isOf⟩
    rw [forClick_of_absent absent, forClick_of_absent fun e mem => absent e (mem_withoutEmpty.1 mem).1,
      boundTo_withoutEmpty, ite_self]

end ClickLists

/-- What is bound to the count at which a link wraps is an entry. -/
theorem ClickLink.mem_of_reset (l : ClickLink) {n : Scalar} (h : l.reset = some n) :
    (.exactly n, l.lists.boundTo (.exactly n)) ∈ l.lists.entries :=
  ClickLists.mem_of_boundTo (l.reset_bound n h)

end SceneLogic
