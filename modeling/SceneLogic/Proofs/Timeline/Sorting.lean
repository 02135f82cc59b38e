/-
Inserting is stable sorting.

A list in order of time is determined by the entries that it has at each time, in their order
(`eq_of_filter_time`).  Inserting adds an entry behind all others of its time
(`filter_time_insertTimed`), so a timeline holds the stable sort of all that was inserted
(`Timeline.insertAll_eq_ok_iff`).
-/
import SceneLogic.Proofs.Results
import SceneLogic.Timeline.Basic
namespace SceneLogic

/-- Entries sorted by time, those of one time in the order in which they came. -/
def stableSort (entries : List Timed) : List Timed :=
  entries.mergeSort fun a b => decide (a.time.seconds ≤ b.time.seconds)

/-! ### Sorted lists -/

theorem Span.eq_of_le_of_le {s t : Span} (le : s.seconds ≤ t.seconds) (ge : t.seconds ≤ s.seconds) :
    s = t := by
  have same : s.seconds.quanta = t.seconds.quanta := Int.le_antisymm le ge
  obtain ⟨⟨_, _⟩, _⟩ := s
  obtain ⟨⟨_, _⟩, _⟩ := t
  cases same
  rfl

/-- The first entry of a sorted list starts no later than any entry of the list. -/
theorem SortedByTime.head_le {a b : Timed} {rest : List Timed} (sorted : SortedByTime (a :: rest))
    (mem : b ∈ a :: rest) : a.time.seconds ≤ b.time.seconds := by
  rcases List.mem_cons.1 mem with rfl | later
  · exact Int.le_refl _
  · exact (List.pairwise_cons.1 sorted).1 b later

theorem mem_iff_of_filter_time {xs ys : List Timed}
    (same : ∀ time, xs.filter (·.time = time) = ys.filter (·.time = time)) (e : Timed) :
    e ∈ xs ↔ e ∈ ys := by
  have at_time : ∀ zs : List Timed, e ∈ zs ↔ e ∈ zs.filter (·.time = e.time) := by simp
  rw [at_time xs, at_time ys, same]

/-- A sorted list is determined by what it has at each time. -/
theorem eq_of_filter_time {xs ys : List Timed} (sorted : SortedByTime xs) (sorted' : SortedByTime ys)
    (same : ∀ time, xs.filter (·.time = time) = ys.filter (·.time = time)) : xs = ys := by
  induction xs generalizing ys with
  | nil =>
    cases ys with
    | nil => rfl
    | cons y ys => cases (mem_iff_of_filter_time same y).2 List.mem_cons_self
  | cons x xs ih =>
    cases ys with
    | nil => cases (mem_iff_of_filter_time same x).1 List.mem_cons_self
    | cons y ys =>
      -- Neither of the first entries starts before the other, so they are the first of one time.
      have time : x.time = y.time :=
        Span.eq_of_le_of_le
          (sorted.head_le ((mem_iff_of_filter_time same y).2 List.mem_cons_self))
          (sorted'.head_le ((mem_iff_of_filter_time same x).1 List.mem_cons_self))
      have first := same x.time
      rw [List.filter_cons_of_pos (by simp), List.filter_cons_of_pos (by simp [time])] at first
      obtain ⟨rfl, -⟩ := List.cons.inj first
      refine congrArg (x :: ·) (ih (List.pairwise_cons.1 sorted).2 (List.pairwise_cons.1 sorted').2 ?_)
      intro t
      have rest := same t
      rw [List.filter_cons, List.filter_cons] at rest
      split at rest
      · exact (List.cons.inj rest).2
      · exact rest

/-! ### Sorting -/

theorem le_trans_time (a b c : Timed) (ab : decide (a.time.seconds ≤ b.time.seconds))
    (bc : decide (b.time.seconds ≤ c.time.seconds)) : decide (a.time.seconds ≤ c.time.seconds) :=
  decide_eq_true (Int.le_trans (of_decide_eq_true ab) (of_decide_eq_true bc))

theorem le_total_time (a b : Timed) :
    decide (a.time.seconds ≤ b.time.seconds) || decide (b.time.seconds ≤ a.time.seconds) := by
  rw [Bool.or_eq_true, decide_eq_true_eq, decide_eq_true_eq]
  exact Int.le_total _ _

theorem sorted_stableSort (entries : List Timed) : SortedByTime (stableSort entries) :=
  (List.pairwise_mergeSort le_trans_time le_total_time entries).imp of_decide_eq_true

/-- Sorting keeps the entries of one time and their order. -/
theorem filter_time_stableSort (entries : List Timed) (time : Span) :
    (stableSort entries).filter (·.time = time) = entries.filter (·.time = time) := by
  have ties : (entries.filter (·.time = time)).Pairwise fun a b =>
      decide (a.time.seconds ≤ b.time.seconds) := by
    refine List.pairwise_of_forall_mem_list fun a ha b hb => decide_eq_true ?_
    rw [of_decide_eq_true (List.mem_filter.1 ha).2, of_decide_eq_true (List.mem_filter.1 hb).2]
    exact Int.le_refl _
  -- Entries of one time are in order, and a stable sort keeps them as a sublist of the same length.
  have kept := (List.sublist_mergeSort le_trans_time le_total_time ties List.filter_sublist).filter
    (·.time = time)
  simp only [List.filter_filter, Bool.and_self] at kept
  exact (kept.eq_of_length ((List.mergeSort_perm entries _).filter _).length_eq.symm).symm

/-- The stable sort is the sorted list that has the same at each time. -/
theorem eq_stableSort_iff {xs entries : List Timed} :
    xs = stableSort entries ↔ SortedByTime xs ∧
      ∀ time, xs.filter (·.time = time) = entries.filter (·.time = time) := by
  constructor
  · rintro rfl
    exact ⟨sorted_stableSort entries, filter_time_stableSort entries⟩
  · rintro ⟨sorted, same⟩
    exact eq_of_filter_time sorted (sorted_stableSort entries) fun time =>
      (same time).trans (filter_time_stableSort entries time).symm

theorem stableSort_of_sorted {entries : List Timed} (sorted : SortedByTime entries) :
    stableSort entries = entries :=
  (eq_stableSort_iff.2 ⟨sorted, fun _ => rfl⟩).symm

/-- What comes first may be sorted first. -/
theorem stableSort_append_stableSort (xs ys : List Timed) :
    stableSort (stableSort xs ++ ys) = stableSort (xs ++ ys) := by
  refine eq_stableSort_iff.2 ⟨sorted_stableSort _, fun time => ?_⟩
  rw [filter_time_stableSort, List.filter_append, List.filter_append, filter_time_stableSort]

/-! ### Inserting -/

/-- A new entry comes behind all others of its time. -/
theorem filter_time_insertTimed (new : Timed) {entries : List Timed} (sorted : SortedByTime entries)
    (time : Span) : (insertTimed new entries).filter (·.time = time) =
      (entries ++ [new]).filter (·.time = time) := by
  -- All that comes behind the new entry starts later.
  obtain ⟨-, after⟩ := placeOf_splits sorted new.time.seconds
  have later : (entries.drop (placeOf entries new.time.seconds)).filter (·.time = new.time) = [] := by
    rw [List.filter_eq_nil_iff]
    intro e mem same
    obtain ⟨i, hi, rfl⟩ := List.mem_iff_getElem.1 mem
    have bound := hi
    rw [List.length_drop] at bound
    refine after (placeOf entries new.time.seconds + i) (by omega) ?_
    rw [startsBy, List.getElem?_eq_getElem (by omega), Option.any_some, ← List.getElem_drop (h := hi),
      of_decide_eq_true same]
    exact decide_eq_true (Int.le_refl _)
  have parts := List.take_append_drop (placeOf entries new.time.seconds) entries
  conv_rhs => rw [← parts]
  rw [insertTimed, List.filter_append, List.filter_append, List.filter_append, List.append_assoc]
  by_cases same : new.time = time
  · subst same
    rw [List.filter_cons_of_pos (by simp), List.filter_cons_of_pos (by simp), later]
    rfl
  · rw [List.filter_cons_of_neg (by simpa using same), List.filter_cons_of_neg (by simpa using same),
      List.filter_nil, List.append_nil]

/-- Inserting sorts the new entry in. -/
theorem insertTimed_eq_stableSort (new : Timed) {entries : List Timed}
    (sorted : SortedByTime entries) : insertTimed new entries = stableSort (entries ++ [new]) :=
  eq_stableSort_iff.2 ⟨insertTimed_sorted new sorted, filter_time_insertTimed new sorted⟩

/-- The entry is an action with its start time. -/
def Timed.IsOf (e : Timed) (a : Number × Action) : Prop :=
  Span.ofNumber? a.1 = some e.time ∧ e.action = a.2

namespace Timeline

/-- Every entry starts by the last time. -/
theorem le_lastTime (t : Timeline) {e : Timed} (he : e ∈ t.entries) :
    e.time.seconds.quanta ≤ t.lastTime.seconds.quanta := by
  have sorted := t.sorted
  rw [lastTime]
  rcases t.entries.eq_nil_or_concat' with none | ⟨earlier, last, split⟩
  · rw [none] at he
    cases he
  · -- The last time is that of the last entry, and the entries are sorted.
    rw [split] at sorted he ⊢
    rw [List.getLast?_concat]
    rcases List.mem_append.1 he with he | he
    · exact (List.pairwise_append.1 sorted).2.2 e he last (List.mem_singleton_self last)
    · rw [List.mem_singleton.1 he]
      exact Int.le_refl _

/-- The timeline with the entries sorted in that were inserted. -/
def withAll (t : Timeline) (inserted : List Timed) : Timeline :=
  { t with entries := stableSort (t.entries ++ inserted), sorted := sorted_stableSort _ }

theorem eq_of_parts {t t' : Timeline} (name : t.name = t'.name)
    (start : t.startImmediately = t'.startImmediately) (entries : t.entries = t'.entries)
    (compiled : t.compiled = t'.compiled) : t = t' := by
  cases t
  cases t'
  cases name
  cases start
  cases entries
  cases compiled
  rfl

theorem withAll_nil (t : Timeline) : t.withAll [] = t := by
  refine eq_of_parts rfl rfl ?_ rfl
  show stableSort (t.entries ++ []) = t.entries
  rw [List.append_nil]
  exact stableSort_of_sorted t.sorted

theorem withAll_place (t : Timeline) (e : Timed) (inserted : List Timed) :
    (t.place e).withAll inserted = t.withAll (e :: inserted) := by
  refine eq_of_parts rfl rfl ?_ rfl
  show stableSort (insertTimed e t.entries ++ inserted) = stableSort (t.entries ++ e :: inserted)
  rw [insertTimed_eq_stableSort e t.sorted, stableSort_append_stableSort, List.append_assoc]
  rfl

/-- An action is inserted exactly if the timeline may change and the start time is a span. -/
theorem insert_eq_ok_iff {t t' : Timeline} {a : Number × Action} :
    t.insert a.1 a.2 = .ok t' ↔ t.compiled = false ∧ ∃ e : Timed, e.IsOf a ∧ t.place e = t' := by
  rw [insert]
  cases t.compiled with
  | true => simp
  | false =>
    rw [if_neg Bool.false_ne_true]
    constructor
    · cases start : Span.ofNumber? a.1 with
      | none => intro h; cases h
      | some span =>
        intro placed
        exact ⟨rfl, ⟨span, a.2⟩, ⟨start, rfl⟩, Except.ok.inj placed⟩
    · rintro ⟨-, e, ⟨start, same⟩, rfl⟩
      rw [start, ← same]

/-- Inserting one after the other sorts all of them in. -/
theorem insertAll_eq_ok_iff {t t' : Timeline} (changes : t.compiled = false)
    {actions : List (Number × Action)} :
    t.insertAll actions = .ok t' ↔
      ∃ inserted, List.Forall₂ Timed.IsOf inserted actions ∧ t.withAll inserted = t' := by
  induction actions generalizing t with
  | nil =>
    have none : t.insertAll [] = .ok t := rfl
    rw [none, Except.ok.injEq]
    constructor
    · rintro rfl
      exact ⟨[], .nil, t.withAll_nil⟩
    · rintro ⟨_, ⟨⟩, rfl⟩
      exact t.withAll_nil.symm
  | cons a actions ih =>
    have step : t.insertAll (a :: actions) = t.insert a.1 a.2 >>= (·.insertAll actions) := rfl
    rw [step, bind_eq_ok]
    constructor
    · rintro ⟨_, first, rest⟩
      obtain ⟨-, e, entry, rfl⟩ := insert_eq_ok_iff.1 first
      obtain ⟨inserted, entries, rfl⟩ := (ih (t := t.place e) changes).1 rest
      exact ⟨e :: inserted, .cons entry entries, (t.withAll_place e inserted).symm⟩
    · rintro ⟨_, each, rfl⟩
      obtain ⟨e, inserted, entry, entries, rfl⟩ := List.forall₂_cons_right_iff.1 each
      refine ⟨t.place e, insert_eq_ok_iff.2 ⟨changes, e, entry, rfl⟩, ?_⟩
      exact (ih (t := t.place e) changes).2 ⟨inserted, entries, t.withAll_place e inserted⟩

end Timeline

end SceneLogic
