/-
Timelines: actions in the order of their start times.

The entries of a timeline are sorted by time (`Timeline.sorted`), and entries of the same time
stand in the order in which they were inserted.  The place of a new entry is found by bisection;
`bisect_splits` says that on sorted entries it parts those that start no later from those that
start later.  A timeline that has been compiled accepts no further entry.
-/
import SceneLogic.Action.Basic
import SceneLogic.Text.Identifier
namespace SceneLogic

/-- An action with its start time. -/
structure Timed where
  time : Span
  action : Action
deriving DecidableEq

/-! ### The place of a new entry -/

/-- Entries in order of time. -/
def SortedByTime (entries : List Timed) : Prop :=
  entries.Pairwise fun a b => a.time.seconds ≤ b.time.seconds

/-- The entry at a place starts no later than a time. -/
def startsBy (entries : List Timed) (time : Scalar) (place : Nat) : Bool :=
  (entries[place]?).any fun e => e.time.seconds ≤ time

/-- Bisects the places from `lo` to `hi` for the first entry that starts after a time.  Sums of two
places are not cut off: they have no more than 32 bits in a list of no more than 2³¹ entries. -/
def bisect (entries : List Timed) (time : Scalar) (lo hi : Nat) : Nat :=
  if lo < hi then
    if startsBy entries time ((lo + hi) / 2) then bisect entries time ((lo + hi) / 2 + 1) hi
    else bisect entries time lo ((lo + hi) / 2)
  else lo
termination_by hi - lo

/-- In sorted entries, whatever stands before an entry that starts by a time does so too. -/
theorem startsBy_of_le {entries : List Timed} (sorted : SortedByTime entries) {time : Scalar}
    {i j : Nat} (le : i ≤ j) (h : startsBy entries time j) : startsBy entries time i := by
  unfold startsBy at h ⊢
  obtain ⟨b, hb, hle⟩ := (Option.any_eq_true _ _).1 h
  obtain ⟨hj, rfl⟩ := List.getElem?_eq_some_iff.1 hb
  rw [List.getElem?_eq_getElem (Nat.lt_of_le_of_lt le hj)]
  rcases Nat.eq_or_lt_of_le le with rfl | lt
  · exact hle
  · have first : entries[i].time.seconds.quanta ≤ entries[j].time.seconds.quanta :=
      List.pairwise_iff_getElem.1 sorted i j _ hj lt
    have second : entries[j].time.seconds.quanta ≤ time.quanta := of_decide_eq_true hle
    exact decide_eq_true (Int.le_trans first second)

/-- Bisection keeps its two promises: entries before the place start by the time, and the others
do not. -/
theorem bisect_splits {entries : List Timed} (sorted : SortedByTime entries) (time : Scalar)
    (lo hi : Nat) (before : ∀ i < lo, startsBy entries time i)
    (after : ∀ i, hi ≤ i → ¬ startsBy entries time i) (le : lo ≤ hi) :
    (∀ i < bisect entries time lo hi, startsBy entries time i) ∧
      ∀ i, bisect entries time lo hi ≤ i → ¬ startsBy entries time i := by
  unfold bisect
  split
  case isTrue lt =>
    split
    case isTrue h =>
      exact bisect_splits sorted time _ hi
        (fun i hi' => startsBy_of_le sorted (Nat.le_of_lt_succ hi') h) after (by omega)
    case isFalse h =>
      exact bisect_splits sorted time lo _ before
        (fun i hi' h' => h (startsBy_of_le sorted hi' h')) (by omega)
  case isFalse ge =>
    have : lo = hi := by omega
    exact ⟨before, this ▸ after⟩
termination_by hi - lo

/-- The place of a new entry with a start time: behind all entries that start no later. -/
def placeOf (entries : List Timed) (time : Scalar) : Nat :=
  bisect entries time 0 entries.length

theorem placeOf_splits {entries : List Timed} (sorted : SortedByTime entries) (time : Scalar) :
    (∀ i < placeOf entries time, startsBy entries time i) ∧
      ∀ i, placeOf entries time ≤ i → ¬ startsBy entries time i :=
  bisect_splits sorted time 0 _ (by simp)
    (fun i hi => by simp [startsBy, List.getElem?_eq_none hi]) (Nat.zero_le _)

/-- The entries with a new one at its place. -/
def insertTimed (new : Timed) (entries : List Timed) : List Timed :=
  let place := placeOf entries new.time.seconds
  entries.take place ++ new :: entries.drop place

/-- Inserting keeps entries in order of time. -/
theorem insertTimed_sorted (new : Timed) {entries : List Timed} (sorted : SortedByTime entries) :
    SortedByTime (insertTimed new entries) := by
  obtain ⟨before, after⟩ := placeOf_splits sorted new.time.seconds
  have early : ∀ a ∈ entries.take (placeOf entries new.time.seconds),
      a.time.seconds.quanta ≤ new.time.seconds.quanta := by
    intro a ha
    obtain ⟨i, hi, rfl⟩ := List.mem_iff_getElem.1 ha
    rw [List.length_take] at hi
    have h := before i (by omega)
    rw [startsBy, List.getElem?_eq_getElem (by omega)] at h
    rw [List.getElem_take]
    exact of_decide_eq_true h
  have late : ∀ b ∈ entries.drop (placeOf entries new.time.seconds),
      new.time.seconds.quanta ≤ b.time.seconds.quanta := by
    intro b hb
    obtain ⟨i, hi, rfl⟩ := List.mem_iff_getElem.1 hb
    rw [List.length_drop] at hi
    have h := after (placeOf entries new.time.seconds + i) (by omega)
    rw [startsBy, List.getElem?_eq_getElem (by omega)] at h
    rw [List.getElem_drop]
    exact Int.le_of_lt (Int.not_le.1 fun hle => h (decide_eq_true hle))
  refine List.pairwise_append.2 ⟨sorted.sublist (List.take_sublist _ _),
    List.pairwise_cons.2 ⟨late, sorted.sublist (List.drop_sublist _ _)⟩, fun a ha b hb => ?_⟩
  rcases List.mem_cons.1 hb with rfl | hb
  · exact early a ha
  · exact Int.le_trans (early a ha) (late b hb)

/-! ### Timelines -/

/-- Actions keyed by start time. -/
structure Timeline where
  name : Text.Identifier
  /-- The timeline runs from the moment it is loaded. -/
  startImmediately : Bool
  entries : List Timed
  sorted : SortedByTime entries
  /-- The timeline has been compiled and can no longer change. -/
  compiled : Bool
deriving DecidableEq

namespace Timeline

/-- A timeline without entries. -/
def empty (name : Text.Identifier) (startImmediately : Bool) : Timeline :=
  ⟨name, startImmediately, [], List.Pairwise.nil, false⟩

/-- The number of entries. -/
def size (t : Timeline) : Nat := t.entries.length

/-- The start time of the last entry, zero if there is none. -/
def lastTime (t : Timeline) : Span := (t.entries.getLast?.map Timed.time).getD 0

/-- The timeline with an entry at its place. -/
def place (t : Timeline) (new : Timed) : Timeline :=
  { t with entries := insertTimed new t.entries, sorted := insertTimed_sorted new t.sorted }

/-- Inserts an action, unless the timeline is compiled or the start time is no span. -/
def insert (t : Timeline) (time : Number) (action : Action) : Except Fault Timeline :=
  if t.compiled then .error (.timelineCompiled t.name.text)
  else match Span.ofNumber? time with
    | some span => .ok (t.place ⟨span, action⟩)
    | none => .error (.badStartTime t.name.text time)

/-- Inserts actions one after the other. -/
def insertAll (t : Timeline) (entries : List (Number × Action)) : Except Fault Timeline :=
  entries.foldlM (fun t e => t.insert e.1 e.2) t

/-- Makes a timeline whose name is an identifier. -/
def create (name : String) (startImmediately : Bool) (entries : List (Number × Action)) :
    Except Fault Timeline :=
  match Text.Identifier.ofText? name with
  | some id => (empty id startImmediately).insertAll entries
  | none => .error (.badTimelineName name)

/-- The timeline, closed to further entries. -/
def markCompiled (t : Timeline) : Timeline := { t with compiled := true }

end Timeline

/-! ### Reading a timeline that may change -/

/-- A reader that goes through the entries of a timeline by their places. -/
structure Cursor where
  place : Nat := 0
  /-- Nothing more will be read. -/
  done : Bool := false
deriving DecidableEq

/-- Reads the entry at the place of a cursor in the timeline as it is now. -/
def Cursor.next (c : Cursor) (t : Timeline) : Option Timed × Cursor :=
  if c.done then (none, c)
  else match t.entries[c.place]? with
    | some e => (some e, { c with place := c.place + 1 })
    | none => (none, { c with done := true })

end SceneLogic
