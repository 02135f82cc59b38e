/-
A timeline under any calls.

Whatever is asked of a timeline, it holds the stable sort of the entries that were accepted, from
its making on, and the last of their times (`Timeline.Holds`).  An entry is accepted exactly while
the timeline has not been marked as compiled, if its time is finite and not negative
(`Timeline.holds_accepted`).  The search for the place of a new entry halves what is in question in
every round, so it comes to an end in every list, sorted or not (`probe_iterate`).
-/
import Mathlib.Data.Nat.Size
import SceneLogic.Proofs.Attempts
import SceneLogic.Proofs.Document.Parts
import SceneLogic.Proofs.Timeline.Sorting
namespace SceneLogic

/-! ### Searching -/

/-- One round of the search: the places from the first to before the second are in question. -/
def probe (entries : List Timed) (time : Scalar) (p : Nat × Nat) : Nat × Nat :=
  if p.1 < p.2 then
    if startsBy entries time ((p.1 + p.2) / 2) then ((p.1 + p.2) / 2 + 1, p.2)
    else (p.1, (p.1 + p.2) / 2)
  else p

theorem bisect_probe (entries : List Timed) (time : Scalar) (p : Nat × Nat) :
    bisect entries time (probe entries time p).1 (probe entries time p).2 =
      bisect entries time p.1 p.2 := by
  rw [probe]
  by_cases lt : p.1 < p.2
  · rw [if_pos lt, bisect.eq_def entries time p.1 p.2, if_pos lt]
    split <;> rfl
  · rw [if_neg lt]

/-- A round leaves at most half of the places. -/
theorem probe_halves (entries : List Timed) (time : Scalar) {p : Nat × Nat} (le : p.1 ≤ p.2) :
    (probe entries time p).1 ≤ (probe entries time p).2 ∧
      (probe entries time p).2 - (probe entries time p).1 ≤ (p.2 - p.1) / 2 := by
  rw [probe]
  split
  · split <;> constructor <;> dsimp only <;> omega
  · omega

/-- As many rounds as the number of places has binary digits leave the place that is looked for. -/
theorem probe_iterate (entries : List Timed) (time : Scalar) (rounds : Nat) {p : Nat × Nat}
    (le : p.1 ≤ p.2) (few : p.2 - p.1 < 2 ^ rounds) :
    (probe entries time)^[rounds] p =
      (bisect entries time p.1 p.2, bisect entries time p.1 p.2) := by
  induction rounds generalizing p with
  | zero =>
    obtain ⟨lo, hi⟩ := p
    obtain rfl : lo = hi := by
      dsimp only at le few
      omega
    rw [bisect, if_neg (Nat.lt_irrefl lo)]
    rfl
  | succ rounds ih =>
    obtain ⟨le', half⟩ := probe_halves entries time le
    rw [Function.iterate_succ_apply, ih le' (by omega), bisect_probe]

/-! ### Calls -/

/-- The times that entries may have. -/
theorem Span.isSome_ofNumber? {x : Number} :
    (ofNumber? x).isSome ↔ x.isFinite ∧ Number.le 0 x := by
  have rank (a : Scalar) : Number.le 0 a = decide (0 ≤ a.quanta) :=
    Number.le_of_rank Number.rank_zero rfl
  cases x with
  | nan => simp [ofNumber?, Number.toScalar?, Number.isFinite]
  | infinity negative => simp [ofNumber?, Number.toScalar?, Number.isFinite]
  | negativeZero =>
    rw [Number.le_of_rank Number.rank_zero rfl]
    exact ⟨fun _ => ⟨rfl, rfl⟩, fun _ => rfl⟩
  | scalar x =>
    rw [rank, decide_eq_true_iff]
    show (ofScalar? x).isSome ↔ _
    rw [ofScalar?]
    split
    · next nonneg => exact ⟨fun _ => ⟨rfl, nonneg⟩, fun _ => rfl⟩
    · next negative =>
      constructor
      · rintro ⟨⟩
      · rintro ⟨-, nonneg⟩
        exact absurd nonneg negative

namespace Timeline

/-- What may be asked of a timeline. -/
inductive Call where
  | insert (time : Number) (action : Action)
  | markCompiled

/-- The timeline with what a call asks for. -/
def call (t : Timeline) : Call → Except Fault Timeline
  | .insert time action => t.insert time action
  | .markCompiled => .ok t.markCompiled

/-- The entry that a call adds if it is accepted. -/
def Call.timed? : Call → Option Timed
  | .insert time action => (Span.ofNumber? time).map (⟨·, action⟩)
  | .markCompiled => none

/-- The entries that accepted calls add, in the order of the calls. -/
def added (calls : List Call) : List Timed := calls.filterMap Call.timed?

theorem timed?_eq_some_iff {a : Number × Action} {e : Timed} :
    (Call.insert a.1 a.2).timed? = some e ↔ e.IsOf a := by
  rw [Call.timed?, Timed.IsOf, Option.map_eq_some_iff]
  constructor
  · rintro ⟨span, time, rfl⟩
    exact ⟨time, rfl⟩
  · rintro ⟨time, action⟩
    exact ⟨e.time, time, by rw [← action]⟩

/-- An action is accepted exactly while the timeline may change, if its time is one. -/
theorem insert_accepts_iff {t : Timeline} {time : Number} {action : Action} :
    (∃ t', t.insert time action = .ok t') ↔
      t.compiled = false ∧ time.isFinite ∧ Number.le 0 time := by
  rw [← Span.isSome_ofNumber?]
  constructor
  · rintro ⟨t', accepted⟩
    obtain ⟨changes, e, entry, -⟩ := (insert_eq_ok_iff (a := (time, action))).1 accepted
    exact ⟨changes, Option.isSome_iff_exists.2 ⟨e.time, entry.1⟩⟩
  · rintro ⟨changes, isTime⟩
    obtain ⟨span, isTime⟩ := Option.isSome_iff_exists.1 isTime
    exact ⟨_, (insert_eq_ok_iff (a := (time, action))).2 ⟨changes, ⟨span, action⟩, ⟨isTime, rfl⟩, rfl⟩⟩

/-- What the calls that were accepted make of a timeline. -/
structure Reflects (done : List Call) (t : Timeline) : Prop where
  entries : t.entries = stableSort (added done)
  compiled : t.compiled ↔ .markCompiled ∈ done

theorem Reflects.call {done : List Call} {t t' : Timeline} {c : Call} (now : Reflects done t)
    (accepted : t.call c = .ok t') : Reflects (done ++ [c]) t' := by
  cases c with
  | insert time action =>
    obtain ⟨-, e, entry, rfl⟩ := (insert_eq_ok_iff (a := (time, action))).1 accepted
    have new : added (done ++ [.insert time action]) = added done ++ [e] := by
      rw [added, List.filterMap_append, List.filterMap_cons_some (timed?_eq_some_iff.2 entry)]
      rfl
    constructor
    · show insertTimed e t.entries = _
      rw [insertTimed_eq_stableSort e t.sorted, now.entries, stableSort_append_stableSort, new]
    · rw [List.mem_append, ← now.compiled]
      exact ⟨.inl, fun marked => marked.resolve_right (by rintro (_ | ⟨_, ⟨⟩⟩))⟩
  | markCompiled =>
    cases accepted
    constructor
    · rw [added, List.filterMap_append]
      exact now.entries.trans (congrArg stableSort (List.append_nil _).symm)
    · exact ⟨fun _ => List.mem_append_right _ List.mem_cons_self, fun _ => rfl⟩

/-! ### Making a timeline -/

/-- The calls that the entries given to a new timeline stand for. -/
def givenCalls (given : List (Number × Action)) : List Call :=
  given.map fun a => .insert a.1 a.2

theorem added_givenCalls {given : List (Number × Action)} {inserted : List Timed}
    (each : List.Forall₂ Timed.IsOf inserted given) : added (givenCalls given) = inserted := by
  induction each with
  | nil => rfl
  | cons entry _ ih =>
    rw [givenCalls, List.map_cons, added, List.filterMap_cons_some (timed?_eq_some_iff.2 entry)]
    exact congrArg _ ih

theorem create_eq_ok_iff {name : String} {startImmediately : Bool}
    {given : List (Number × Action)} {t : Timeline} :
    create name startImmediately given = .ok t ↔ ∃ id, Text.Identifier.ofText? name = some id ∧
      ∃ inserted, List.Forall₂ Timed.IsOf inserted given ∧
        (empty id startImmediately).withAll inserted = t := by
  rw [create]
  cases Text.Identifier.ofText? name with
  | none => simp
  | some id =>
    have all : insertAll (empty id startImmediately) given = .ok t ↔
        ∃ inserted, List.Forall₂ Timed.IsOf inserted given ∧
          (empty id startImmediately).withAll inserted = t := insertAll_eq_ok_iff rfl
    simpa using all

theorem create_accepts_iff {name : String} {startImmediately : Bool}
    {given : List (Number × Action)} :
    (∃ t, create name startImmediately given = .ok t) ↔
      Text.isIdentifier name ∧ ∀ a ∈ given, a.1.isFinite ∧ Number.le 0 a.1 := by
  have isName : Text.isIdentifier name ↔ ∃ id, Text.Identifier.ofText? name = some id := by
    rw [Text.Identifier.ofText?]
    split <;> simp_all
  have times : (∃ inserted, List.Forall₂ Timed.IsOf inserted given) ↔
      ∀ a ∈ given, a.1.isFinite ∧ Number.le 0 a.1 := by
    simp only [← Span.isSome_ofNumber?]
    induction given with
    | nil => simp
    | cons a given ih =>
      rw [List.forall_mem_cons, ← ih]
      constructor
      · rintro ⟨_, each⟩
        obtain ⟨e, inserted, entry, rest, -⟩ := List.forall₂_cons_right_iff.1 each
        exact ⟨Option.isSome_iff_exists.2 ⟨e.time, entry.1⟩, inserted, rest⟩
      · rintro ⟨isTime, inserted, rest⟩
        obtain ⟨span, isTime⟩ := Option.isSome_iff_exists.1 isTime
        exact ⟨⟨span, a.2⟩ :: inserted, .cons ⟨isTime, rfl⟩ rest⟩
  rw [isName, ← times]
  constructor
  · rintro ⟨t, made⟩
    obtain ⟨id, name, inserted, each, -⟩ := create_eq_ok_iff.1 made
    exact ⟨⟨id, name⟩, inserted, each⟩
  · rintro ⟨⟨id, name⟩, inserted, each⟩
    exact ⟨_, create_eq_ok_iff.2 ⟨id, name, inserted, each, rfl⟩⟩

theorem reflects_create {name : String} {startImmediately : Bool}
    {given : List (Number × Action)} {t : Timeline}
    (made : create name startImmediately given = .ok t) : Reflects (givenCalls given) t := by
  obtain ⟨id, -, inserted, each, rfl⟩ := create_eq_ok_iff.1 made
  constructor
  · rw [added_givenCalls each]
    rfl
  · have open' : ¬ Call.markCompiled ∈ givenCalls given := by
      rw [givenCalls, List.mem_map]
      rintro ⟨a, -, ⟨⟩⟩
    exact ⟨fun marked => absurd marked Bool.false_ne_true, fun marked => absurd marked open'⟩

/-! ### Any calls -/

/-- The last time is zero or that of an entry. -/
theorem lastTime_mem (t : Timeline) :
    t.entries = [] ∧ t.lastTime = 0 ∨ ∃ e ∈ t.entries, e.time = t.lastTime := by
  rw [lastTime]
  rcases t.entries.eq_nil_or_concat' with none | ⟨earlier, last, split⟩
  · rw [none]
    exact .inl ⟨rfl, rfl⟩
  · rw [split, List.getLast?_concat]
    exact .inr ⟨last, List.mem_append_right _ (List.mem_singleton_self last), rfl⟩

/-- What a timeline is after some entries were inserted, and perhaps its mark. -/
structure Holds (inserted : List Timed) (marked : Prop) (t : Timeline) : Prop where
  /-- The entries are sorted by time, those of one time in the order in which they came. -/
  entries : t.entries = stableSort inserted
  /-- Nothing was lost and nothing came twice. -/
  perm : t.entries.Perm inserted
  /-- The last time is the greatest one, zero if there is none. -/
  le_last : ∀ e ∈ inserted, e.time.seconds ≤ t.lastTime.seconds
  last : inserted = [] ∧ t.lastTime = 0 ∨ ∃ e ∈ inserted, e.time = t.lastTime
  /-- An entry is accepted exactly while there is no mark, if its time is one. -/
  accepts : ∀ time action, (∃ t', t.insert time action = .ok t') ↔
    ¬ marked ∧ time.isFinite ∧ Number.le 0 time

theorem Reflects.holds {done : List Call} {t : Timeline} (now : Reflects done t) :
    Holds (added done) (.markCompiled ∈ done) t := by
  have perm : t.entries.Perm (added done) := by
    rw [now.entries]
    exact List.mergeSort_perm _ _
  refine ⟨now.entries, perm, fun e mem => t.le_lastTime (perm.mem_iff.2 mem), ?_, ?_⟩
  · rcases t.lastTime_mem with ⟨none, zero⟩ | ⟨e, mem, last⟩
    · rw [none] at perm
      exact .inl ⟨perm.nil_eq.symm, zero⟩
    · exact .inr ⟨e, perm.mem_iff.1 mem, last⟩
  · intro time action
    rw [insert_accepts_iff, ← now.compiled, Bool.not_eq_true]

/-- **A timeline is the stable sort of what it accepted.**  It is made of entries whose times are
finite and not negative.  After any calls it holds these and the entries that it accepted since, the
last time is the greatest of theirs, and further ones are accepted as long as it is not marked as
compiled; a call that is refused leaves it as it was.  The search for a place comes to an end in
every list, after as many rounds as the length has binary digits. -/
theorem holds_accepted (name : String) (startImmediately : Bool)
    (given : List (Number × Action)) :
    ((∃ t, create name startImmediately given = .ok t) ↔
      Text.isIdentifier name ∧ ∀ a ∈ given, a.1.isFinite ∧ Number.le 0 a.1) ∧
    (∀ t, create name startImmediately given = .ok t → ∀ calls : List Call,
      Holds (added (givenCalls given ++ accepted call t calls)) (.markCompiled ∈ calls)
        (attemptAll call t calls) ∧
      ∀ c fault, (attemptAll call t calls).call c = .error fault →
        attemptAll call t (calls ++ [c]) = attemptAll call t calls) ∧
    ∀ (entries : List Timed) (time : Scalar),
      (probe entries time)^[entries.length.size] (0, entries.length) =
        (placeOf entries time, placeOf entries time) := by
  refine ⟨create_accepts_iff, fun t made calls => ⟨?_, fun c fault refused => ?_⟩,
    fun entries time => probe_iterate entries time _ (Nat.zero_le _) (Nat.lt_size_self _)⟩
  · have now := (attemptAll_induction (reflects_create made) Reflects.call calls).holds
    -- No timeline refuses the mark, and those that are made with entries do not have it.
    have marked : Call.markCompiled ∈ givenCalls given ++ accepted call t calls ↔
        Call.markCompiled ∈ calls := by
      rw [List.mem_append]
      constructor
      · rintro (first | later)
        · obtain ⟨a, -, ⟨⟩⟩ := List.mem_map.1 first
        · exact (accepted_sublist t calls).subset later
      · exact fun mem => .inr (mem_accepted_of_always (fun t => ⟨t.markCompiled, rfl⟩) mem t)
    rwa [marked] at now
  · rw [attemptAll_concat, attempt_of_error refused]

/-- Rings a bell or lets it fall silent. -/
def bell (change : SoundChange) : Action := .sound ⟨"bell", by decide⟩ change

/-- An entry of a time that is in use, one without a time, one at the zero below zero and one that
comes too late. -/
def bellCalls : List Call :=
  [.insert 2 (bell .stop), .insert (-1) .reset, .insert .negativeZero (bell .stop), .markCompiled,
    .insert 0 .reset]

/-- Two of them are accepted, each behind the entry of its time. -/
theorem bells_hold :
    ∃ t, create "bells" true [(2, bell .start), (0, .reset)] = .ok t ∧
      Holds (added (givenCalls [(2, bell .start), (0, .reset)] ++ accepted call t bellCalls))
        (.markCompiled ∈ bellCalls) (attemptAll call t bellCalls) ∧
      (attemptAll call t bellCalls).entries.map (fun e => e.action.describe) =
        ["reset scene", "stop sound bell", "start sound bell", "stop sound bell"] := by
  have shown : (create "bells" true [(2, bell .start), (0, .reset)]).map
      (fun t => (attemptAll call t bellCalls).entries.map fun e => e.action.describe) =
        .ok ["reset scene", "stop sound bell", "start sound bell", "stop sound bell"] := by
    decide +kernel
  obtain ⟨t, made, entries⟩ := exists_of_map_eq_ok shown
  exact ⟨t, made, ((holds_accepted _ _ _).2.1 t made bellCalls).1, entries⟩

end Timeline

end SceneLogic
