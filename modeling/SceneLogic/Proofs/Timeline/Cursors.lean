/-
Cursors on a timeline that changes.

A cursor goes through the entries of a timeline by their places, while calls to the timeline and
other cursors come in between.  An entry only ever moves to later places (`Timeline.moved`), so
what the cursor has not come to yet stays before it, and it passes over nothing
(`Readers.reads_of_done`).  It is done after at most one call more than there were entries, and if
nothing is inserted it reads the entries as they stand (`Readers.reads_through`).
-/
import SceneLogic.Proofs.Timeline.Insertions
namespace SceneLogic

namespace Timeline

variable {t : Timeline} {c : Call} {place : Nat} {e : Timed}

/-! ### Where entries move -/

/-- Where the entry at a place is behind a call: one place further if the call inserts another one
at its place or before. -/
def moved (t : Timeline) (c : Call) (place : Nat) : Nat :=
  match t.call c, c.timed? with
  | .ok _, some new => if placeOf t.entries new.time.seconds ≤ place then place + 1 else place
  | _, _ => place

theorem le_moved (t : Timeline) (c : Call) (place : Nat) : place ≤ t.moved c place := by
  unfold moved
  split
  · split <;> omega
  · exact Nat.le_refl place

theorem getElem?_insertTimed (new : Timed) {entries : List Timed}
    (found : entries[place]? = some e) :
    (insertTimed new entries)[if placeOf entries new.time.seconds ≤ place then place + 1
      else place]? = some e := by
  have lt : place < entries.length := (List.getElem?_eq_some_iff.1 found).1
  unfold insertTimed
  dsimp only
  split
  · next before =>
    have len : (entries.take (placeOf entries new.time.seconds)).length =
        placeOf entries new.time.seconds := by
      rw [List.length_take]
      omega
    rw [List.getElem?_append_right (by omega), len,
      show place + 1 - placeOf entries new.time.seconds =
        (place - placeOf entries new.time.seconds) + 1 by omega,
      List.getElem?_cons_succ, List.getElem?_drop,
      show placeOf entries new.time.seconds + (place - placeOf entries new.time.seconds) = place
        by omega]
    exact found
  · next behind =>
    rw [List.getElem?_append_left (by rw [List.length_take]; omega), List.getElem?_take]
    rw [if_pos (by omega)]
    exact found

/-- An accepted call inserts the entry that it stands for, or none. -/
theorem entries_of_call {t' : Timeline} (accepted : t.call c = .ok t') :
    t'.entries = match c.timed? with
      | some new => insertTimed new t.entries
      | none => t.entries := by
  cases c with
  | insert time action =>
    obtain ⟨-, new, entry, rfl⟩ := (insert_eq_ok_iff (a := (time, action))).1 accepted
    rw [timed?_eq_some_iff.2 entry]
    rfl
  | markCompiled =>
    cases accepted
    rfl

/-- An entry is found where it has moved. -/
theorem getElem?_moved (found : t.entries[place]? = some e) :
    (attempt call t c).entries[t.moved c place]? = some e := by
  unfold moved
  cases result : t.call c with
  | error fault =>
    rw [attempt_of_error result]
    exact found
  | ok t' =>
    rw [attempt_of_ok result, entries_of_call result]
    cases c.timed? with
    | none => exact found
    | some new => exact getElem?_insertTimed new found

theorem size_attempt (t : Timeline) (c : Call) :
    (attempt call t c).size = t.size + (added (accepted call t [c])).length := by
  rw [accepted]
  cases result : t.call c with
  | error fault =>
    rw [attempt_of_error result]
    rfl
  | ok t' =>
    rw [attempt_of_ok result, size, entries_of_call result]
    show _ = t.size + (added [c]).length
    rw [added]
    cases timed : c.timed? with
    | none => simp [timed, size]
    | some new =>
      simp only [insertTimed, List.length_append, List.length_cons, List.length_take,
        List.length_drop, size, List.filterMap_cons, timed, List.filterMap_nil, List.length_nil]
      omega

theorem added_accepted_cons (t : Timeline) (c : Call) (cs : List Call) :
    added (accepted call t (c :: cs)) =
      added (accepted call t [c]) ++ added (accepted call (attempt call t c) cs) := by
  rw [accepted, accepted]
  cases result : t.call c with
  | error fault =>
    rw [attempt_of_error result]
    rfl
  | ok t' =>
    rw [attempt_of_ok result]
    show added ([c] ++ accepted call t' cs) = _
    rw [added, List.filterMap_append]
    rfl

/-- Calls that insert nothing leave the entries as they are. -/
theorem entries_attempt (idle : added (accepted call t [c]) = []) :
    (attempt call t c).entries = t.entries := by
  rw [accepted] at idle
  cases result : t.call c with
  | error fault => rw [attempt_of_error result]
  | ok t' =>
    rw [result] at idle
    rw [attempt_of_ok result, entries_of_call result]
    cases timed : c.timed? with
    | none => rfl
    | some new => simp [added, accepted, timed] at idle

end Timeline

/-! ### Cursors -/

/-- A timeline with the cursors that were opened on it. -/
structure Readers where
  timeline : Timeline
  cursors : List Cursor

namespace Readers

/-- What may be done with a timeline and its cursors. -/
inductive Step where
  /-- A call to the timeline, which may be refused. -/
  | call (c : Timeline.Call)
  | openCursor
  /-- A cursor is asked for the next entry. -/
  | next (k : Nat)

/-- The timeline and its cursors after a step. -/
def step (r : Readers) : Step → Readers
  | .call c => { r with timeline := attempt Timeline.call r.timeline c }
  | .openCursor => { r with cursors := r.cursors ++ [{}] }
  | .next k => { r with cursors := r.cursors.modify k fun c => (c.next r.timeline).2 }

/-- The timeline and its cursors after some steps. -/
def after (r : Readers) (steps : List Step) : Readers := steps.foldl step r

/-- What a cursor answers in a step, if it is asked: an entry, or that it is done. -/
def reply? (r : Readers) (k : Nat) : Step → Option (Option Timed)
  | .next j => if j = k then (r.cursors[k]?).map fun c => (c.next r.timeline).1 else none
  | _ => none

/-- What a cursor answers in some steps. -/
def replies (k : Nat) : Readers → List Step → List (Option Timed)
  | _, [] => []
  | r, s :: steps => (r.reply? k s).toList ++ replies k (r.step s) steps

/-- A step asks a cursor for the next entry. -/
def Step.asks (k : Nat) : Step → Bool
  | .next j => j = k
  | _ => false

/-- The call to the timeline that a step is. -/
def Step.call? : Step → Option Timeline.Call
  | .call c => some c
  | _ => none

/-- The entries that are inserted in some steps. -/
def inserted (r : Readers) (steps : List Step) : List Timed :=
  Timeline.added (accepted Timeline.call r.timeline (steps.filterMap Step.call?))

/-- Where the entry at a place is after a step. -/
def shift (r : Readers) : Step → Nat → Nat
  | .call c, place => r.timeline.moved c place
  | _, place => place

/-- Where the entry at a place is after some steps. -/
def follow : Readers → List Step → Nat → Nat
  | _, [], place => place
  | r, s :: steps, place => follow (r.step s) steps (r.shift s place)

/-- A cursor reads the entry that was at a place before some steps: it is asked while it stands
where this entry is by then, and gives it. -/
def Reads (r : Readers) (k : Nat) (steps : List Step) (place : Nat) (e : Timed) : Prop :=
  ∃ earlier later, steps = earlier ++ .next k :: later ∧
    (r.after earlier).cursors[k]? = some { place := r.follow earlier place, done := false } ∧
    (r.after earlier).reply? k (.next k) = some (some e)

variable {r : Readers} {k place : Nat} {c : Cursor} {s : Step} {steps : List Step} {e : Timed}

/-! ### One step -/

theorem le_shift (r : Readers) (s : Step) (place : Nat) : place ≤ r.shift s place := by
  cases s with
  | call c => exact r.timeline.le_moved c place
  | openCursor => exact Nat.le_refl place
  | next j => exact Nat.le_refl place

theorem getElem?_shift (found : r.timeline.entries[place]? = some e) (s : Step) :
    (r.step s).timeline.entries[r.shift s place]? = some e := by
  cases s with
  | call c => exact Timeline.getElem?_moved found
  | openCursor => exact found
  | next j => exact found

theorem inserted_cons (r : Readers) (s : Step) (steps : List Step) :
    r.inserted (s :: steps) = r.inserted [s] ++ (r.step s).inserted steps := by
  cases s with
  | call c => exact Timeline.added_accepted_cons r.timeline c (steps.filterMap Step.call?)
  | openCursor => rfl
  | next j => rfl

theorem size_step (r : Readers) (s : Step) :
    (r.step s).timeline.size = r.timeline.size + (r.inserted [s]).length := by
  cases s with
  | call c => exact r.timeline.size_attempt c
  | openCursor => rfl
  | next j => rfl

theorem entries_step (idle : r.inserted [s] = []) :
    (r.step s).timeline.entries = r.timeline.entries := by
  cases s with
  | call c => exact Timeline.entries_attempt idle
  | openCursor => rfl
  | next j => rfl

/-- A cursor is asked and the timeline stays as it is, or the cursor does. -/
theorem step_cases (opened : r.cursors[k]? = some c) (s : Step) :
    (s = .next k ∧ (r.step s).cursors[k]? = some (c.next r.timeline).2 ∧
        r.reply? k s = some (c.next r.timeline).1) ∨
      (s.asks k = false ∧ (r.step s).cursors[k]? = some c ∧ r.reply? k s = none) := by
  cases s with
  | call d => exact .inr ⟨rfl, opened, rfl⟩
  | openCursor =>
    have lt : k < r.cursors.length := (List.getElem?_eq_some_iff.1 opened).1
    refine .inr ⟨rfl, ?_, rfl⟩
    show (r.cursors ++ [_])[k]? = _
    rw [List.getElem?_append_left lt, opened]
  | next j =>
    have modified : (r.step (.next j)).cursors[k]? =
        (r.cursors.modify j fun c => (c.next r.timeline).2)[k]? := rfl
    rw [List.getElem?_modify, opened] at modified
    by_cases same : j = k
    · subst same
      refine .inl ⟨rfl, ?_, ?_⟩
      · rw [modified]
        simp
      · rw [reply?, if_pos rfl, opened]
        rfl
    · refine .inr ⟨?_, ?_, ?_⟩
      · simp [Step.asks, same]
      · rw [modified]
        simp [same]
      · rw [reply?, if_neg same]

/-- A cursor that is not done gives the entry at its place, if there is one. -/
theorem next_cases (reading : c.done = false) (t : Timeline) :
    (∃ e, t.entries[c.place]? = some e ∧ c.next t = (some e, { c with place := c.place + 1 })) ∨
      (t.size ≤ c.place ∧ c.next t = (none, { c with done := true })) := by
  rw [Cursor.next, reading, if_neg Bool.false_ne_true]
  cases here : t.entries[c.place]? with
  | some e => exact .inl ⟨e, rfl, rfl⟩
  | none => exact .inr ⟨List.getElem?_eq_none_iff.1 here, rfl⟩

/-! ### Some steps -/

theorem Reads.cons (rest : Reads (r.step s) k steps (r.shift s place) e) :
    Reads r k (s :: steps) place e := by
  obtain ⟨earlier, later, rfl, there, reply⟩ := rest
  exact ⟨s :: earlier, later, rfl, there, reply⟩

theorem Reads.mem_replies (reads : Reads r k steps place e) : some e ∈ replies k r steps := by
  obtain ⟨earlier, later, rfl, -, reply⟩ := reads
  induction earlier generalizing r with
  | nil =>
    have reply : r.reply? k (.next k) = some (some e) := reply
    rw [List.nil_append, replies, reply]
    exact List.mem_cons_self
  | cons s earlier ih =>
    rw [List.cons_append, replies]
    exact List.mem_append_right _ (ih reply)

/-- A cursor that comes to its end has read whatever was not before it. -/
theorem reads_of_done (opened : r.cursors[k]? = some c) (reading : c.done = false)
    (ahead : c.place ≤ place) (found : r.timeline.entries[place]? = some e)
    (isDone : none ∈ replies k r steps) : Reads r k steps place e := by
  induction steps generalizing r c place with
  | nil => cases isDone
  | cons s steps ih =>
    rw [replies, List.mem_append] at isDone
    rcases step_cases opened s with ⟨rfl, cursor, reply⟩ | ⟨-, cursor, silent⟩
    · have lt : place < r.timeline.size := (List.getElem?_eq_some_iff.1 found).1
      rcases next_cases reading r.timeline with ⟨d, here, next⟩ | ⟨atEnd, -⟩
      · rw [next] at cursor reply
        by_cases arrived : c.place = place
        · subst arrived
          obtain rfl : d = e := Option.some.inj (here.symm.trans found)
          exact ⟨[], steps, rfl, by rw [follow, ← reading]; exact opened, reply⟩
        · have later : none ∈ replies k (r.step (.next k)) steps := by
            rw [reply] at isDone
            simpa using isDone
          have before : c.place + 1 ≤ place := by omega
          exact (ih cursor reading before found later).cons
      · omega
    · rw [silent] at isDone
      have later : none ∈ replies k (r.step s) steps := by simpa using isDone
      exact (ih cursor reading (ahead.trans (r.le_shift s place)) (getElem?_shift found s) later).cons

/-- Every question is answered. -/
theorem length_replies (steps : List Step) (opened : r.cursors[k]? = some c) :
    (replies k r steps).length = steps.countP (Step.asks k) := by
  induction steps generalizing r c with
  | nil => rfl
  | cons s steps ih =>
    rw [replies, List.length_append]
    rcases step_cases opened s with ⟨rfl, cursor, reply⟩ | ⟨other, cursor, silent⟩
    · have asked : Step.asks k (.next k) = true := decide_eq_true rfl
      rw [reply, ih cursor, List.countP_cons_of_pos asked]
      exact Nat.add_comm _ _
    · rw [silent, ih cursor, List.countP_cons_of_neg (by rw [other]; exact Bool.false_ne_true)]
      exact Nat.zero_add _

/-- A cursor that is done stays done. -/
theorem replies_of_done (steps : List Step) (opened : r.cursors[k]? = some c)
    (isDone : c.done = true) :
    ∃ dones, replies k r steps = List.replicate dones none := by
  induction steps generalizing r with
  | nil => exact ⟨0, rfl⟩
  | cons s steps ih =>
    have next : c.next r.timeline = (none, c) := by rw [Cursor.next, if_pos isDone]
    rw [replies]
    rcases step_cases opened s with ⟨rfl, cursor, reply⟩ | ⟨-, cursor, silent⟩
    · rw [next] at cursor reply
      obtain ⟨dones, rest⟩ := ih cursor
      refine ⟨dones + 1, ?_⟩
      rw [reply, rest]
      rfl
    · rw [silent]
      exact ih cursor

/-- A cursor that is not done gives entries and is then done for good.  It stands before as many
entries as it has given, and if nothing is inserted it has given just these. -/
theorem replies_split (steps : List Step) (opened : r.cursors[k]? = some c)
    (reading : c.done = false) (within : c.place ≤ r.timeline.size) :
    ∃ read dones, replies k r steps = read.map some ++ List.replicate dones none ∧
      c.place + read.length ≤ r.timeline.size + (r.inserted steps).length ∧
      (r.inserted steps = [] → read <+: r.timeline.entries.drop c.place ∧
        (0 < dones → read = r.timeline.entries.drop c.place)) := by
  induction steps generalizing r c with
  | nil => exact ⟨[], 0, rfl, Nat.le_add_right_of_le within, fun _ => ⟨List.nil_prefix, nofun⟩⟩
  | cons s steps ih =>
    rw [replies, inserted_cons, List.length_append, List.append_eq_nil_iff]
    rcases step_cases opened s with ⟨rfl, cursor, reply⟩ | ⟨-, cursor, silent⟩
    · rw [reply]
      rcases next_cases reading r.timeline with ⟨d, here, next⟩ | ⟨atEnd, next⟩
      · -- The entry that is given comes before those that are given later.
        rw [next] at cursor ⊢
        obtain ⟨lt, eq⟩ := List.getElem?_eq_some_iff.1 here
        obtain ⟨read, dones, rest, bound, exact'⟩ := ih cursor reading lt
        have behind : r.timeline.entries.drop c.place =
            d :: r.timeline.entries.drop (c.place + 1) := by
          rw [List.drop_eq_getElem_cons lt, eq]
        refine ⟨d :: read, dones, by rw [rest]; rfl, ?_, ?_⟩
        · have bound : c.place + 1 + read.length ≤
              r.timeline.size + ((r.step (.next k)).inserted steps).length := bound
          rw [List.length_cons]
          omega
        · rintro ⟨-, idle⟩
          obtain ⟨start, whole⟩ := exact' idle
          rw [behind]
          exact ⟨List.prefix_cons_inj d |>.2 start, fun isDone => congrArg _ (whole isDone)⟩
      · rw [next] at cursor ⊢
        obtain ⟨dones, rest⟩ := replies_of_done steps cursor rfl
        refine ⟨[], dones + 1, by rw [rest]; rfl, Nat.le_add_right_of_le within, fun _ => ?_⟩
        rw [List.drop_of_length_le atEnd]
        exact ⟨List.nil_prefix, fun _ => rfl⟩
    · rw [silent]
      have size := r.size_step s
      obtain ⟨read, dones, rest, bound, exact'⟩ := ih cursor reading (by omega)
      refine ⟨read, dones, rest, by omega, ?_⟩
      rintro ⟨idle, later⟩
      have same := exact' later
      rwa [entries_step idle] at same

/-! ### A cursor from its opening on -/

/-- What a cursor gives from its opening on: some entries, and then that it is done. -/
structure ReadsThrough (opened : Readers) (k : Nat) (steps : List Step) (read : List Timed)
    (dones : Nat) : Prop where
  /-- It is done for good. -/
  replies : replies k opened steps = read.map some ++ List.replicate dones none
  answered : read.length + dones = steps.countP (Step.asks k)
  /-- When it is done, it has read each entry that was there when it was opened. -/
  complete : 0 < dones → ∀ place e, opened.timeline.entries[place]? = some e →
    Reads opened k steps place e ∧ e ∈ read
  /-- It is done when it has been asked once more than there have been entries. -/
  bounded : opened.timeline.size + (opened.inserted steps).length < steps.countP (Step.asks k) →
    0 < dones
  /-- If nothing is inserted, it gives the entries as they stand, in order of time. -/
  undisturbed : opened.inserted steps = [] → SortedByTime read ∧
    read <+: opened.timeline.entries ∧ (0 < dones → read = opened.timeline.entries)

/-- **A cursor passes over nothing.**  Whatever calls to the timeline, accepted or refused, and
whatever other cursors come in between, a cursor that is done has read every entry that was there
when it was opened.  It is done after at most one question more than there were entries then and
were inserted since, and stays done; if nothing is inserted it gives exactly the entries, each
once, in order of time. -/
theorem reads_through (r : Readers) (steps : List Step) :
    ∃ read dones, ReadsThrough (r.step .openCursor) r.cursors.length steps read dones := by
  have opened : (r.step .openCursor).cursors[r.cursors.length]? = some {} :=
    List.getElem?_concat_length
  have answered := length_replies steps opened
  obtain ⟨read, dones, replies, bound, undisturbed⟩ :=
    replies_split steps opened rfl (Nat.zero_le _)
  rw [replies, List.length_append, List.length_map, List.length_replicate] at answered
  have bound : 0 + read.length ≤ _ := bound
  refine ⟨read, dones, replies, answered, fun isDone place e found => ?_, fun many => by omega,
    fun idle => ?_⟩
  · have ends : none ∈ Readers.replies r.cursors.length (r.step .openCursor) steps := by
      rw [replies]
      exact List.mem_append_right _ (List.mem_replicate.2 ⟨isDone.ne', rfl⟩)
    have reads := reads_of_done opened rfl (Nat.zero_le place) found ends
    have mem := reads.mem_replies
    rw [replies] at mem
    exact ⟨reads, by simpa using mem⟩
  · obtain ⟨start, whole⟩ := undisturbed idle
    exact ⟨r.timeline.sorted.sublist start.sublist, start, whole⟩

/-- An entry that has been read comes once more if one that is inserted moves it to the place of
the cursor. -/
example : (Timeline.create "bells" true [(1, .reset)]).map (fun t =>
    (replies 0 ⟨t, [{}]⟩ [.next 0, .call (.insert 0 .reset), .next 0, .next 0]).map
      (Option.map fun e => e.time.text)) = .ok [some "1", some "1", none] := by
  decide +kernel

end Readers

end SceneLogic
