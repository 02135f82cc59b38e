/-
A scene after any changes.

Objects and groups of a scene never share a name, and every position and every list of members was
given with a change that was accepted (`Scene.Kept`).  A change that is refused leaves the scene as
it was, and one that is accepted leaves all but the entry of its own name (`Scene.keeps_changes`).
Only reserved names are found without an entry, and since they are found as objects no group can
have one.
-/
import SceneLogic.Proofs.Attempts
import SceneLogic.Proofs.Scene.Changes
import SceneLogic.Proofs.Scene.Names
namespace SceneLogic

/-! ### Positions -/

/-- Exactly three finite numbers make a position. -/
theorem Position.isSome_ofNumbers? {position : List Number} :
    (ofNumbers? position).isSome ↔ position.length = 3 ∧ ∀ x ∈ position, x.isFinite := by
  match position with
  | [] | [_] | [_, _] | _ :: _ :: _ :: _ :: _ => simp [ofNumbers?]
  | [x, y, z] =>
    cases hx : x.toScalar? <;> cases hy : y.toScalar? <;> cases hz : z.toScalar? <;>
      simp [ofNumbers?, Number.isFinite, hx, hy, hz]

theorem Position.isFinite_of_mem_numbers {p : Position} {x : Number} (h : x ∈ p.numbers) :
    x.isFinite := by
  obtain ⟨coordinate, -, rfl⟩ := List.mem_map.1 h
  rfl

/-! ### First mentions -/

/-- The items of a list, each where it is first mentioned. -/
structure FirstMentions (mentioned kept : List String) : Prop where
  mem : ∀ m, m ∈ kept ↔ m ∈ mentioned
  order : kept.Pairwise fun a b => mentioned.idxOf a < mentioned.idxOf b

theorem firstMentions_eraseDups (mentioned : List String) :
    FirstMentions mentioned mentioned.eraseDups := by
  refine ⟨fun m => List.mem_eraseDups, ?_⟩
  induction mentioned using List.reverseRecOn with
  | nil => simp
  | append_singleton earlier last ih =>
    have place {m : String} (mem : m ∈ earlier) : (earlier ++ [last]).idxOf m = earlier.idxOf m :=
      List.idxOf_append_of_mem mem
    have ordered : earlier.eraseDups.Pairwise fun a b =>
        (earlier ++ [last]).idxOf a < (earlier ++ [last]).idxOf b := by
      refine ih.imp_of_mem fun ha hb lt => ?_
      rwa [place (List.mem_eraseDups.1 ha), place (List.mem_eraseDups.1 hb)]
    rw [List.eraseDups_append]
    by_cases mem : last ∈ earlier
    · have gone : [last].removeAll earlier = [] := by simp [List.removeAll, mem]
      rw [gone, List.eraseDups_nil, List.append_nil]
      exact ordered
    · have stays : ([last].removeAll earlier).eraseDups = [last] := by
        simp [List.removeAll, mem, List.eraseDups_cons]
      rw [stays]
      refine List.pairwise_append.2 ⟨ordered, List.pairwise_singleton _ _, fun a ha b hb => ?_⟩
      rw [List.mem_singleton.1 hb, place (List.mem_eraseDups.1 ha),
        List.idxOf_append_of_notMem mem]
      exact Nat.lt_add_right _ (List.idxOf_lt_length_of_mem (List.mem_eraseDups.1 ha))

theorem FirstMentions.nodup {mentioned kept : List String} (first : FirstMentions mentioned kept) :
    kept.Nodup := by
  refine first.order.imp fun {a b} lt => ?_
  rintro rfl
  exact Nat.lt_irrefl _ lt

namespace Scene

variable {s s' : Scene} {c : Change} {done : List Change}

/-! ### One change -/

/-- The name that a change is about. -/
def Change.name : Change → String
  | .add name _ | .move name _ | .remove name | .define name _ => name

/-- Two scenes have the same entries, in the same order, apart from that of a name. -/
def SameApartFrom (name : String) (s s' : Scene) : Prop :=
  s'.objects.erase name = s.objects.erase name ∧ s'.groups.erase name = s.groups.erase name

theorem Takes.sameApartFrom (takes : s.Takes c s') : SameApartFrom c.name s s' := by
  cases takes with
  | add _ _ _ | move _ _ => exact ⟨Table.erase_insert_self _ _ _, rfl⟩
  | remove => exact ⟨Table.erase_erase_self _ _, rfl⟩
  | define _ _ _ => exact ⟨rfl, Table.erase_insert_self _ _ _⟩

/-! ### Any changes -/

/-- What is known of a scene behind the changes that were accepted. -/
structure Kept (done : List Change) (s : Scene) : Prop where
  /-- No object and no group share a name. -/
  apart : ∀ name, ¬ (s.objects.contains name ∧ s.groups.contains name)
  /-- What is found as an object anyway is no group. -/
  unreserved : ∀ name, s.groups.contains name → Reserved.isReserved name = false
  /-- Every position was given as three finite numbers. -/
  positions : ∀ name p, s.objects.get? name = some p → ∃ position,
    (.add name position ∈ done ∨ .move name position ∈ done) ∧
      Position.ofNumbers? position = some p
  /-- Every group has the members that it was defined with, each where it is first mentioned. -/
  members : ∀ group kept, s.groups.get? group = some kept → ∃ members,
    .define group members ∈ done ∧ FirstMentions members kept

theorem hasObject_iff (s : Scene) (name : String) :
    s.hasObject name ↔ s.objects.contains name ∨ Reserved.isReserved name := by
  rw [hasObject, Bool.or_eq_true]

theorem hasGroup_iff (s : Scene) (name : String) :
    s.hasGroup name ↔ s.groups.contains name ∨ Reserved.isReserved name := by
  rw [hasGroup, Bool.or_eq_true]

theorem kept_empty : Kept [] empty where
  apart := by rintro name ⟨⟨⟩, -⟩
  unreserved := by rintro name ⟨⟩
  positions := by rintro name p ⟨⟩
  members := by rintro group kept ⟨⟩

theorem Kept.later (now : Kept done s) (c : Change) : Kept (done ++ [c]) s where
  apart := now.apart
  unreserved := now.unreserved
  positions := by
    intro name p found
    obtain ⟨position, asked, placed⟩ := now.positions name p found
    exact ⟨position, asked.imp (List.mem_append_left _) (List.mem_append_left _), placed⟩
  members := by
    intro group kept found
    obtain ⟨members, asked, first⟩ := now.members group kept found
    exact ⟨members, List.mem_append_left _ asked, first⟩

/-- A position under a name that no group has. -/
theorem Kept.insert {name : String} {position : List Number} {p : Position} (now : Kept done s)
    (asked : .add name position ∈ done ∨ .move name position ∈ done)
    (placed : Position.ofNumbers? position = some p) (other : ¬ s.groups.contains name) :
    Kept done { s with objects := s.objects.insert name p } where
  apart := by
    rintro name' ⟨object, group⟩
    rw [Table.contains, Table.get?_insert] at object
    split at object
    · next same => exact other (same ▸ group)
    · exact now.apart name' ⟨object, group⟩
  unreserved := now.unreserved
  positions := by
    intro name' p' found
    rw [Table.get?_insert] at found
    split at found
    · next same =>
      cases found
      exact ⟨position, same ▸ asked, placed⟩
    · exact now.positions name' p' found
  members := now.members

theorem Kept.remove (now : Kept done s) (name : String) : Kept done (s.removeObject name) := by
  have before {name' : String} {p : Position}
      (found : (s.removeObject name).objects.get? name' = some p) :
      s.objects.get? name' = some p := by
    rw [removeObject, Table.get?_erase] at found
    split at found
    · cases found
    · exact found
  refine ⟨?_, now.unreserved, fun name' p found => now.positions name' p (before found), now.members⟩
  rintro name' ⟨object, group⟩
  obtain ⟨p, found⟩ := Option.isSome_iff_exists.1 object
  refine now.apart name' ⟨?_, group⟩
  rw [Table.contains, before found]
  rfl

/-- A group under a name that is not found as an object. -/
theorem Kept.define {group : String} {members : List String} (now : Kept done s)
    (asked : .define group members ∈ done) (object : s.hasObject group = false) :
    Kept done { s with groups := s.groups.insert group members.eraseDups } := by
  have unfound : ¬ (s.objects.contains group ∨ Reserved.isReserved group) := by
    rw [← hasObject_iff, object]
    exact Bool.false_ne_true
  refine ⟨?_, ?_, now.positions, ?_⟩
  · rintro name ⟨isObject, isGroup⟩
    rw [Table.contains, Table.get?_insert] at isGroup
    split at isGroup
    · next same => exact unfound (.inl (same ▸ isObject))
    · exact now.apart name ⟨isObject, isGroup⟩
  · intro name isGroup
    rw [Table.contains, Table.get?_insert] at isGroup
    split at isGroup
    · next same =>
      rw [same]
      exact Bool.eq_false_iff.2 fun reserved => unfound (.inr reserved)
    · exact now.unreserved name isGroup
  · intro name kept found
    rw [Table.get?_insert] at found
    split at found
    · next same =>
      cases found
      exact ⟨members, same ▸ asked, firstMentions_eraseDups members⟩
    · exact now.members name kept found

theorem Kept.apply (now : Kept done s) (accepted : s.apply c = .ok s') :
    Kept (done ++ [c]) s' := by
  have asked : c ∈ done ++ [c] := List.mem_append_right _ List.mem_cons_self
  cases apply_eq_ok_iff.1 accepted with
  | @add name position p object group placed =>
    refine (now.later _).insert (.inl asked) placed fun isGroup => ?_
    rw [(hasGroup_iff s name).2 (.inl isGroup)] at group
    cases group
  | @move name position p found placed =>
    -- What is found has an entry, or it is reserved; no group has either.
    refine (now.later _).insert (.inr asked) placed fun isGroup => ?_
    rcases (hasObject_iff s name).1 found with object | reserved
    · exact now.apart name ⟨object, isGroup⟩
    · rw [now.unreserved name isGroup] at reserved
      cases reserved
  | remove => exact (now.later _).remove _
  | define object _ _ => exact (now.later _).define asked object

theorem after_eq_attemptAll (changes : List Change) :
    after changes = attemptAll apply empty changes := by
  have same : attempt = SceneLogic.attempt apply := by
    funext s c
    rw [attempt, SceneLogic.attempt]
    cases s.apply c <;> rfl
  rw [after, same, attemptAll]

/-- **What any changes leave of a scene.**  After any changes no name is that of an object and a
group, every position is one that was given as three finite numbers, and every group has its members
once each, in the order of their first mention.  A further change that is refused leaves objects and
groups as they are, and one that is accepted leaves all but the entry of its own name. -/
theorem keeps_changes (changes : List Change) :
    (∀ name, ¬ ((after changes).objects.contains name ∧ (after changes).groups.contains name)) ∧
    (∀ name p, (after changes).objects.get? name = some p →
      p.numbers.length = 3 ∧ (∀ x ∈ p.numbers, x.isFinite) ∧
      ∃ position, (.add name position ∈ accepted apply empty changes ∨
          .move name position ∈ accepted apply empty changes) ∧
        position.length = 3 ∧ (∀ x ∈ position, x.isFinite) ∧
        Position.ofNumbers? position = some p) ∧
    (∀ group kept, (after changes).groups.get? group = some kept →
      kept.Nodup ∧ ∃ members, .define group members ∈ accepted apply empty changes ∧
        FirstMentions members kept) ∧
    ∀ c, (∀ s', (after changes).apply c = .ok s' ↔ (after changes).Takes c s') ∧
      (∀ fault, (after changes).apply c = .error fault → after (changes ++ [c]) = after changes) ∧
      ∀ s', (after changes).apply c = .ok s' →
        after (changes ++ [c]) = s' ∧ SameApartFrom c.name (after changes) s' := by
  have kept : Kept (accepted apply empty changes) (after changes) := by
    rw [after_eq_attemptAll]
    exact attemptAll_induction kept_empty Kept.apply changes
  have last (c : Change) : after (changes ++ [c]) = SceneLogic.attempt apply (after changes) c := by
    rw [after_eq_attemptAll, after_eq_attemptAll, attemptAll_concat]
  refine ⟨kept.apart, fun name p found => ?_, fun group members found => ?_, fun c =>
    ⟨fun s' => apply_eq_ok_iff, fun fault refused => ?_, fun s' accepted => ⟨?_, ?_⟩⟩⟩
  · obtain ⟨position, asked, read⟩ := kept.positions name p found
    obtain ⟨three, finite⟩ := Position.isSome_ofNumbers?.1 (Option.isSome_of_eq_some read)
    exact ⟨rfl, fun x => Position.isFinite_of_mem_numbers, position, asked, three, finite, read⟩
  · obtain ⟨mentioned, asked, first⟩ := kept.members group members found
    exact ⟨first.nodup, mentioned, asked, first⟩
  · rw [last, attempt_of_error refused]
  · rw [last, attempt_of_ok accepted]
  · exact (apply_eq_ok_iff.1 accepted).sameApartFrom

end Scene

end SceneLogic
