/-
What containment detects.

A test for a box detects what its words say (`Containment.detection_law`): some or all of the
objects named have a position inside, or outside, of the box, and there are objects at all.  So
neither the order of the corners on an axis nor the order and number of the mentions of an object
matter, and if every object has a position, some lie outside exactly if not all lie inside.  A test
asks for positions in the order of the first mentions, up to the object that settles it, and goes
by nothing else.

A coordinate that is not a number is beyond no other, so a position of such coordinates counts as
inside, although no coordinate of the box is less than it or equal to it
(`Containment.unplaced_is_inside`).
-/
import SceneLogic.Containment
import SceneLogic.Proofs.Number.Rounding
import SceneLogic.Proofs.Scene.Store
namespace SceneLogic

attribute [local irreducible] quantaPerUnit quantaLimit

/-! ### Coordinates -/

namespace Number

/-- At least the lesser of two numbers and at most the greater. -/
def Between (a b x : Number) : Prop := (a.le x ∨ b.le x) ∧ (x.le a ∨ x.le b)

instance (a b x : Number) : Decidable (Between a b x) :=
  inferInstanceAs (Decidable ((a.le x ∨ b.le x) ∧ (x.le a ∨ x.le b)))

theorem ne_nan_of_isFinite {x : Number} (h : x.isFinite) : x ≠ nan := by
  rintro rfl
  cases h

theorem le_nan (a : Number) : a.le nan = false := by
  rw [le, compareBy]
  cases a.rank <;> rfl

/-- What is not beyond the lesser and the greater of two numbers lies between them, or is no
number. -/
theorem not_beyond_iff {a b x : Number} (ha : a ≠ nan) (hb : b ≠ nan) :
    (x.lt (Number.min a b) || (Number.max a b).lt x) = false ↔ (x ≠ nan → Between a b x) := by
  obtain ⟨r, hr⟩ := exists_rank ha
  obtain ⟨s, hs⟩ := exists_rank hb
  by_cases number : x = nan
  · subst number
    have none : ∀ y : Number, nan.lt y = false ∧ y.lt nan = false := by
      intro y
      rw [lt, lt, compareBy, compareBy]
      exact ⟨rfl, by cases y.rank <;> rfl⟩
    simp [none]
  · obtain ⟨t, ht⟩ := exists_rank number
    rw [lt_of_rank ht (rank_min hr hs), lt_of_rank (rank_max hr hs) ht, Between,
      le_of_rank hr ht, le_of_rank hs ht, le_of_rank ht hr, le_of_rank ht hs]
    simp only [Bool.or_eq_false_iff, decide_eq_false_iff_not, decide_eq_true_eq, ne_eq, number,
      not_false_eq_true, true_imp_iff]
    omega

theorem between_comm {a b x : Number} : Between a b x ↔ Between b a x := by
  rw [Between, Between, or_comm, or_comm (a := x.le a = true)]

end Number

namespace Containment

/-! ### Boxes -/

/-- The coordinates of a position on the three axes. -/
def axes : List (Triple Number → Number) := [Triple.x, Triple.y, Triple.z]

/-- On every axis a position lies between two corners, unless its coordinate is no number. -/
def InBox (corner1 corner2 p : Triple Number) : Prop :=
  ∀ axis ∈ axes, axis p ≠ .nan → Number.Between (axis corner1) (axis corner2) (axis p)

/-- Two corners are two others, with the coordinates exchanged on some axes. -/
def SameBox (corner1 corner2 corner1' corner2' : Triple Number) : Prop :=
  ∀ axis ∈ axes, (axis corner1' = axis corner1 ∧ axis corner2' = axis corner2) ∨
    (axis corner1' = axis corner2 ∧ axis corner2' = axis corner1)

/-- An object has a position, which lies on a side of a box. -/
def Found (corner1 corner2 : Triple Number) (side : Side)
    (position? : String → Option (Triple Number)) (name : String) : Prop :=
  ∃ p, position? name = some p ∧ match side with
    | .inside => InBox corner1 corner2 p
    | .outside => ¬ InBox corner1 corner2 p

section Box

variable {corner1 corner2 : Triple Number} {side : Side} {objects : List String} {detectAny : Bool}
  {position? : String → Option (Triple Number)} {name : String}

theorem inBox_congr {corner1' corner2' : Triple Number}
    (same : SameBox corner1 corner2 corner1' corner2') (p : Triple Number) :
    InBox corner1' corner2' p ↔ InBox corner1 corner2 p := by
  refine forall_congr' fun axis => forall_congr' fun mem => imp_congr_right fun _ => ?_
  rcases same axis mem with ⟨first, second⟩ | ⟨first, second⟩
  · rw [first, second]
  · rw [first, second, Number.between_comm]

theorem found_congr {corner1' corner2' : Triple Number}
    (same : SameBox corner1 corner2 corner1' corner2') :
    Found corner1' corner2' side position? name ↔ Found corner1 corner2 side position? name := by
  refine exists_congr fun p => and_congr_right fun _ => ?_
  cases side with
  | inside => exact inBox_congr same p
  | outside => exact not_congr (inBox_congr same p)

/-- An object that has a position is found on exactly one side. -/
theorem found_outside_iff (placed : (position? name).isSome) :
    Found corner1 corner2 .outside position? name ↔
      ¬ Found corner1 corner2 .inside position? name := by
  obtain ⟨p, hp⟩ := Option.isSome_iff_exists.1 placed
  simp [Found, hp]

variable (finite1 : ∀ axis ∈ axes, (axis corner1).isFinite)
  (finite2 : ∀ axis ∈ axes, (axis corner2).isFinite)
include finite1 finite2

theorem isOutside_between_eq_false (p : Triple Number) :
    (between corner1 corner2 side objects detectAny).isOutside p = false ↔
      InBox corner1 corner2 p := by
  have beyond : (between corner1 corner2 side objects detectAny).isOutside p =
      axes.any fun axis => (axis p).lt (Number.min (axis corner1) (axis corner2)) ||
        (Number.max (axis corner1) (axis corner2)).lt (axis p) := by
    simp [isOutside, between, axes, Bool.or_assoc]
  rw [beyond, List.any_eq_false]
  refine forall_congr' fun axis => forall_congr' fun mem => ?_
  rw [Bool.not_eq_true]
  exact Number.not_beyond_iff (Number.ne_nan_of_isFinite (finite1 axis mem))
    (Number.ne_nan_of_isFinite (finite2 axis mem))

theorem finds_between_iff :
    (between corner1 corner2 side objects detectAny).finds position? name ↔
      Found corner1 corner2 side position? name := by
  rw [finds, Option.any_eq_true]
  refine exists_congr fun p => and_congr_right fun _ => ?_
  have box : (between corner1 corner2 side objects detectAny).isOutside p = false ↔
      InBox corner1 corner2 p := isOutside_between_eq_false finite1 finite2 p
  cases side with
  | inside =>
    show (!isOutside _ p) = true ↔ _
    rw [Bool.not_eq_true', box]
  | outside =>
    show isOutside _ p = true ↔ _
    rw [← Bool.not_eq_false, box]

end Box

/-! ### Objects that are tried -/

section Tried

variable {α : Type} {test test' : α → Bool}

theorem trySome_fst (xs : List α) : (trySome test xs).1 = xs.any test := by
  induction xs with
  | nil => rfl
  | cons x xs ih =>
    rw [trySome, List.any_cons]
    cases test x with
    | true => rfl
    | false => exact ih

theorem tried_prefix (xs : List α) : (trySome test xs).2 <+: xs := by
  induction xs with
  | nil => exact List.prefix_refl _
  | cons x xs ih =>
    rw [trySome]
    split
    · exact ⟨xs, rfl⟩
    · exact List.cons_prefix_cons.2 ⟨rfl, ih⟩

/-- No item before the last one that is tried satisfies the test. -/
theorem not_test_of_mem_dropLast {x : α} (xs : List α)
    (mem : x ∈ (trySome test xs).2.dropLast) : test x = false := by
  induction xs with
  | nil => cases mem
  | cons y xs ih =>
    rw [trySome] at mem
    split at mem
    · cases mem
    · next fails =>
      dsimp only at mem
      by_cases more : (trySome test xs).2 = []
      · rw [more] at mem
        cases mem
      · rw [List.dropLast_cons_of_ne_nil more, List.mem_cons] at mem
        rcases mem with rfl | mem
        · exact Bool.not_eq_true _ ▸ fails
        · exact ih mem

/-- All items are tried, or the last of these satisfies the test. -/
theorem tried_eq_or_test_getLast (xs : List α) :
    (trySome test xs).2 = xs ∨ ∃ x ∈ (trySome test xs).2.getLast?, test x := by
  induction xs with
  | nil => exact .inl rfl
  | cons y xs ih =>
    rw [trySome]
    split
    · next holds => exact .inr ⟨y, rfl, holds⟩
    · dsimp only
      rcases ih with all | ⟨x, last, holds⟩
      · exact .inl (by rw [all])
      · have some : (trySome test xs).2 ≠ [] := by
          intro none
          rw [none] at last
          cases last
        refine .inr ⟨x, ?_, holds⟩
        rwa [List.getLast?_cons_of_ne_nil some]

/-- A test that agrees on the items that are tried comes to the same. -/
theorem trySome_congr (xs : List α) (same : ∀ x ∈ (trySome test xs).2, test' x = test x) :
    trySome test' xs = trySome test xs := by
  induction xs with
  | nil => rfl
  | cons x xs ih =>
    have first : test' x = test x := by
      refine same x ?_
      rw [trySome]
      split <;> exact List.mem_cons_self
    rw [trySome, trySome, first]
    by_cases holds : test x
    · rw [if_pos holds, if_pos holds]
    · rw [trySome, if_neg holds] at same
      rw [if_neg holds, if_neg holds, ih fun y mem => same y (List.mem_cons_of_mem _ mem)]

end Tried

theorem evaluate_eq (c : Containment) (position? : String → Option (Triple Number)) :
    c.asked position? = (trySome (c.settles position?) c.objects).2 ∧
      c.detects position? = match c.aggregate with
        | .any => c.objects.any (c.settles position?)
        | .all => !c.objects.isEmpty && !c.objects.any (c.settles position?) := by
  rw [asked, detects, evaluate, ← trySome_fst]
  cases c.aggregate <;> exact ⟨rfl, rfl⟩

/-- A test goes by nothing but the positions that it asks for. -/
theorem evaluate_congr (c : Containment) {position? position?' : String → Option (Triple Number)}
    (same : ∀ name ∈ c.asked position?, position?' name = position? name) :
    c.evaluate position?' = c.evaluate position? := by
  have tried : trySome (c.settles position?') c.objects =
      trySome (c.settles position?) c.objects := by
    refine trySome_congr _ fun name mem => ?_
    rw [← (c.evaluate_eq position?).1] at mem
    rw [settles, settles, finds, finds, same name mem]
  rw [evaluate, evaluate, tried]

/-! ### What a test detects -/

/-- A test for any of its objects is settled by one that is found, and a test for all of them by one
that is not. -/
def Settles (corner1 corner2 : Triple Number) (side : Side) (detectAny : Bool)
    (position? : String → Option (Triple Number)) (name : String) : Prop :=
  Found corner1 corner2 side position? name ↔ detectAny

/-- What the tests for the box between two corners detect. -/
structure DetectionLaw (corner1 corner2 : Triple Number) : Prop where
  /-- There are objects, and some of them or all of them are found. -/
  detects : ∀ side objects detectAny position?,
    (between corner1 corner2 side objects detectAny).detects position? ↔ objects ≠ [] ∧
      if detectAny then ∃ name ∈ objects, Found corner1 corner2 side position? name
      else ∀ name ∈ objects, Found corner1 corner2 side position? name
  /-- The order of the corners on an axis, of the objects and how often one is mentioned do not
  matter. -/
  unordered : ∀ side objects detectAny position? corner1' corner2' objects',
    SameBox corner1 corner2 corner1' corner2' → (∀ name, name ∈ objects' ↔ name ∈ objects) →
      (between corner1' corner2' side objects' detectAny).detects position? =
        (between corner1 corner2 side objects detectAny).detects position?
  /-- Some objects are outside unless all are inside, and all are outside unless some are inside. -/
  opposite : ∀ objects detectAny position?, objects ≠ [] →
    (∀ name ∈ objects, (position? name).isSome) →
      (between corner1 corner2 .outside objects detectAny).detects position? =
        !(between corner1 corner2 .inside objects (!detectAny)).detects position?
  /-- Positions are asked for in the order of the first mentions, up to the object that settles the
  test. -/
  asked : ∀ side objects detectAny position?, ∃ kept, FirstMentions objects kept ∧
    ∃ names, (between corner1 corner2 side objects detectAny).asked position? = names ∧
      names <+: kept ∧
      (∀ name ∈ names.dropLast, ¬ Settles corner1 corner2 side detectAny position? name) ∧
      (names = kept ∨
        ∃ name ∈ names.getLast?, Settles corner1 corner2 side detectAny position? name)
  /-- Nothing but these positions matters. -/
  only : ∀ side objects detectAny position? position?',
    (∀ name ∈ (between corner1 corner2 side objects detectAny).asked position?,
      position?' name = position? name) →
      (between corner1 corner2 side objects detectAny).detects position?' =
        (between corner1 corner2 side objects detectAny).detects position?

section Law

variable {corner1 corner2 : Triple Number} {side : Side} {objects : List String} {detectAny : Bool}
  {position? : String → Option (Triple Number)}

theorem SameBox.isFinite {corner1' corner2' : Triple Number}
    (same : SameBox corner1 corner2 corner1' corner2')
    (finite1 : ∀ axis ∈ axes, (axis corner1).isFinite)
    (finite2 : ∀ axis ∈ axes, (axis corner2).isFinite) :
    (∀ axis ∈ axes, (axis corner1').isFinite) ∧ ∀ axis ∈ axes, (axis corner2').isFinite := by
  refine ⟨fun axis mem => ?_, fun axis mem => ?_⟩ <;>
    rcases same axis mem with ⟨first, second⟩ | ⟨first, second⟩
  · exact first ▸ finite1 axis mem
  · exact first ▸ finite2 axis mem
  · exact second ▸ finite2 axis mem
  · exact second ▸ finite1 axis mem

variable (finite1 : ∀ axis ∈ axes, (axis corner1).isFinite)
  (finite2 : ∀ axis ∈ axes, (axis corner2).isFinite)
include finite1 finite2

theorem settles_between_iff {name : String} :
    (between corner1 corner2 side objects detectAny).settles position? name ↔
      Settles corner1 corner2 side detectAny position? name := by
  have finds : (between corner1 corner2 side objects detectAny).finds position? name ↔
      Found corner1 corner2 side position? name := finds_between_iff finite1 finite2
  rw [Settles, ← finds]
  cases detectAny with
  | true =>
    show Containment.finds _ _ _ = true ↔ _
    simp
  | false =>
    show (!Containment.finds _ _ _) = true ↔ _
    simp

/-- A test detects that some of its objects are found, or that all of them are and that there
are some. -/
theorem detects_between_iff :
    (between corner1 corner2 side objects detectAny).detects position? ↔ objects ≠ [] ∧
      if detectAny then ∃ name ∈ objects, Found corner1 corner2 side position? name
      else ∀ name ∈ objects, Found corner1 corner2 side position? name := by
  have named : (between corner1 corner2 side objects detectAny).objects = objects.eraseDups := rfl
  rw [(evaluate_eq _ _).2]
  cases detectAny with
  | true =>
    show List.any _ _ = true ↔ _
    rw [List.any_eq_true, named, if_pos rfl]
    simp only [List.mem_eraseDups, settles_between_iff finite1 finite2, Settles, iff_true]
    constructor
    · rintro ⟨name, mem, found⟩
      exact ⟨List.ne_nil_of_mem mem, name, mem, found⟩
    · exact fun h => h.2
  | false =>
    show (!List.isEmpty _ && !List.any _ _) = true ↔ _
    rw [Bool.and_eq_true, Bool.not_eq_true', Bool.not_eq_true', List.any_eq_false, named,
      if_neg Bool.false_ne_true, List.isEmpty_eq_false_iff]
    simp only [List.mem_eraseDups, settles_between_iff finite1 finite2, Settles,
      Bool.false_eq_true, iff_false, not_not]
    refine and_congr_left fun _ => not_congr ?_
    rw [List.eq_nil_iff_forall_not_mem, List.eq_nil_iff_forall_not_mem]
    simp only [List.mem_eraseDups]

theorem detects_unordered {corner1' corner2' : Triple Number} {objects' : List String}
    (same : SameBox corner1 corner2 corner1' corner2')
    (mem : ∀ name, name ∈ objects' ↔ name ∈ objects) :
    (between corner1' corner2' side objects' detectAny).detects position? =
      (between corner1 corner2 side objects detectAny).detects position? := by
  obtain ⟨finite1', finite2'⟩ := same.isFinite finite1 finite2
  have empty : objects' = [] ↔ objects = [] := by
    rw [List.eq_nil_iff_forall_not_mem, List.eq_nil_iff_forall_not_mem]
    exact forall_congr' fun name => not_congr (mem name)
  rw [Bool.eq_iff_iff, detects_between_iff finite1' finite2', detects_between_iff finite1 finite2]
  simp only [found_congr same, mem, ne_eq, empty]

theorem detects_outside (some : objects ≠ [])
    (placed : ∀ name ∈ objects, (position? name).isSome) :
    (between corner1 corner2 .outside objects detectAny).detects position? =
      !(between corner1 corner2 .inside objects (!detectAny)).detects position? := by
  have apart : ∀ name ∈ objects, Found corner1 corner2 .outside position? name ↔
      ¬ Found corner1 corner2 .inside position? name :=
    fun name mem => found_outside_iff (placed name mem)
  rw [Bool.eq_iff_iff, Bool.not_eq_true', ← Bool.not_eq_true, detects_between_iff finite1 finite2,
    detects_between_iff finite1 finite2]
  cases detectAny with
  | true =>
    simp only [some, ne_eq, not_false_eq_true, true_and, if_true, Bool.not_true,
      Bool.false_eq_true, if_false, not_forall]
    constructor
    · rintro ⟨name, mem, found⟩
      exact ⟨name, mem, (apart name mem).1 found⟩
    · rintro ⟨name, mem, found⟩
      exact ⟨name, mem, (apart name mem).2 found⟩
  | false =>
    simp only [some, ne_eq, not_false_eq_true, true_and, if_true, Bool.not_false,
      Bool.false_eq_true, if_false, not_exists, not_and]
    exact forall_congr' fun name => imp_congr_right fun mem => apart name mem

/-- **What containment detects.**  Tests for the box between two corners with finite coordinates
detect what their words say, if a coordinate that is no number is taken to lie between any two. -/
theorem detection_law : DetectionLaw corner1 corner2 where
  detects _ _ _ _ := detects_between_iff finite1 finite2
  unordered _ _ _ _ _ _ _ same mem := detects_unordered finite1 finite2 same mem
  opposite _ _ _ some placed := detects_outside finite1 finite2 some placed
  asked side objects detectAny position? := by
    refine ⟨_, firstMentions_eraseDups objects, _, (evaluate_eq _ _).1, tried_prefix _, ?_, ?_⟩
    · intro name mem
      rw [← settles_between_iff finite1 finite2, Bool.not_eq_true]
      exact not_test_of_mem_dropLast _ mem
    · refine (tried_eq_or_test_getLast _).imp_right ?_
      rintro ⟨name, last, settled⟩
      exact ⟨name, last, (settles_between_iff finite1 finite2).1 settled⟩
  only _ _ _ _ _ same := congrArg Prod.fst (evaluate_congr _ same)

end Law

/-- Two corners of a box whose coordinates are in different orders on the axes. -/
def crateCorners : Triple Number × Triple Number := (⟨10, .negativeZero, 0⟩, ⟨0, 10, 10⟩)

/-- The player is in the crate and the ghost is nowhere. -/
def playerInCrate (name : String) : Option (Triple Number) :=
  if name = "player" then some ⟨0, 5, 10⟩ else none

/-- The player is found, and the ghost that is mentioned behind it is not even asked for. -/
theorem crate_detected :
    (∀ axis ∈ axes, (axis crateCorners.1).isFinite) ∧
    (∀ axis ∈ axes, (axis crateCorners.2).isFinite) ∧
    (between crateCorners.1 crateCorners.2 .inside ["player", "ghost", "player"] true).detects
      playerInCrate ∧
    ¬ (between crateCorners.1 crateCorners.2 .outside ["player", "ghost"] false).detects
      playerInCrate ∧
    (between crateCorners.1 crateCorners.2 .inside ["player", "ghost", "player"] true).asked
      playerInCrate = ["player"] := by
  have finite1 : ∀ axis ∈ axes, (axis crateCorners.1).isFinite := by
    simp only [axes, List.forall_mem_cons]
    exact ⟨by decide +kernel, by decide +kernel, by decide +kernel, List.forall_mem_nil _⟩
  have finite2 : ∀ axis ∈ axes, (axis crateCorners.2).isFinite := by
    simp only [axes, List.forall_mem_cons]
    exact ⟨by decide +kernel, by decide +kernel, by decide +kernel, List.forall_mem_nil _⟩
  have law := detection_law finite1 finite2
  have inside : InBox crateCorners.1 crateCorners.2 ⟨0, 5, 10⟩ := by
    simp only [InBox, axes, List.forall_mem_cons]
    exact ⟨fun _ => by decide +kernel, fun _ => by decide +kernel, fun _ => by decide +kernel,
      List.forall_mem_nil _⟩
  refine ⟨finite1, finite2, (law.detects _ _ _ _).2 ⟨by simp, ?_⟩, ?_, by decide +kernel⟩
  · exact ⟨"player", List.mem_cons_self, ⟨0, 5, 10⟩, rfl, inside⟩
  · intro detected
    obtain ⟨-, all⟩ := (law.detects _ _ _ _).1 detected
    obtain ⟨p, place, outside⟩ := all "player" List.mem_cons_self
    cases place
    exact outside inside

/-- **A coordinate that is not a number counts as inside**, although the least coordinate of the box
is not less than it or equal to it. -/
theorem unplaced_is_inside :
    ¬ ∀ (corner1 corner2 : Triple Number) (objects : List String)
        (position? : String → Option (Triple Number)),
      (∀ axis ∈ axes, (axis corner1).isFinite) → (∀ axis ∈ axes, (axis corner2).isFinite) →
      ((between corner1 corner2 .inside objects true).detects position? ↔ objects ≠ [] ∧
        ∃ name ∈ objects, ∃ p, position? name = some p ∧
          ∀ axis ∈ axes, Number.Between (axis corner1) (axis corner2) (axis p)) := by
  intro strict
  have finite : ∀ x : Number, x.isFinite → ∀ axis ∈ axes, (axis ⟨x, x, x⟩).isFinite := by
    intro x hx
    simp only [axes, List.forall_mem_cons]
    exact ⟨hx, hx, hx, List.forall_mem_nil _⟩
  have detected := (strict ⟨0, 0, 0⟩ ⟨1, 1, 1⟩ ["player"] (fun _ => some ⟨.nan, 0, 0⟩)
    (finite 0 (by decide +kernel)) (finite 1 (by decide +kernel))).1 (by decide +kernel)
  obtain ⟨-, name, -, p, place, between⟩ := detected
  cases place
  have least : Number.Between 0 1 .nan := between Triple.x List.mem_cons_self
  rcases least.1 with le | le <;> rw [Number.le_nan] at le <;> cases le

end Containment
end SceneLogic
