/-
Tables that become lists.

A table becomes a list if its keys are whole numbers from one on and the greatest of those that a
position in a list can be is the number of entries (`Data.toJson_table_list_iff`).  Distinct numbers
from one to their number are all numbers from one to it, so a table whose keys all are positions
becomes a list if and only if it is a sequence (`Data.endsAtItsCount_iff_isSequence`).  A key beyond
all positions counts as an entry but has no place: a table with such a key may become a list with
gaps, in which its value is missing.
-/
import Mathlib.Data.List.Perm.Subperm
import SceneLogic.Lua.Data
import SceneLogic.Proofs.Number.Rounding
namespace SceneLogic

attribute [local irreducible] quantaPerUnit quantaLimit

/-! ### Whole numbers -/

namespace Number

theorem quanta?_eq_map (x : Number) : x.quanta? = x.toScalar?.map Scalar.quanta := by
  cases x <;> rfl

/-- A whole number that some float is exactly is not rounded. -/
theorem rank_ofInt_of_quanta? {n : Int} {x : Number}
    (value : x.quanta? = some (n * quantaPerUnit)) :
    (ofInt n).rank = some (n * quantaPerUnit) := by
  have exact : Representable (n * quantaPerUnit : Int).natAbs := by
    cases x with
    | nan | infinity => cases value
    | negativeZero =>
      rw [← Option.some_inj.1 value]
      exact Scalar.representable_zero
    | scalar s =>
      rw [← Option.some_inj.1 value]
      exact s.representable
  rw [ofInt, ofQuanta_of_representable exact]
  rfl

end Number

/-- The units of a whole value from one on. -/
theorem Scalar.units_eq_iff (s : Scalar) (p : Nat) :
    (s.isWhole ∧ (quantaPerUnit : Int) ≤ s.quanta) ∧ s.quanta.toNat / quantaPerUnit = p ↔
      1 ≤ p ∧ s.quanta = p * quantaPerUnit := by
  have unit := quantaPerUnit_pos
  constructor
  · rintro ⟨⟨whole, large⟩, rfl⟩
    have units : s.quanta.natAbs = s.quanta.toNat := by omega
    have dvd : quantaPerUnit ∣ s.quanta.toNat := by
      rw [← units]
      exact Nat.dvd_of_mod_eq_zero (beq_iff_eq.1 whole)
    refine ⟨(Nat.le_div_iff_mul_le unit).2 (by omega), ?_⟩
    rw [← Int.natCast_mul, Nat.div_mul_cancel dvd]
    omega
  · rintro ⟨pos, value⟩
    have large : quantaPerUnit ≤ p * quantaPerUnit := Nat.le_mul_of_pos_left _ pos
    rw [← Int.natCast_mul] at value
    have whole : s.isWhole := by
      rw [isWhole, value, Int.natAbs_natCast, Nat.mul_mod_left]
      rfl
    refine ⟨⟨whole, value ▸ Int.ofNat_le.2 large⟩, ?_⟩
    rw [value, Int.toNat_natCast, Nat.mul_div_cancel _ unit]

end SceneLogic

namespace SceneLogic.Lua

attribute [local irreducible] quantaPerUnit quantaLimit

/-! ### Keys that are whole numbers -/

namespace Value

/-- The value is the whole number. -/
def IsNat : Value → Nat → Prop
  | .int n, p => n = p
  | .float x, p => x.quanta? = some (p * quantaPerUnit : Int)
  | _, _ => False

variable {k l : Value} {p q : Nat}

theorem IsNat.unique (hp : k.IsNat p) (hq : k.IsNat q) : p = q := by
  cases k with
  | int n => exact Int.ofNat_inj.1 (Eq.trans (Eq.symm hp) hq)
  | float x =>
    have same := Option.some_inj.1 (Eq.trans (Eq.symm hp) hq)
    exact Int.ofNat_inj.1 (Int.eq_of_mul_eq_mul_right natCast_quantaPerUnit_pos.ne' same)
  | nil | flag | text | table | function => cases hp

/-- Under keys that are one whole number there is one entry. -/
theorem IsNat.sameKey (hk : k.IsNat p) (hl : l.IsNat p) : k.sameKey l := by
  cases k with
  | int n =>
    cases l with
    | int m => exact beq_iff_eq.2 (Eq.trans hk (Eq.symm hl))
    | float y =>
      -- The comparison rounds the integer, which changes nothing where a float is the same number.
      obtain rfl : n = p := hk
      exact (Number.same_of_rank (Number.rank_ofInt_of_quanta? hl) (Number.rank_of_quanta? hl)).trans
        (decide_eq_true rfl)
    | nil | flag | text | table | function => cases hl
  | float x =>
    cases l with
    | int m =>
      obtain rfl : m = p := hl
      exact (Number.same_of_rank (Number.rank_of_quanta? hk) (Number.rank_ofInt_of_quanta? hk)).trans
        (decide_eq_true rfl)
    | float y =>
      exact (Number.same_of_rank (Number.rank_of_quanta? hk) (Number.rank_of_quanta? hl)).trans
        (decide_eq_true rfl)
    | nil | flag | text | table | function => cases hl
  | nil | flag | text | table | function => cases hk

end Value

namespace Data

variable {k : Value} {p : Nat}

theorem position?_eq_some_iff : position? k = some p ↔ 1 ≤ p ∧ k.IsNat p := by
  cases k with
  | int n =>
    rw [position?, Value.IsNat]
    split
    · rw [Option.some_inj]
      omega
    · refine iff_of_false nofun ?_
      omega
  | float x =>
    rw [position?, Value.IsNat, Number.quanta?_eq_map]
    cases x.toScalar? with
    | none => exact iff_of_false nofun fun h => nomatch h.2
    | some s =>
      show (if _ then some _ else none) = some p ↔ 1 ≤ p ∧ some s.quanta = some _
      rw [Option.ite_none_right_eq_some, Option.some_inj, Option.some_inj]
      exact s.units_eq_iff p
  | nil | flag | text | table | function => exact iff_of_false nofun fun h => h.2

/-! ### Numbers that are distinct -/

theorem foldl_max_eq_iff {ps : List Nat} {n : Nat} (pos : 0 < n) :
    ps.foldl max 0 = n ↔ n ∈ ps ∧ ∀ p ∈ ps, p ≤ n := by
  rw [List.foldl_max, ← List.max?_eq_some_iff]
  cases ps.max? with
  | none => exact iff_of_false (Nat.ne_of_lt pos) nofun
  | some m => rw [Option.getD_some, Nat.zero_max, Option.some_inj]

/-- Distinct numbers from one to their number are all of these. -/
theorem mem_of_distinct {ps : List Nat} (distinct : ps.Nodup)
    (bounds : ∀ p ∈ ps, 1 ≤ p ∧ p ≤ ps.length) (pos : 1 ≤ p) (le : p ≤ ps.length) : p ∈ ps := by
  have within : ps ⊆ List.range' 1 ps.length := fun q hq => by
    have := bounds q hq
    rw [List.mem_range'_1]
    omega
  -- The numbers are as many as those they are taken from, so none is left out.
  have all := (distinct.subperm within).perm_of_length_le (by rw [List.length_range'])
  rw [all.mem_iff, List.mem_range'_1]
  omega

/-- Distinct numbers that are those from one to a number are as many. -/
theorem length_of_distinct {ps : List Nat} {n : Nat} (distinct : ps.Nodup)
    (exact : ∀ p, p ∈ ps ↔ 1 ≤ p ∧ p ≤ n) : ps.length = n := by
  have all : ps.Perm (List.range' 1 n) := by
    rw [List.perm_ext_iff_of_nodup distinct (List.nodup_range' 1)]
    intro p
    rw [exact, List.mem_range'_1]
    omega
  rw [all.length_eq, List.length_range']

/-! ### Lists with items at positions -/

theorem isSome_of_mapM {α β : Type} {f : α → Option β} {xs : List α} {ys : List β}
    (h : xs.mapM f = some ys) : ∀ x ∈ xs, (f x).isSome := by
  induction xs generalizing ys with
  | nil => exact List.forall_mem_nil _
  | cons x xs ih =>
    rw [List.mapM_cons] at h
    obtain ⟨y, first, h⟩ := Option.bind_eq_some_iff.1 h
    obtain ⟨ys, others, -⟩ := Option.bind_eq_some_iff.1 h
    exact List.forall_mem_cons.2 ⟨Option.isSome_of_mem first, ih others⟩

theorem mapM_map_eq_some {α β : Type} {f : β → Option α} {g : α → β}
    (h : ∀ x, f (g x) = some x) (xs : List α) : (xs.map g).mapM f = some xs := by
  induction xs with
  | nil => rfl
  | cons x xs ih =>
    rw [List.map_cons, List.mapM_cons, h, ih]
    rfl

theorem asList?_of_none {entries : List (Option Nat × Json)} {v : Json}
    (h : (none, v) ∈ entries) : asList? entries = none := by
  rw [asList?]
  split
  · rfl
  · next stopped => cases isSome_of_mapM stopped _ h
  · next stopped => cases isSome_of_mapM stopped _ h

/-- The items at positions that a list can have. -/
def inReach (items : List (Nat × Json)) : List (Nat × Json) :=
  items.filter fun e => e.1 ≤ greatestPosition

theorem asList?_of_positions (items : List (Nat × Json)) (j : Json) :
    asList? (items.map fun e => (some e.1, e.2)) = some j ↔
      items ≠ [] ∧ ((inReach items).map Prod.fst).foldl max 0 = items.length ∧
        j = .list (itemsUpTo items.length (inReach items)) := by
  rw [asList?, mapM_map_eq_some]
  case h => exact fun e => rfl
  cases items with
  | nil => exact iff_of_false nofun fun h => h.1 rfl
  | cons e items =>
    dsimp only
    rw [List.length_map, ← inReach]
    by_cases reach : ((inReach (e :: items)).map Prod.fst).foldl max 0 = (e :: items).length
    · rw [if_pos reach, reach, Option.some_inj]
      exact ⟨fun h => ⟨List.cons_ne_nil _ _, rfl, h.symm⟩, fun h => h.2.2.symm⟩
    · rw [if_neg reach]
      exact iff_of_false nofun fun h => reach h.2.1

theorem lookup_of_mem {items : List (Nat × Json)} {v : Json}
    (distinct : (items.map Prod.fst).Nodup) (h : (p, v) ∈ items) : items.lookup p = some v := by
  obtain ⟨before, behind, rfl⟩ := List.append_of_mem h
  refine List.lookup_eq_some_iff.2 ⟨before, behind, rfl, fun e he => bne_iff_ne.2 ?_⟩
  rintro rfl
  rw [List.map_append, List.map_cons] at distinct
  exact (List.nodup_append.1 distinct).2.2 _ (List.mem_map_of_mem he) _ List.mem_cons_self rfl

theorem length_itemsUpTo (n : Nat) (items : List (Nat × Json)) :
    (itemsUpTo n items).length = n := by
  rw [itemsUpTo, List.length_map, List.length_range]

theorem getElem?_itemsUpTo {n i : Nat} (h : i < n) (items : List (Nat × Json)) :
    (itemsUpTo n items)[i]? = some ((items.lookup (i + 1)).getD .null) := by
  rw [itemsUpTo, List.getElem?_map, List.getElem?_range h]
  rfl

/-! ### Which tables become lists -/

/-- No two entries are under one key. -/
def DistinctKeys {α : Type} (entries : List (Value × α)) : Prop :=
  entries.Pairwise fun a b => a.1.sameKey b.1 = false

instance {α : Type} (entries : List (Value × α)) : Decidable (DistinctKeys entries) :=
  inferInstanceAs (Decidable (entries.Pairwise _))

/-- All keys are whole numbers from one on. -/
def Positive (entries : List (Value × Data)) : Prop := ∀ e ∈ entries, ∃ p, 1 ≤ p ∧ e.1.IsNat p

/-- The keys are the whole numbers from one to a number. -/
structure KeysUpTo (n : Nat) (entries : List (Value × Data)) : Prop where
  positive : Positive entries
  le : ∀ e ∈ entries, ∀ p, e.1.IsNat p → p ≤ n
  all : ∀ p, 1 ≤ p → p ≤ n → ∃ e ∈ entries, e.1.IsNat p

/-- There are entries, and their keys are the whole numbers from one to some number. -/
def IsSequence (entries : List (Value × Data)) : Prop :=
  entries ≠ [] ∧ ∃ n, KeysUpTo n entries

/-- The keys are whole numbers from one on, and the greatest of those that a position can be is the
number of entries. -/
structure EndsAtItsCount (entries : List (Value × Data)) : Prop where
  positive : Positive entries
  inReach : entries.length ≤ greatestPosition
  last : ∃ e ∈ entries, e.1.IsNat entries.length
  greatest : ∀ e ∈ entries, ∀ p, e.1.IsNat p → p ≤ greatestPosition → p ≤ entries.length

variable {entries : List (Value × Data)}

theorem valuesToJson_eq_map (entries : List (Value × Data)) :
    valuesToJson entries = entries.map fun e => e.2.toJson := by
  induction entries with
  | nil => rfl
  | cons e entries ih => rw [valuesToJson, ih, List.map_cons]

theorem toJson_table (entries : List (Value × Data)) :
    (table entries).toJson =
      (asList? (entries.map fun e => (position? e.1, e.2.toJson))).getD
        (asObject (entries.map fun e => (keyText e.1, e.2.toJson))) := by
  rw [toJson, valuesToJson_eq_map, List.map_map, List.map_map, List.zip_map', List.zip_map']
  rfl

/-- The position of a key, zero if it has none. -/
def place (k : Value) : Nat := (position? k).getD 0

/-- The positions of the keys of a table. -/
def places (entries : List (Value × Data)) : List Nat := entries.map fun e => place e.1

/-- The values of a table with their positions. -/
def items (entries : List (Value × Data)) : List (Nat × Json) :=
  entries.map fun e => (place e.1, e.2.toJson)

theorem place_of_isNat (pos : 1 ≤ p) (h : k.IsNat p) : place k = p := by
  rw [place, position?_eq_some_iff.2 ⟨pos, h⟩, Option.getD_some]

theorem length_places (entries : List (Value × Data)) : (places entries).length = entries.length :=
  List.length_map _

theorem length_items (entries : List (Value × Data)) : (items entries).length = entries.length :=
  List.length_map _

theorem map_fst_inReach_items (entries : List (Value × Data)) :
    (inReach (items entries)).map Prod.fst =
      (places entries).filter fun p => p ≤ greatestPosition := by
  rw [inReach, items, places, List.filter_map, List.filter_map, List.map_map]
  rfl

theorem mem_places (positive : Positive entries) :
    p ∈ places entries ↔ 1 ≤ p ∧ ∃ e ∈ entries, e.1.IsNat p := by
  rw [places, List.mem_map]
  constructor
  · rintro ⟨e, he, rfl⟩
    obtain ⟨p, pos, h⟩ := positive e he
    rw [place_of_isNat pos h]
    exact ⟨pos, e, he, h⟩
  · rintro ⟨pos, e, he, h⟩
    exact ⟨e, he, place_of_isNat pos h⟩

theorem nodup_places (distinct : DistinctKeys entries) (positive : Positive entries) :
    (places entries).Nodup := by
  refine List.pairwise_map.2 (distinct.imp_of_mem fun {a b} ha hb other same => ?_)
  obtain ⟨p, pos, hp⟩ := positive a ha
  obtain ⟨q, pos', hq⟩ := positive b hb
  rw [place_of_isNat pos hp, place_of_isNat pos' hq] at same
  subst same
  rw [hp.sameKey hq] at other
  cases other

theorem exists_list_of_asList? {entries : List (Option Nat × Json)} {j : Json}
    (h : asList? entries = some j) : ∃ values, j = .list values := by
  unfold asList? at h
  split at h
  · cases h
  · cases h
  · dsimp only at h
    split at h
    · exact ⟨_, (Option.some_inj.1 h).symm⟩
    · cases h

/-- A table becomes a list by its positions, or else an object. -/
theorem toJson_table_eq_list_iff {values : List Json} :
    (table entries).toJson = .list values ↔
      asList? (entries.map fun e => (position? e.1, e.2.toJson)) = some (.list values) := by
  rw [toJson_table]
  cases asList? (entries.map fun e => (position? e.1, e.2.toJson)) with
  | none => exact iff_of_false nofun nofun
  | some j => rw [Option.getD_some, Option.some_inj]

theorem map_position?_of_positive (positive : Positive entries) :
    (entries.map fun e => (position? e.1, e.2.toJson)) =
      (items entries).map fun e => (some e.1, e.2) := by
  rw [items, List.map_map]
  refine List.map_congr_left fun e he => ?_
  obtain ⟨p, pos, h⟩ := positive e he
  rw [position?_eq_some_iff.2 ⟨pos, h⟩, Function.comp_apply, place_of_isNat pos h]

theorem mem_inReach_items (positive : Positive entries) :
    p ∈ (inReach (items entries)).map Prod.fst ↔
      (1 ≤ p ∧ ∃ e ∈ entries, e.1.IsNat p) ∧ p ≤ greatestPosition := by
  rw [map_fst_inReach_items, List.mem_filter, mem_places positive, decide_eq_true_iff]

/-- **Which tables become lists, and which lists they become.** -/
theorem toJson_table_list_iff {values : List Json} :
    (table entries).toJson = .list values ↔
      EndsAtItsCount entries ∧ values = itemsUpTo entries.length (inReach (items entries)) := by
  rw [toJson_table_eq_list_iff]
  by_cases positive : Positive entries
  · rw [map_position?_of_positive positive, asList?_of_positions, length_items, Json.list.injEq]
    constructor
    · -- The greatest position in reach is that of some entry, and no other one in reach is greater.
      rintro ⟨occupied, reach, same⟩
      have pos : 0 < entries.length := by
        rw [← length_items]
        exact List.length_pos_iff.2 occupied
      obtain ⟨last, greatest⟩ := (foldl_max_eq_iff pos).1 reach
      obtain ⟨⟨-, last⟩, small⟩ := (mem_inReach_items positive).1 last
      refine ⟨⟨positive, small, last, fun e he p h within => ?_⟩, same⟩
      obtain ⟨q, from_one, hq⟩ := positive e he
      obtain rfl := hq.unique h
      exact greatest _ ((mem_inReach_items positive).2 ⟨⟨from_one, e, he, h⟩, within⟩)
    · rintro ⟨ends, same⟩
      obtain ⟨e, he, -⟩ := ends.last
      have pos : 0 < entries.length := List.length_pos_of_mem he
      refine ⟨?_, (foldl_max_eq_iff pos).2 ⟨?_, fun p hp => ?_⟩, same⟩
      · rw [← List.length_pos_iff, length_items]
        exact pos
      · exact (mem_inReach_items positive).2 ⟨⟨pos, ends.last⟩, ends.inReach⟩
      · obtain ⟨⟨-, e, he, h⟩, small⟩ := (mem_inReach_items positive).1 hp
        exact ends.greatest e he p h small
  · -- A key without a position rules a list out at once.
    refine iff_of_false ?_ fun h => positive h.1.positive
    obtain ⟨e, odd⟩ := not_forall.1 positive
    obtain ⟨he, odd⟩ := Classical.not_imp.1 odd
    have nowhere : position? e.1 = none :=
      Option.eq_none_iff_forall_ne_some.2 fun p h => odd ⟨p, position?_eq_some_iff.1 h⟩
    have stops : (none, e.2.toJson) ∈ entries.map fun e => (position? e.1, e.2.toJson) :=
      List.mem_map.2 ⟨e, he, by rw [nowhere]⟩
    rw [asList?_of_none stops]
    nofun

/-! ### Sequences -/

/-- Keys that are the whole numbers from one to a number are as many. -/
theorem KeysUpTo.length_eq (distinct : DistinctKeys entries) {n : Nat} (keys : KeysUpTo n entries) :
    entries.length = n := by
  rw [← length_places]
  refine length_of_distinct (nodup_places distinct keys.positive) fun p => ?_
  rw [mem_places keys.positive]
  exact and_congr_right fun pos => ⟨fun ⟨e, he, h⟩ => keys.le e he p h, keys.all p pos⟩

/-- **The pigeonhole principle**: if all keys are positions that a list can have, the greatest is the
number of entries just in case the keys are all numbers up to it. -/
theorem endsAtItsCount_iff_isSequence (distinct : DistinctKeys entries)
    (near : ∀ e ∈ entries, ∀ p, e.1.IsNat p → p ≤ greatestPosition) :
    EndsAtItsCount entries ↔ IsSequence entries := by
  constructor
  · intro ends
    have le : ∀ e ∈ entries, ∀ p, e.1.IsNat p → p ≤ entries.length := fun e he p h =>
      ends.greatest e he p h (near e he p h)
    refine ⟨?_, entries.length, ends.positive, le, fun p pos small => ?_⟩
    · rintro rfl
      obtain ⟨e, he, -⟩ := ends.last
      cases he
    · have bounds : ∀ q ∈ places entries, 1 ≤ q ∧ q ≤ (places entries).length := fun q hq => by
        obtain ⟨from_one, e, he, h⟩ := (mem_places ends.positive).1 hq
        rw [length_places]
        exact ⟨from_one, le e he q h⟩
      rw [← length_places] at small
      have there := mem_of_distinct (nodup_places distinct ends.positive) bounds pos small
      exact ((mem_places ends.positive).1 there).2
  · rintro ⟨occupied, n, keys⟩
    obtain rfl := keys.length_eq distinct
    obtain ⟨e, he, last⟩ := keys.all _ (List.length_pos_iff.2 occupied) (Nat.le_refl _)
    exact ⟨keys.positive, near e he _ last, ⟨e, he, last⟩, fun e he p h _ => keys.le e he p h⟩

/-- The item at a position is the value under it, or null if there is none. -/
theorem getElem?_items (distinct : DistinctKeys entries) (ends : EndsAtItsCount entries) {i : Nat}
    (h : i < entries.length) :
    (∀ e ∈ entries, e.1.IsNat (i + 1) →
      (itemsUpTo entries.length (inReach (items entries)))[i]? = some e.2.toJson) ∧
    ((∀ e ∈ entries, ¬ e.1.IsNat (i + 1)) →
      (itemsUpTo entries.length (inReach (items entries)))[i]? = some .null) := by
  have nodup : ((inReach (items entries)).map Prod.fst).Nodup := by
    rw [map_fst_inReach_items]
    exact (nodup_places distinct ends.positive).filter _
  rw [getElem?_itemsUpTo h]
  refine ⟨fun e he key => ?_, fun gap => ?_⟩
  · have placed := place_of_isNat (Nat.le_add_left 1 i) key
    have found : (i + 1, e.2.toJson) ∈ inReach (items entries) := by
      refine List.mem_filter.2 ⟨List.mem_map.2 ⟨e, he, by rw [placed]⟩, decide_eq_true ?_⟩
      exact Nat.le_trans h ends.inReach
    rw [lookup_of_mem nodup found, Option.getD_some]
  · have absent : (inReach (items entries)).lookup (i + 1) = none := by
      refine List.lookup_eq_none_iff.2 fun item found => bne_iff_ne.2 ?_
      intro key
      have there : i + 1 ∈ (inReach (items entries)).map Prod.fst :=
        key ▸ List.mem_map_of_mem found
      obtain ⟨⟨-, e, he, h⟩, -⟩ := (mem_inReach_items ends.positive).1 there
      exact gap e he h
    rw [absent, Option.getD_none]

/-! ### The law of conversion -/

/-- Values are those of a table, each at the place of its key. -/
def InKeyOrder (entries : List (Value × Data)) (values : List Json) : Prop :=
  values.length = entries.length ∧
    ∀ e ∈ entries, ∃ i, e.1.IsNat (i + 1) ∧ values[i]? = some e.2.toJson

/-- A table becomes a list or an object as its keys say. -/
structure ConvertsByKeys (entries : List (Value × Data)) : Prop where
  /-- Unless a key is a number beyond all positions, it becomes a list just in case it is a sequence. -/
  list_iff_sequence : (∀ e ∈ entries, ∀ p, e.1.IsNat p → p ≤ greatestPosition) →
    ((∃ values, (table entries).toJson = .list values) ↔ IsSequence entries)
  /-- The list that a sequence becomes has its values in the order of their keys. -/
  in_order : IsSequence entries → ∀ values, (table entries).toJson = .list values →
    InKeyOrder entries values
  /-- Whatever the keys are, it becomes a list just in case they end at their count. -/
  list_iff_ends : (∃ values, (table entries).toJson = .list values) ↔ EndsAtItsCount entries
  /-- The list has null at the positions that are no keys. -/
  gaps : ∀ values, (table entries).toJson = .list values → values.length = entries.length ∧
    ∀ i < values.length,
      (∃ e ∈ entries, e.1.IsNat (i + 1) ∧ values[i]? = some e.2.toJson) ∨
        (∀ e ∈ entries, ¬ e.1.IsNat (i + 1)) ∧ values[i]? = some .null
  /-- Any other table becomes an object. -/
  object : (¬ ∃ values, (table entries).toJson = .list values) →
    ∃ fields, (table entries).toJson = .object fields

theorem exists_list_iff :
    (∃ values, (table entries).toJson = .list values) ↔ EndsAtItsCount entries :=
  ⟨fun ⟨_, h⟩ => (toJson_table_list_iff.1 h).1, fun ends => ⟨_, toJson_table_list_iff.2 ⟨ends, rfl⟩⟩⟩

/-- **Tables with distinct keys convert as their keys say.** -/
theorem convertsByKeys (distinct : DistinctKeys entries) : ConvertsByKeys entries where
  list_iff_sequence near := exists_list_iff.trans (endsAtItsCount_iff_isSequence distinct near)
  in_order := by
    rintro ⟨-, n, keys⟩ values becomes
    obtain ⟨ends, rfl⟩ := toJson_table_list_iff.1 becomes
    obtain rfl := keys.length_eq distinct
    refine ⟨length_itemsUpTo _ _, fun e he => ?_⟩
    obtain ⟨p, pos, h⟩ := keys.positive e he
    obtain ⟨i, rfl⟩ := Nat.exists_eq_add_of_le' pos
    exact ⟨i, h, (getElem?_items distinct ends (keys.le e he _ h)).1 e he h⟩
  list_iff_ends := exists_list_iff
  gaps := by
    intro values becomes
    obtain ⟨ends, rfl⟩ := toJson_table_list_iff.1 becomes
    rw [length_itemsUpTo]
    refine ⟨rfl, fun i h => ?_⟩
    obtain ⟨there, missing⟩ := getElem?_items distinct ends h
    by_cases key : ∃ e ∈ entries, e.1.IsNat (i + 1)
    · obtain ⟨e, he, key⟩ := key
      exact .inl ⟨e, he, key, there e he key⟩
    · have absent : ∀ e ∈ entries, ¬ e.1.IsNat (i + 1) := fun e he h => key ⟨e, he, h⟩
      exact .inr ⟨absent, missing absent⟩
  object other := by
    rw [toJson_table]
    cases listed : asList? (entries.map fun e => (position? e.1, e.2.toJson)) with
    | none => exact ⟨_, rfl⟩
    | some j =>
      obtain ⟨values, rfl⟩ := exists_list_of_asList? listed
      exact absurd ⟨values, toJson_table_eq_list_iff.2 listed⟩ other

end Data

end SceneLogic.Lua
