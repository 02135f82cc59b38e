/-
Tables: values under names, in a canonical order.

A `Table` holds at most one value under each name.  Names that are indices, that is decimal
numerals from 0 to 4294967294 without superfluous zeros, come first and in numeric order; all
other names follow in the order in which they were first entered.  `Table.ordered` is this
invariant, and `insertEntry_ordered` says that entering a value keeps it.
-/
namespace SceneLogic

/-! ### The order of names -/

namespace Key

/-- The greatest index. -/
def greatestIndex : Nat := 4294967294

/-- The index a name spells, if it is one. -/
def index? (name : String) : Option Nat :=
  let n := Nat.ofDigitChars 10 name.toList 0
  if Nat.toDigits 10 n = name.toList ∧ n ≤ greatestIndex then some n else none

/-- The first name has its place before the second whenever it is entered. -/
def precedes (a b : String) : Bool :=
  match index? a, index? b with
  | some i, some j => decide (i < j)
  | some _, none => true
  | none, _ => false

/-- The first name may stand anywhere before the second. -/
def Before (a b : String) : Prop := a ≠ b ∧ precedes b a = false

theorem precedes_trans {a b c : String} (h : precedes a b) (h' : precedes b c) : precedes a c := by
  unfold precedes at *
  split at h <;> split at h' <;> simp_all
  omega

end Key

/-! ### Lists of entries -/

/-- Entries without a repeated name, in canonical order. -/
def Ordered {α : Type _} (entries : List (String × α)) : Prop :=
  entries.Pairwise fun a b => Key.Before a.1 b.1

/-- Puts a value under a name: in place of an earlier value, else where the order asks for it. -/
def insertEntry {α : Type _} (name : String) (value : α) : List (String × α) → List (String × α)
  | [] => [(name, value)]
  | (k, v) :: rest =>
    if name = k then (name, value) :: rest
    else if Key.precedes name k then (name, value) :: (k, v) :: rest
    else (k, v) :: insertEntry name value rest

/-- Entering a value adds no other name. -/
theorem mem_insertEntry {α : Type _} {name : String} {value : α} {entries : List (String × α)}
    {e : String × α} (h : e ∈ insertEntry name value entries) :
    e = (name, value) ∨ e ∈ entries := by
  induction entries with
  | nil => simpa [insertEntry] using h
  | cons head rest ih =>
    obtain ⟨k, v⟩ := head
    unfold insertEntry at h
    split at h
    · rcases List.mem_cons.1 h with h | h
      · exact .inl h
      · exact .inr (List.mem_cons_of_mem _ h)
    · split at h
      · simpa using h
      · rcases List.mem_cons.1 h with h | h
        · exact .inr (h ▸ List.mem_cons_self)
        · exact (ih h).imp_right (List.mem_cons_of_mem _)

/-- Entering a value keeps the canonical order. -/
theorem insertEntry_ordered {α : Type _} {name : String} {value : α}
    {entries : List (String × α)} (h : Ordered entries) :
    Ordered (insertEntry name value entries) := by
  induction entries with
  | nil => simp [insertEntry, Ordered]
  | cons head rest ih =>
    obtain ⟨k, v⟩ := head
    obtain ⟨first, others⟩ := List.pairwise_cons.1 h
    unfold insertEntry
    split
    case isTrue same => exact List.pairwise_cons.2 ⟨same ▸ first, others⟩
    case isFalse different =>
      split
      case isTrue before =>
        refine List.pairwise_cons.2 ⟨fun e he => ?_, h⟩
        rcases List.mem_cons.1 he with rfl | he
        · refine ⟨different, Bool.eq_false_iff.2 fun after => ?_⟩
          have circle := Key.precedes_trans before after
          unfold Key.precedes at circle
          split at circle <;> simp_all
        · obtain ⟨_, notBefore⟩ := first e he
          refine ⟨fun eq => ?_, Bool.eq_false_iff.2 fun after => ?_⟩
          · simp [← eq, before] at notBefore
          · simp [Key.precedes_trans after before] at notBefore
      case isFalse notBefore =>
        refine List.pairwise_cons.2 ⟨fun e he => ?_, ih others⟩
        rcases mem_insertEntry he with rfl | he
        · exact ⟨fun eq => different eq.symm, by simpa using notBefore⟩
        · exact first e he

/-- Looking up goes through the entries from the front. -/
theorem lookup_cons_eq {α : Type _} (other k : String) (v : α) (rest : List (String × α)) :
    ((k, v) :: rest).lookup other = if other = k then some v else rest.lookup other := by
  by_cases h : other = k
  · simp [h]
  · simp [List.lookup_cons, beq_false_of_ne h, h]

/-- Looking up after entering a value. -/
theorem lookup_insertEntry {α : Type _} (name : String) (value : α) (other : String)
    (entries : List (String × α)) :
    (insertEntry name value entries).lookup other =
      if other = name then some value else entries.lookup other := by
  induction entries with
  | nil => simp [insertEntry, lookup_cons_eq]
  | cons head rest ih =>
    obtain ⟨k, v⟩ := head
    unfold insertEntry
    split
    case isTrue same => by_cases h : other = name <;> simp [lookup_cons_eq, h, ← same]
    case isFalse different =>
      split
      case isTrue => rw [lookup_cons_eq]
      case isFalse =>
        rw [lookup_cons_eq, lookup_cons_eq, ih]
        by_cases h : other = k
        · simp [h, Ne.symm different]
        · simp [h]

/-- Looking up after taking a value out. -/
theorem lookup_without {α : Type _} (name other : String) (entries : List (String × α)) :
    (entries.filter fun e => e.1 ≠ name).lookup other =
      if other = name then none else entries.lookup other := by
  induction entries with
  | nil => simp only [List.filter_nil, List.lookup_nil, ite_self]
  | cons head rest ih =>
    obtain ⟨k, v⟩ := head
    by_cases hk : k = name
    · rw [List.filter_cons_of_neg (by simp [hk]), ih, lookup_cons_eq]
      by_cases ho : other = name
      · simp [ho]
      · simp [ho, hk]
    · rw [List.filter_cons_of_pos (by simp [hk]), lookup_cons_eq, lookup_cons_eq, ih]
      by_cases ho : other = name
      · simp [ho, Ne.symm hk]
      · simp [ho]

/-! ### Tables -/

/-- Values under names, in canonical order. -/
structure Table (α : Type) where
  entries : List (String × α)
  ordered : Ordered entries
deriving DecidableEq

namespace Table

variable {α : Type}

/-- The table without entries. -/
def empty : Table α := ⟨[], List.Pairwise.nil⟩

instance : Inhabited (Table α) := ⟨empty⟩
instance : EmptyCollection (Table α) := ⟨empty⟩

/-- The value under a name. -/
def get? (t : Table α) (name : String) : Option α := t.entries.lookup name

/-- There is a value under the name. -/
def contains (t : Table α) (name : String) : Bool := (t.get? name).isSome

/-- The names, in order. -/
def keys (t : Table α) : List String := t.entries.map Prod.fst

/-- The table with a value under a name. -/
def insert (t : Table α) (name : String) (value : α) : Table α :=
  ⟨insertEntry name value t.entries, insertEntry_ordered t.ordered⟩

/-- The table without the value under a name. -/
def erase (t : Table α) (name : String) : Table α :=
  ⟨t.entries.filter (fun e => e.1 ≠ name), t.ordered.filter _⟩

/-- Enters the values of a list one after the other; of several under one name the last stays. -/
def ofList (entries : List (String × α)) : Table α :=
  entries.foldl (fun t e => t.insert e.1 e.2) empty

@[simp] theorem get?_empty (name : String) : (empty : Table α).get? name = none := rfl

/-- Looking up after entering a value. -/
theorem get?_insert (t : Table α) (name : String) (value : α) (other : String) :
    (t.insert name value).get? other = if other = name then some value else t.get? other :=
  lookup_insertEntry name value other t.entries

@[simp] theorem get?_insert_self (t : Table α) (name : String) (value : α) :
    (t.insert name value).get? name = some value := by
  simp [get?_insert]

/-- Looking up after taking a value out. -/
theorem get?_erase (t : Table α) (name other : String) :
    (t.erase name).get? other = if other = name then none else t.get? other :=
  lookup_without name other t.entries

end Table

end SceneLogic
