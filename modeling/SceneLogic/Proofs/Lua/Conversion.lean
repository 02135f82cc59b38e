/-
What becomes of the tables that chunks return.

Entering puts a value in place of an earlier one under the same key, so no table ever has two entries
under one key (`Entries.kept_distinctKeys`).  Whatever chunks ran before, every table in the result of
a chunk, at any depth, therefore converts as its keys say (`Interpreter.tables_convert_by_keys`).
`Interpreter.list_with_gap` is a chunk whose result is not a sequence and becomes a list all the same.
-/
import Mathlib
import SceneLogic.Proofs.Lua.Memories
import SceneLogic.Proofs.Lua.Tables
namespace SceneLogic.Lua

attribute [local irreducible] quantaPerUnit quantaLimit

open Data (DistinctKeys)

/-! ### Keys are distinct -/

theorem Entries.distinctKeys_enter {es : Entries} (distinct : DistinctKeys es) (k v : Value) :
    DistinctKeys (es.enter k v) := by
  rw [enter]
  split
  · -- The value takes the place of another, and the keys stay as they are.
    have key (e : Value × Value) :
        (if e.1.sameKey k.normalKey then (e.1, v) else e).1 = e.1 := by
      split <;> rfl
    refine List.pairwise_map.2 (distinct.imp fun {a b} other => ?_)
    rw [key, key]
    exact other
  · refine List.pairwise_append.2 ⟨distinct.sublist List.filter_sublist,
      List.pairwise_singleton _ _, fun e he last hlast => ?_⟩
    obtain rfl := List.mem_singleton.1 hlast
    exact Bool.not_eq_true' _ ▸ (List.mem_filter.1 he).2

theorem Entries.kept_distinctKeys : Entries.Kept DistinctKeys where
  nil := List.Pairwise.nil
  enter v distinct _ := distinctKeys_enter distinct _ v

theorem Library.allTables_distinctKeys : Library.memory.AllTables DistinctKeys := by
  have all : ∀ es ∈ Library.memory.tables.toList, DistinctKeys es := by
    decide +kernel
  exact fun identity es found => all es (Array.mem_toList_iff.2 (Array.mem_of_getElem? found))

/-! ### Results -/

namespace Data

/-- A value is another one or is held by one of its tables, at any depth. -/
inductive Occurs (inner : Data) : Data → Prop where
  | here : Occurs inner inner
  | entry {entries : List (Value × Data)} {e : Value × Data} :
      e ∈ entries → Occurs inner e.2 → Occurs inner (table entries)

theorem Occurs.distinctKeys {m : Memory} (distinct : m.AllTables DistinctKeys) {depth : Nat}
    {v : Value} {entries : List (Value × Data)} (occurs : Occurs (table entries) (m.data depth v)) :
    DistinctKeys entries := by
  induction depth generalizing v with
  | zero =>
    -- Where the depth is used up there is no table.
    cases v <;> rw [Memory.data] at occurs <;> cases occurs
  | succ depth ih =>
    cases v with
    | table identity =>
      rw [Memory.data] at occurs
      cases occurs with
      | here =>
        -- The entries that are still there are some of those that were entered.
        refine List.pairwise_map.2 (List.Pairwise.sublist List.filter_sublist ?_)
        cases found : m.tables[identity]? with
        | none => exact List.Pairwise.nil
        | some es => exact distinct identity es found
      | entry member inside =>
        obtain ⟨e, -, rfl⟩ := List.mem_map.1 member
        exact ih inside
    | _ =>
      rw [Memory.data] at occurs
      cases occurs

end Data

namespace Interpreter

/-- Every table that a chunk gives, at any depth, converts as its keys say. -/
def ResultConverts (result : Except Fault Data) : Prop :=
  ∀ d, result = .ok d → ∀ entries, (Data.table entries).Occurs d → Data.ConvertsByKeys entries

/-- **Tables convert as their keys say**, in the result of any chunk, at any depth and whatever ran
before. -/
theorem tables_convert_by_keys (chunks : List (String × String)) (source name : String) :
    ResultConverts ((afterAll chunks).run source name).1 := by
  intro d result entries occurs
  have before := allTables_afterAll Entries.kept_distinctKeys Library.allTables_distinctKeys chunks
  obtain ⟨after, taken⟩ := allTables_run Entries.kept_distinctKeys _ before source name
  obtain ⟨v, rfl⟩ := taken d result
  exact Data.convertsByKeys (occurs.distinctKeys after)

/-! ### A list with a gap -/

/-- A number beyond all positions: two to the thirty-third. -/
def farKey : Number := .ofNat 8589934592

/-- A chunk that returns a table with an entry under two and one under the far key. -/
def gapChunk : String := "return {[2] = 1, [8589934592] = 2}"

/-- The tokens of the chunk, with a number in place of the far key. -/
def gapTokens (x : Number) : List Token :=
  [.reserved "return", .reserved "\x7b", .reserved "[", .int 2, .reserved "]", .reserved "=", .int 1,
    .reserved ",", .reserved "[", .float x, .reserved "]", .reserved "=", .int 2, .reserved "\x7d"]

/-- The statements of the chunk, with a number in place of the far key. -/
def gapBody (x : Number) : List Stmt :=
  [.returnValues [.table [.keyed (.int 2) (.int 1), .keyed (.float x) (.int 2)]]]

/-- The table that the chunk gives. -/
def gapEntries : List (Value × Data) := [(.int 2, .int 1), (.float farKey, .int 2)]

theorem parse?_gapChunk : Grammar.parse? gapChunk = some (gapBody farKey) := by
  have tokens : tokens? gapChunk = some (gapTokens farKey) := by decide +kernel
  rw [Grammar.parse?, tokens]
  generalize farKey = x
  cbv

theorem fits_gapBody (x : Number) : Limits.fits (gapBody x) := by
  cbv

theorem parse_gapChunk (name : String) : parse gapChunk name = .ok (gapBody farKey) := by
  rw [parse, parse?_gapChunk]
  exact if_pos (fits_gapBody farKey)

/-- The chunk makes a fifth table, besides those of the library. -/
theorem runAll_gapBody : ∃ m, (runAll (gapBody farKey)).run Library.memory = (.ok (.table 4), m) ∧
    m.result (.table 4) = .table gapEntries := by
  have value : ((runAll (gapBody farKey)).run Library.memory).1 = .ok (.table 4) := by
    decide +kernel
  have tables : ((runAll (gapBody farKey)).run Library.memory).2.tables.size = 4 + 1 := by
    decide +kernel
  have live : Entries.live (((runAll (gapBody farKey)).run Library.memory).2.tables[4]?.getD []) =
      [(.int 2, .int 1), (.float farKey, .int 2)] := by
    decide +kernel
  refine ⟨_, Prod.ext value rfl, ?_⟩
  rw [Memory.result, tables, Memory.data, live, gapEntries]
  simp only [List.map_cons, List.map_nil, Memory.data]

theorem position?_farKey : Data.position? (.float farKey) = some 8589934592 := by
  decide +kernel

/-- A chunk gives a table that is not a sequence, and it becomes a list: the value under the greatest
key is missing, and the first item is null. -/
theorem list_with_gap :
    ∃ entries, (start.run "return {[2] = 1, [8589934592] = 2}" "chunk").1 = .ok (.table entries) ∧
      ¬ Data.IsSequence entries ∧
      (Data.table entries).toJson = .list [.null, .number 1] := by
  refine ⟨gapEntries, ?_, ?_, ?_⟩
  · obtain ⟨m, ran, result⟩ := runAll_gapBody
    show (start.run gapChunk "chunk").1 = _
    rw [run, if_neg (by decide), parse_gapChunk, start]
    simp only [ran, result]
  · rintro ⟨-, n, keys⟩
    obtain ⟨p, pos, first⟩ := keys.positive _ List.mem_cons_self
    have one_le := Nat.le_trans pos (keys.le _ List.mem_cons_self p first)
    obtain ⟨e, he, one⟩ := keys.all 1 (Nat.le_refl 1) one_le
    -- One is neither two nor the far key.
    rcases List.mem_cons.1 he with rfl | he
    · cases one
    · obtain rfl := List.mem_singleton.1 he
      cases one.unique (Data.position?_eq_some_iff.1 position?_farKey).2
  · have listed (v w : Json) : Data.asList? [(Data.position? (.int 2), v), (some 8589934592, w)] =
        some (.list [.null, v]) := rfl
    have one : (Data.int 1).toJson = .number 1 := by
      rw [Data.toJson]
      rfl
    rw [Data.toJson_table, gapEntries]
    simp only [List.map_cons, List.map_nil, position?_farKey, listed, one, Option.getD_some]

end Interpreter

end SceneLogic.Lua
