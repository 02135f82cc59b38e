/-
Reading written values.

Whatever is written is spelled by the rules of the grammar (`IsSpelled`): lists and objects are, if
their parts are, the latter because fields that come in canonical order are entered one behind the
other (`entered_of_ordered`).  So every value without numbers, whose objects are in canonical order,
is read back from its written form in either style (`parse_render`).
-/
import SceneLogic.Proofs.Json.Grammar
namespace SceneLogic.Json

open Json.Parser

/-! ### White space -/

theorem isBlank_newline (style : Style) (depth : Nat) : IsBlank (newline style depth) := by
  cases style with
  | compact => exact isBlank_nil
  | pretty =>
    intro c hc
    rcases List.mem_cons.1 hc with rfl | hc
    · rfl
    · rw [List.eq_of_mem_replicate hc]
      rfl

/-- A colon may have white space behind it. -/
theorem colon_eq (style : Style) : ∃ blank, colon style = ':' :: blank ∧ IsBlank blank := by
  cases style with
  | compact => exact ⟨[], rfl, isBlank_nil⟩
  | pretty => exact ⟨[' '], rfl, List.forall_mem_singleton.2 rfl⟩

/-! ### Values -/

/-- A value is written as the grammar asks for. -/
def IsSpelled (j : Json) : Prop := ∀ style depth, ∃ s, (∀ rest, write style depth j rest = s ++ rest) ∧
  Spells s j

theorem isSpelled_bool (b : Bool) : IsSpelled (bool b) := by
  intro style depth
  cases b
  · exact ⟨_, fun _ => rfl, .falseWord⟩
  · exact ⟨_, fun _ => rfl, .trueWord⟩

theorem isSpelled_text (s : String) : IsSpelled (text s) := by
  intro style depth
  obtain ⟨inner, quoted, inside⟩ := inside_quote s
  refine ⟨quote s, fun _ => rfl, ?_⟩
  have spells := Spells.text inside
  rwa [Text.ofCodes_codes, String.ofList_toList, ← quoted] at spells

/-! ### Lists -/

theorem items_written (style : Style) (depth : Nat) {x : Json} {xs : List Json}
    (parts : ∀ y ∈ x :: xs, IsSpelled y) {w w' : List Char} (blank : IsBlank w)
    (blank' : IsBlank w') :
    ∃ s, (∀ rest, w ++ write style depth x (writeItems style depth xs (w' ++ rest)) = s ++ rest) ∧
      Items s (x :: xs) := by
  induction xs generalizing x w with
  | nil =>
    obtain ⟨s, written, spells⟩ := parts x List.mem_cons_self style depth
    refine ⟨w ++ (s ++ w'), fun rest => ?_, .last (.mk blank spells blank')⟩
    rw [writeItems, written, List.append_assoc, List.append_assoc]
  | cons x' xs ih =>
    obtain ⟨one, others⟩ := List.forall_mem_cons.1 parts
    obtain ⟨s, written, spells⟩ := one style depth
    obtain ⟨t, more, items⟩ := ih others (isBlank_newline style depth)
    refine ⟨(w ++ (s ++ [])) ++ ',' :: t, fun rest => ?_, .more (.mk blank spells isBlank_nil) items⟩
    rw [writeItems, List.cons_append, more, written]
    simp

theorem isSpelled_list {items : List Json} (parts : ∀ x ∈ items, IsSpelled x) :
    IsSpelled (list items) := by
  intro style depth
  cases items with
  | nil => exact ⟨_, fun _ => rfl, .noItems isBlank_nil⟩
  | cons x xs =>
    obtain ⟨s, written, items⟩ := items_written style (depth + 1) parts
      (isBlank_newline style (depth + 1)) (isBlank_newline style depth)
    refine ⟨'[' :: (s ++ [']']), fun rest => ?_, .items items⟩
    rw [write, List.cons_append, written]
    simp

/-! ### Objects -/

/-- A field is written up to its value as the grammar asks for. -/
theorem field_written (style : Style) (k : String) {w : List Char} (blank : IsBlank w) :
    ∃ s, (∀ rest, w ++ (quote k ++ (colon style ++ rest)) = s ++ rest) ∧
      ∀ {t x}, Spells t x → ∀ {w'}, IsBlank w' → Field (s ++ (t ++ w')) (k, x) := by
  obtain ⟨inner, quoted, inside⟩ := inside_quote k
  obtain ⟨blank', mark, space⟩ := colon_eq style
  refine ⟨w ++ '"' :: (inner ++ '"' :: ':' :: blank'), fun rest => ?_, fun spells _ behind => ?_⟩
  · rw [quoted, mark]
    simp
  · have field := Field.mk blank inside isBlank_nil (.mk space spells behind)
    rw [Text.ofCodes_codes, String.ofList_toList] at field
    simpa using field

theorem fields_written (style : Style) (depth : Nat) {k : String} {x : Json}
    {xs : List (String × Json)} (parts : ∀ f ∈ (k, x) :: xs, IsSpelled f.2) {w w' : List Char}
    (blank : IsBlank w) (blank' : IsBlank w') :
    ∃ s, (∀ rest, w ++ (quote k ++ (colon style ++ write style depth x
        (writeFields style depth xs (w' ++ rest)))) = s ++ rest) ∧ Fields s ((k, x) :: xs) := by
  induction xs generalizing k x w with
  | nil =>
    obtain ⟨s, named, field⟩ := field_written style k blank
    obtain ⟨t, written, spells⟩ := parts (k, x) List.mem_cons_self style depth
    refine ⟨s ++ (t ++ w'), fun rest => ?_, .last (field spells blank')⟩
    rw [named, writeFields, written, List.append_assoc, List.append_assoc]
  | cons f xs ih =>
    obtain ⟨one, others⟩ := List.forall_mem_cons.1 parts
    obtain ⟨s, named, field⟩ := field_written style k blank
    obtain ⟨t, written, spells⟩ := one style depth
    obtain ⟨t', more, fields⟩ := ih others (isBlank_newline style depth)
    refine ⟨s ++ (t ++ []) ++ ',' :: t', fun rest => ?_, .more (field spells isBlank_nil) fields⟩
    rw [named, writeFields, written]
    simp only [List.append_assoc, List.cons_append, List.nil_append, more]

theorem isSpelled_object {fields : List (String × Json)} (ordered : Ordered fields)
    (parts : ∀ f ∈ fields, IsSpelled f.2) : IsSpelled (object fields) := by
  intro style depth
  cases fields with
  | nil => exact ⟨_, fun _ => rfl, .noFields isBlank_nil⟩
  | cons f xs =>
    obtain ⟨s, written, fields⟩ := fields_written style (depth + 1) parts
      (isBlank_newline style (depth + 1)) (isBlank_newline style depth)
    have spells := Spells.fields fields
    rw [entered_of_ordered ordered] at spells
    refine ⟨'\x7b' :: (s ++ ['\x7d']), fun rest => ?_, spells⟩
    rw [write]
    simp only [List.cons_append, List.append_assoc, written, List.nil_append]

/-! ### Whole values -/

/-- A value without numbers whose objects are in canonical order. -/
inductive Faithful : Json → Prop
  | null : Faithful null
  | bool (b : Bool) : Faithful (bool b)
  | text (s : String) : Faithful (text s)
  | list {items : List Json} : (∀ x ∈ items, Faithful x) → Faithful (list items)
  | object {fields : List (String × Json)} : Ordered fields → (∀ f ∈ fields, Faithful f.2) →
      Faithful (object fields)

theorem Faithful.isSpelled {j : Json} (h : Faithful j) : IsSpelled j := by
  induction h with
  | null => exact fun _ _ => ⟨_, fun _ => rfl, .nullWord⟩
  | bool b => exact isSpelled_bool b
  | text s => exact isSpelled_text s
  | list _ ih => exact isSpelled_list ih
  | object ordered _ ih => exact isSpelled_object ordered ih

/-- **A value is read back from its written form**, in either style. -/
theorem parse_render {j : Json} (h : Faithful j) (style : Style) : parse (j.render style) = some j := by
  obtain ⟨s, written, spells⟩ := h.isSpelled style 0
  have padded := Padded.mk isBlank_nil spells isBlank_nil
  rw [parse_eq_some_iff, render, String.toList_ofList, written]
  exact padded

end SceneLogic.Json
