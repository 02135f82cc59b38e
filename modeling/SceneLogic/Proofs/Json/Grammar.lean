/-
The grammar of JSON.

Words, numerals and quoted texts spell values, and so do lists of values between brackets and of
fields between braces, with white space around every value, name and mark (`Spells`, `Padded`).  The
fields of an object are entered one after the other, so that the last value of a name counts.

A reader takes a value that is spelled in at most twice as many steps as it has characters
(`Spells.reads`), and what it takes is spelled (`sound`).  So it accepts exactly the texts of the
grammar, with the values that they spell (`parse_eq_some_iff`), whose objects are in canonical order
(`Padded.canonical`).
-/
import SceneLogic.Proofs.Json.Numerals
import SceneLogic.Proofs.Json.Texts
namespace SceneLogic

/-! ### Entries entered one after the other -/

/-- Entries entered one after the other behind others. -/
def entered {α : Type _} (read entries : List (String × α)) : List (String × α) :=
  entries.foldl (fun read e => insertEntry e.1 e.2 read) read

section Entered

variable {α : Type _} {read entries : List (String × α)}

theorem mem_entered {e : String × α} (h : e ∈ entered read entries) : e ∈ read ∨ e ∈ entries := by
  induction entries generalizing read with
  | nil => exact .inl h
  | cons first entries ih =>
    rcases ih h with h | h
    · rcases mem_insertEntry h with rfl | h
      · exact .inr List.mem_cons_self
      · exact .inl h
    · exact .inr (List.mem_cons_of_mem _ h)

theorem entered_ordered (h : Ordered read) : Ordered (entered read entries) := by
  induction entries generalizing read with
  | nil => exact h
  | cons first entries ih => exact ih (insertEntry_ordered h)

/-- An entry whose name may stand behind all others is entered behind them. -/
theorem insertEntry_last {name : String} {value : α} {rest : List (String × α)}
    (h : Ordered (entries ++ (name, value) :: rest)) :
    insertEntry name value entries = entries ++ [(name, value)] := by
  induction entries with
  | nil => rfl
  | cons e entries ih =>
    obtain ⟨first, others⟩ := List.pairwise_cons.1 h
    obtain ⟨apart, after⟩ := first (name, value) (by simp)
    rw [List.cons_append, insertEntry, if_neg (Ne.symm apart), if_neg (by simp [after]), ih others]

/-- Entries that come in canonical order are entered one behind the other. -/
theorem entered_of_ordered (h : Ordered (read ++ entries)) :
    entered read entries = read ++ entries := by
  induction entries generalizing read with
  | nil => exact (List.append_nil read).symm
  | cons e entries ih =>
    have last : insertEntry e.1 e.2 read = read ++ [e] := insertEntry_last h
    have next : entered (read ++ [e]) entries = (read ++ [e]) ++ entries := ih (by simpa using h)
    rw [entered, List.foldl_cons, last]
    exact next.trans (by simp)

end Entered

namespace Json

open Json.Parser

/-! ### The grammar -/

/-- White space. -/
def IsBlank (s : List Char) : Prop := ∀ c ∈ s, isSpace c

mutual

/-- Characters spell a value. -/
inductive Spells : List Char → Json → Prop
  | nullWord : Spells "null".toList null
  | trueWord : Spells "true".toList (bool true)
  | falseWord : Spells "false".toList (bool false)
  | number {s : List Char} {x : Number} : Numeral s x → Spells s (number x)
  | text {s : List Char} {ns : List Nat} : Inside s ns →
      Spells ('"' :: (s ++ ['"'])) (text (String.ofList (Text.ofCodes ns)))
  | noItems {w : List Char} : IsBlank w → Spells ('[' :: (w ++ [']'])) (list [])
  | items {s : List Char} {xs : List Json} : Items s xs → Spells ('[' :: (s ++ [']'])) (list xs)
  | noFields {w : List Char} : IsBlank w → Spells ('\x7b' :: (w ++ ['\x7d'])) (object [])
  | fields {s : List Char} {fs : List (String × Json)} : Fields s fs →
      Spells ('\x7b' :: (s ++ ['\x7d'])) (object (entered [] fs))

/-- A value with white space around it. -/
inductive Padded : List Char → Json → Prop
  | mk {w s w' : List Char} {j : Json} : IsBlank w → Spells s j → IsBlank w' →
      Padded (w ++ (s ++ w')) j

/-- The items of a list, at least one. -/
inductive Items : List Char → List Json → Prop
  | last {s : List Char} {x : Json} : Padded s x → Items s [x]
  | more {s t : List Char} {x : Json} {xs : List Json} : Padded s x → Items t xs →
      Items (s ++ ',' :: t) (x :: xs)

/-- A field of an object: its name, a colon and its value. -/
inductive Field : List Char → String × Json → Prop
  | mk {w k w' s : List Char} {ns : List Nat} {x : Json} : IsBlank w → Inside k ns → IsBlank w' →
      Padded s x →
      Field (w ++ '"' :: (k ++ '"' :: (w' ++ ':' :: s))) (String.ofList (Text.ofCodes ns), x)

/-- The fields of an object, at least one. -/
inductive Fields : List Char → List (String × Json) → Prop
  | last {s : List Char} {f : String × Json} : Field s f → Fields s [f]
  | more {s t : List Char} {f : String × Json} {fs : List (String × Json)} : Field s f →
      Fields t fs → Fields (s ++ ',' :: t) (f :: fs)

end

variable {s t w rest : List Char} {j x : Json} {xs : List Json} {f : String × Json}
  {fs read : List (String × Json)} {n : Nat}

/-! ### White space -/

theorem isBlank_nil : IsBlank [] := List.forall_mem_nil _

theorem IsBlank.append (blank : IsBlank s) (blank' : IsBlank t) : IsBlank (s ++ t) :=
  List.forall_mem_append.2 ⟨blank, blank'⟩

theorem IsBlank.skip (blank : IsBlank w) (s : List Char) : skip (w ++ s) = skip s :=
  List.dropWhile_append_of_pos blank

theorem skip_cons {c : Char} (h : isSpace c = false) (s : List Char) : skip (c :: s) = c :: s :=
  List.dropWhile_cons_of_neg (by simp [h])

/-- What is skipped is white space. -/
theorem exists_skip (s : List Char) : ∃ w, IsBlank w ∧ s = w ++ skip s :=
  ⟨s.takeWhile isSpace, fun _ hc => List.mem_takeWhile_imp hc,
    List.takeWhile_append_dropWhile.symm⟩

/-- Reading a value begins behind white space. -/
theorem IsBlank.value? (blank : IsBlank w) (n : Nat) (s : List Char) :
    value? n (w ++ s) = value? n s := by
  cases n with
  | zero => rfl
  | succ n => rw [Parser.value?, Parser.value?, blank.skip]

theorem IsBlank.items? (blank : IsBlank w) (n : Nat) (read : List Json) (s : List Char) :
    items? n read (w ++ s) = items? n read s := by
  cases n with
  | zero => rfl
  | succ n => rw [Parser.items?, Parser.items?, blank.value?]

theorem IsBlank.fields? (blank : IsBlank w) (n : Nat) (read : List (String × Json))
    (s : List Char) : fields? n read (w ++ s) = fields? n read s := by
  cases n with
  | zero => rfl
  | succ n => rw [Parser.fields?, Parser.fields?, blank.skip]

theorem isSpace_iff {c : Char} : isSpace c ↔ c = ' ' ∨ c = '\t' ∨ c = '\n' ∨ c = '\r' := by
  simp only [isSpace, Bool.or_eq_true, beq_iff_eq, or_assoc]

/-- A numeral does not go on behind white space. -/
theorem IsBlank.stops (blank : IsBlank w) (stops : Stops continuesNumeral rest) :
    Stops continuesNumeral (w ++ rest) := by
  cases w with
  | nil => exact stops
  | cons c w =>
    refine .cons ?_ _
    rcases isSpace_iff.1 (blank c List.mem_cons_self) with rfl | rfl | rfl | rfl <;> rfl

/-! ### Beginnings -/

/-- A value begins with something else than white space or the end of a list. -/
theorem Spells.head (spells : Spells s j) :
    ∃ c s', s = c :: s' ∧ isSpace c = false ∧ c ≠ ']' := by
  cases spells with
  | nullWord | trueWord | falseWord | text | noItems | items | noFields | fields =>
    exact ⟨_, _, rfl, rfl, by decide⟩
  | number isNumeral =>
    obtain ⟨c, s', begins, first⟩ := isNumeral.head
    refine ⟨c, s', begins, ?_, ?_⟩
    · rw [Bool.eq_false_iff]
      intro space
      rcases isSpace_iff.1 space with rfl | rfl | rfl | rfl <;>
        rcases first with digit | minus <;> first | cases digit | cases minus
    · rintro rfl
      rcases first with digit | minus
      · cases digit
      · cases minus

theorem Padded.head (padded : Padded s j) :
    ∃ w c s', IsBlank w ∧ s = w ++ c :: s' ∧ isSpace c = false ∧ c ≠ ']' := by
  obtain ⟨blank, spells, -⟩ := padded
  obtain ⟨c, s', rfl, start, open_⟩ := spells.head
  exact ⟨_, c, _, blank, rfl, start, open_⟩

/-- A list with items does not begin with its end. -/
theorem Items.head (items : Items s xs) :
    ∃ w c s', IsBlank w ∧ s = w ++ c :: s' ∧ isSpace c = false ∧ c ≠ ']' := by
  cases items with
  | last padded => exact padded.head
  | more padded =>
    obtain ⟨w, c, s', blank, rfl, start, open_⟩ := padded.head
    exact ⟨w, c, _, blank, List.append_assoc .., start, open_⟩

/-- An object with fields begins with the quote of a name. -/
theorem Fields.head (fields : Fields s fs) : ∃ w s', IsBlank w ∧ s = w ++ '"' :: s' := by
  cases fields with
  | last field =>
    obtain ⟨blank, -⟩ := field
    exact ⟨_, _, blank, rfl⟩
  | more field =>
    obtain ⟨blank, -⟩ := field
    exact ⟨_, _, blank, List.append_assoc ..⟩

/-! ### Single steps of a reader -/

theorem value?_number {x : Number} (isNumeral : Numeral s x)
    (stops : Stops continuesNumeral rest) (n : Nat) :
    value? (n + 1) (s ++ rest) = some (number x, rest) := by
  have read := isNumeral.reads stops
  obtain ⟨c, s', rfl, first⟩ := isNumeral.head
  have others : ∀ c' : Char, (c'.isDigit ∨ c' = '-') = False → c ≠ c' := by
    rintro _ out rfl
    exact cast out first
  have start : isSpace c = false := by
    rw [Bool.eq_false_iff]
    intro space
    rcases isSpace_iff.1 space with same | same | same | same <;> exact others _ (by decide) same
  rw [List.cons_append] at read ⊢
  rw [value?, skip_cons start]
  -- Every other kind of value begins with a character that begins no numeral.
  split
  all_goals first
    | next same => exact absurd (List.cons.inj same).1 (others _ (by decide))
    | skip
  rw [read]
  rfl

theorem value?_noItems (blank : IsBlank w) (n : Nat) (s : List Char) :
    value? (n + 1) ('[' :: (w ++ ']' :: s)) = some (list [], s) := by
  rw [value?, skip_cons rfl]
  simp only [blank.skip, skip_cons (c := ']') rfl]

theorem value?_items {c : Char} (blank : IsBlank w) (start : isSpace c = false) (open_ : c ≠ ']')
    (n : Nat) (s : List Char) :
    value? (n + 1) ('[' :: (w ++ c :: s)) = items? n [] (w ++ c :: s) := by
  rw [blank.items?, value?, skip_cons rfl]
  simp only [blank.skip, skip_cons start]
  split
  · next same => exact absurd (List.cons.inj same).1 open_
  · rfl

theorem value?_noFields (blank : IsBlank w) (n : Nat) (s : List Char) :
    value? (n + 1) ('\x7b' :: (w ++ '\x7d' :: s)) = some (object [], s) := by
  rw [value?, skip_cons rfl]
  simp only [blank.skip, skip_cons (c := '\x7d') rfl]

theorem value?_fields (blank : IsBlank w) (n : Nat) (s : List Char) :
    value? (n + 1) ('\x7b' :: (w ++ '"' :: s)) = fields? n [] (w ++ '"' :: s) := by
  rw [blank.fields?, value?, skip_cons rfl]
  simp only [blank.skip, skip_cons (c := '"') rfl]
  rfl

/-- A reader goes on behind an item if there is a comma. -/
theorem items?_more {read : List Json} (blank : IsBlank w)
    (item : value? n s = some (x, w ++ ',' :: rest)) :
    items? (n + 1) read s = items? n (x :: read) rest := by
  rw [items?, item]
  simp only [blank.skip, skip_cons (c := ',') rfl]

theorem items?_last {read : List Json} (blank : IsBlank w)
    (item : value? n s = some (x, w ++ ']' :: rest)) :
    items? (n + 1) read s = some (list (x :: read).reverse, rest) := by
  rw [items?, item]
  simp only [blank.skip, skip_cons (c := ']') rfl]

section Fields

variable {w' k : List Char} {ns : List Nat} (blank : IsBlank w) (inside : Inside k ns)
  (blank' : IsBlank w') {w'' : List Char} (blank'' : IsBlank w'')

include blank inside blank' blank''

/-- A reader goes on behind a field if there is a comma. -/
theorem fields?_more (item : value? n s = some (x, w'' ++ ',' :: rest)) :
    fields? (n + 1) read (w ++ '"' :: (k ++ '"' :: (w' ++ ':' :: s))) =
      fields? n (insertEntry (String.ofList (Text.ofCodes ns)) x read) rest := by
  rw [fields?, blank.skip, skip_cons rfl]
  simp only [inside.text?, blank'.skip, skip_cons (c := ':') rfl, item, blank''.skip,
    skip_cons (c := ',') rfl]

theorem fields?_last (item : value? n s = some (x, w'' ++ '\x7d' :: rest)) :
    fields? (n + 1) read (w ++ '"' :: (k ++ '"' :: (w' ++ ':' :: s))) =
      some (object (insertEntry (String.ofList (Text.ofCodes ns)) x read), rest) := by
  rw [fields?, blank.skip, skip_cons rfl]
  simp only [inside.text?, blank'.skip, skip_cons (c := ':') rfl, item, blank''.skip,
    skip_cons (c := '\x7d') rfl]

end Fields

/-! ### What is spelled is read -/

/-- With some steps a reader takes whatever is spelled and is short enough. -/
structure Complete (n : Nat) : Prop where
  value : ∀ {s rest : List Char} {j : Json}, Spells s j → Stops continuesNumeral rest →
    2 * s.length ≤ n → value? n (s ++ rest) = some (j, rest)
  items : ∀ {s rest : List Char} {xs read : List Json}, Items s xs → 2 * s.length < n →
    items? n read (s ++ ']' :: rest) = some (list (read.reverse ++ xs), rest)
  fields : ∀ {s rest : List Char} {fs read : List (String × Json)}, Fields s fs →
    2 * s.length < n → fields? n read (s ++ '\x7d' :: rest) = some (object (entered read fs), rest)

/-- A value with white space around it is read up to the white space behind it. -/
theorem Complete.padded (complete : Complete n) (padded : Padded s j)
    (stops : Stops continuesNumeral rest) (steps : 2 * s.length ≤ n) :
    ∃ w, IsBlank w ∧ value? n (s ++ rest) = some (j, w ++ rest) := by
  obtain ⟨blank, spells, blank'⟩ := padded
  refine ⟨_, blank', ?_⟩
  simp only [List.length_append] at steps
  rw [List.append_assoc, List.append_assoc, blank.value?]
  exact complete.value spells (blank'.stops stops) (by omega)

theorem Complete.value_succ (complete : Complete n) (spells : Spells s j)
    (stops : Stops continuesNumeral rest) (steps : 2 * s.length ≤ n + 1) :
    value? (n + 1) (s ++ rest) = some (j, rest) := by
  cases spells with
  | nullWord | trueWord | falseWord => rfl
  | number isNumeral => exact value?_number isNumeral stops n
  | text inside =>
    rw [List.cons_append, List.append_assoc]
    show (Parser.text? (_ ++ '"' :: rest)).map _ = _
    rw [inside.text?]
    rfl
  | noItems blank =>
    rw [List.cons_append, List.append_assoc]
    exact value?_noItems blank n rest
  | items items =>
    -- The brackets are worth four steps: one is taken here and one more is needed for the items.
    simp only [List.length_cons, List.length_append] at steps
    have read : items? n [] (_ ++ ']' :: rest) = _ := complete.items items (by omega)
    obtain ⟨w, c, s', blank, rfl, start, open_⟩ := items.head
    rw [List.append_assoc, List.cons_append] at read
    rw [List.cons_append, List.append_assoc, List.append_assoc]
    exact (value?_items blank start open_ n _).trans read
  | noFields blank =>
    rw [List.cons_append, List.append_assoc]
    exact value?_noFields blank n rest
  | fields fields =>
    simp only [List.length_cons, List.length_append] at steps
    have read : fields? n [] (_ ++ '\x7d' :: rest) = _ := complete.fields fields (by omega)
    obtain ⟨w, s', blank, rfl⟩ := fields.head
    rw [List.append_assoc, List.cons_append] at read
    rw [List.cons_append, List.append_assoc, List.append_assoc]
    exact (value?_fields blank n _).trans read

theorem Complete.items_succ (complete : Complete n) {read : List Json} (items : Items s xs)
    (steps : 2 * s.length < n + 1) :
    items? (n + 1) read (s ++ ']' :: rest) = some (list (read.reverse ++ xs), rest) := by
  cases items with
  | last padded =>
    obtain ⟨w, blank, item⟩ := complete.padded padded (.cons (c := ']') rfl rest) (by omega)
    rw [items?_last blank item, List.reverse_cons]
  | more padded items =>
    rw [List.length_append, List.length_cons] at steps
    rw [List.append_assoc, List.cons_append]
    obtain ⟨w, blank, item⟩ := complete.padded padded (.cons (c := ',') rfl _) (by omega)
    rw [items?_more blank item, complete.items items (by omega), List.reverse_cons,
      List.append_assoc]
    rfl

theorem Complete.fields_succ (complete : Complete n) (fields : Fields s fs)
    (steps : 2 * s.length < n + 1) :
    fields? (n + 1) read (s ++ '\x7d' :: rest) = some (object (entered read fs), rest) := by
  cases fields with
  | last field =>
    obtain ⟨blank, inside, blank', padded⟩ := field
    simp only [List.length_append, List.length_cons] at steps
    simp only [List.append_assoc, List.cons_append]
    obtain ⟨w, blank'', item⟩ := complete.padded padded (.cons (c := '\x7d') rfl rest) (by omega)
    exact fields?_last blank inside blank' blank'' item
  | more field fields =>
    obtain ⟨blank, inside, blank', padded⟩ := field
    simp only [List.length_append, List.length_cons] at steps
    simp only [List.append_assoc, List.cons_append]
    obtain ⟨w, blank'', item⟩ := complete.padded padded (.cons (c := ',') rfl _) (by omega)
    rw [fields?_more blank inside blank' blank'' item, complete.fields fields (by omega)]
    rfl

/-- **Whatever is spelled is read**, in twice as many steps as it has characters. -/
theorem complete (n : Nat) : Complete n := by
  induction n with
  | zero =>
    refine ⟨fun spells _ steps => ?_, fun _ steps => ?_, fun _ steps => ?_⟩
    · obtain ⟨c, s', rfl, -⟩ := spells.head
      rw [List.length_cons] at steps
      omega
    · omega
    · omega
  | succ n ih => exact ⟨ih.value_succ, ih.items_succ, ih.fields_succ⟩

/-! ### What is read is spelled -/

/-- What a reader takes with some steps is spelled. -/
structure Sound (n : Nat) : Prop where
  value : ∀ {s rest : List Char} {j : Json}, value? n s = some (j, rest) →
    ∃ w t, IsBlank w ∧ s = w ++ (t ++ rest) ∧ Spells t j
  items : ∀ {s rest : List Char} {read : List Json} {j : Json}, items? n read s = some (j, rest) →
    ∃ t xs, s = t ++ ']' :: rest ∧ Items t xs ∧ j = list (read.reverse ++ xs)
  fields : ∀ {s rest : List Char} {read : List (String × Json)} {j : Json},
    fields? n read s = some (j, rest) →
      ∃ t fs, s = t ++ '\x7d' :: rest ∧ Fields t fs ∧ j = object (entered read fs)

/-- White space may come before the first item. -/
theorem Items.blank_append (items : Items s xs) (blank : IsBlank w) : Items (w ++ s) xs := by
  have padded : ∀ {s : List Char} {x : Json}, Padded s x → Padded (w ++ s) x := by
    rintro s x ⟨blank', spells, blank''⟩
    rw [← List.append_assoc]
    exact .mk (blank.append blank') spells blank''
  cases items with
  | last item => exact .last (padded item)
  | more item items =>
    rw [← List.append_assoc]
    exact .more (padded item) items

theorem Fields.blank_append (fields : Fields s fs) (blank : IsBlank w) : Fields (w ++ s) fs := by
  have field : ∀ {s : List Char} {f : String × Json}, Field s f → Field (w ++ s) f := by
    rintro s f ⟨blank', inside, blank'', padded⟩
    rw [← List.append_assoc]
    exact .mk (blank.append blank') inside blank'' padded
  cases fields with
  | last first => exact .last (field first)
  | more first fields =>
    rw [← List.append_assoc]
    exact .more (field first) fields

theorem Sound.value_succ (sound : Sound n) (read : value? (n + 1) s = some (j, rest)) :
    ∃ w t, IsBlank w ∧ s = w ++ (t ++ rest) ∧ Spells t j := by
  obtain ⟨w, blank, parts⟩ := exists_skip s
  rw [value?] at read
  suffices found : ∃ t, skip s = t ++ rest ∧ Spells t j by
    obtain ⟨t, split, spells⟩ := found
    exact ⟨w, t, blank, by rw [← split]; exact parts, spells⟩
  generalize skip s = s' at read
  -- What is read is decided by the first character that is no white space.
  split at read
  · next inner =>
    obtain ⟨w', blank', split'⟩ := exists_skip inner
    split at read
    · next rest' closed =>
      cases read
      rw [split', closed]
      exact ⟨_, by simp, .noFields blank'⟩
    · obtain ⟨t, fs, taken, fields, rfl⟩ := sound.fields read
      rw [split', taken]
      exact ⟨_, by simp, .fields (fields.blank_append blank')⟩
  · next inner =>
    obtain ⟨w', blank', split'⟩ := exists_skip inner
    split at read
    · next rest' closed =>
      cases read
      rw [split', closed]
      exact ⟨_, by simp, .noItems blank'⟩
    · obtain ⟨t, xs, taken, items, rfl⟩ := sound.items read
      rw [split', taken]
      exact ⟨_, by simp, .items (items.blank_append blank')⟩
  · next inner =>
    obtain ⟨⟨t, behind⟩, text, same⟩ := Option.map_eq_some_iff.1 read
    cases same
    obtain ⟨inner', ns, rfl, inside, rfl⟩ := Inside.of_text? text
    exact ⟨_, by simp, .text inside⟩
  · cases read
    exact ⟨"true".toList, rfl, .trueWord⟩
  · cases read
    exact ⟨"false".toList, rfl, .falseWord⟩
  · cases read
    exact ⟨"null".toList, rfl, .nullWord⟩
  · obtain ⟨⟨x, behind⟩, number, same⟩ := Option.map_eq_some_iff.1 read
    cases same
    obtain ⟨t, rfl, isNumeral⟩ := Numeral.of_number? number
    exact ⟨t, rfl, .number isNumeral⟩

/-- What stands before a mark, white space included, is a value with white space around it. -/
theorem Sound.padded (sound : Sound n) (read : value? n s = some (x, t)) :
    ∃ s', s = s' ++ skip t ∧ Padded s' x := by
  obtain ⟨w, s', blank, rfl, spells⟩ := sound.value read
  obtain ⟨w', blank', split⟩ := exists_skip t
  refine ⟨w ++ (s' ++ w'), ?_, .mk blank spells blank'⟩
  conv => lhs; rw [split]
  simp

theorem Sound.items_succ (sound : Sound n) {read : List Json}
    (taken : items? (n + 1) read s = some (j, rest)) :
    ∃ t xs, s = t ++ ']' :: rest ∧ Items t xs ∧ j = list (read.reverse ++ xs) := by
  rw [items?] at taken
  split at taken
  · cases taken
  · next x behind item =>
    obtain ⟨s', rfl, padded⟩ := sound.padded item
    split at taken
    · next rest' mark =>
      obtain ⟨t, xs, rfl, items, rfl⟩ := sound.items taken
      rw [mark]
      exact ⟨s' ++ ',' :: t, x :: xs, by simp, .more padded items, by simp⟩
    · next rest' mark =>
      cases taken
      rw [mark]
      exact ⟨s', [x], rfl, .last padded, by simp⟩
    · cases taken

theorem Sound.fields_succ (sound : Sound n)
    (taken : fields? (n + 1) read s = some (j, rest)) :
    ∃ t fs, s = t ++ '\x7d' :: rest ∧ Fields t fs ∧ j = object (entered read fs) := by
  obtain ⟨w, blank, parts⟩ := exists_skip s
  rw [fields?] at taken
  split at taken
  · next inner opened =>
    split at taken
    · cases taken
    · next k behind name =>
      obtain ⟨k', ns, rfl, inside, rfl⟩ := Inside.of_text? name
      obtain ⟨w', blank', split'⟩ := exists_skip behind
      split at taken
      · next value marked =>
        split at taken
        · cases taken
        · next x after item =>
          obtain ⟨s', rfl, padded⟩ := sound.padded item
          have field : Field (w ++ '"' :: (k' ++ '"' :: (w' ++ ':' :: s')))
              (String.ofList (Text.ofCodes ns), x) := .mk blank inside blank' padded
          rw [parts, opened, split', marked]
          split at taken
          · next rest' mark =>
            obtain ⟨t, fs, rfl, fields, rfl⟩ := sound.fields taken
            rw [mark]
            exact ⟨_ ++ ',' :: t, _ :: fs, by simp, .more field fields, rfl⟩
          · next rest' mark =>
            cases taken
            rw [mark]
            exact ⟨_, [_], by simp, .last field, rfl⟩
          · cases taken
      · cases taken
  · cases taken

/-- **Whatever is read is spelled.** -/
theorem sound (n : Nat) : Sound n := by
  induction n with
  | zero => exact ⟨nofun, nofun, nofun⟩
  | succ n ih => exact ⟨ih.value_succ, ih.items_succ, ih.fields_succ⟩

/-- **A reader accepts the texts of the grammar**, with the values that they spell. -/
theorem parse_eq_some_iff {s : String} : parse s = some j ↔ Padded s.toList j := by
  rw [parse, parseChars]
  constructor
  · intro read
    split at read
    · next x rest taken =>
      obtain ⟨s', split', padded⟩ := (sound _).padded taken
      split at read
      · next done =>
        cases read
        rw [split', done, List.append_nil]
        exact padded
      · cases read
    · cases read
  · intro padded
    have ends : Stops continuesNumeral [] := by rintro c ⟨⟩
    obtain ⟨w, blank, read⟩ := (complete (steps s.toList.length)).padded padded ends
      (by rw [steps]; omega)
    rw [List.append_nil] at read
    rw [read]
    have done : skip (w ++ []) = [] := by rw [blank.skip]; rfl
    dsimp only
    rw [if_pos done]

/-! ### The order of fields -/

/-- The fields of every object in a value are in canonical order, each name once. -/
inductive Canonical : Json → Prop
  | null : Canonical null
  | bool (b : Bool) : Canonical (bool b)
  | number (x : Number) : Canonical (number x)
  | text (s : String) : Canonical (text s)
  | list {items : List Json} : (∀ x ∈ items, Canonical x) → Canonical (list items)
  | object {fields : List (String × Json)} : Ordered fields → (∀ f ∈ fields, Canonical f.2) →
      Canonical (object fields)

theorem Canonical.of_field? (canonical : Canonical j) {name : String}
    (found : j.field? name = some x) : Canonical x := by
  cases canonical with
  | object _ parts =>
    obtain ⟨before, after, rfl, -⟩ := List.lookup_eq_some_iff.1 found
    exact parts (name, x) (by simp)
  | _ => cases found

mutual

/-- What is spelled is in canonical order. -/
theorem Spells.canonical {s : List Char} {j : Json} : Spells s j → Canonical j
  | .nullWord => .null
  | .trueWord | .falseWord => .bool _
  | .number _ => .number _
  | .text _ => .text _
  | .noItems _ => .list (List.forall_mem_nil _)
  | .items items => .list items.canonical
  | .noFields _ => .object .nil (List.forall_mem_nil _)
  | .fields fields => .object (entered_ordered .nil) fun _ hf =>
      (mem_entered hf).elim (fun h => absurd h List.not_mem_nil) (fields.canonical _)

theorem Padded.canonical {s : List Char} {j : Json} : Padded s j → Canonical j
  | .mk _ spells _ => spells.canonical

theorem Items.canonical {s : List Char} {xs : List Json} : Items s xs → ∀ x ∈ xs, Canonical x
  | .last padded => List.forall_mem_singleton.2 padded.canonical
  | .more padded items => List.forall_mem_cons.2 ⟨padded.canonical, items.canonical⟩

theorem Field.canonical {s : List Char} {f : String × Json} : Field s f → Canonical f.2
  | .mk _ _ _ padded => padded.canonical

theorem Fields.canonical {s : List Char} {fs : List (String × Json)} :
    Fields s fs → ∀ f ∈ fs, Canonical f.2
  | .last field => List.forall_mem_singleton.2 field.canonical
  | .more field fields => List.forall_mem_cons.2 ⟨field.canonical, fields.canonical⟩

end

end Json

end SceneLogic
