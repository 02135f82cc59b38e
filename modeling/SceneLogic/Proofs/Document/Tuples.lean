/-
Which texts read as a tuple.

A text has one list of parts between its commas (`commaParts_iff`), and what is dropped from the text
is dropped from its parts (`splitOn_filter`).  So a tuple is read part by part, each from what is left
of it without parentheses and white space (`tuples_are_squeezed`).  Where a text has no parentheses,
a part reads as it does without the white space around it, unless there is white space inside: then
the characters on both sides of it are joined to one number (`split_number_joined`).
-/
import SceneLogic.Proofs.Document.Parts
import SceneLogic.Proofs.Number.Characters
namespace SceneLogic

/-! ### Parts between separators -/

section Parts

variable {separator c : Char} {cs : List Char}

/-- A character that does not separate belongs to the first part. -/
theorem exists_splitOn_cons (ne : c ≠ separator) (cs : List Char) :
    ∃ part parts, splitOn separator cs = part :: parts ∧
      splitOn separator (c :: cs) = (c :: part) :: parts := by
  cases split : splitOn separator cs with
  | nil =>
    rw [splitOn_eq] at split
    exact absurd split (List.splitOn_ne_nil _ _)
  | cons part parts => exact ⟨part, parts, rfl, by rw [splitOn, if_neg ne, split]⟩

theorem separator_notMem_splitOn : ∀ part ∈ splitOn separator cs, separator ∉ part := by
  induction cs with
  | nil => simp [splitOn]
  | cons c cs ih =>
    by_cases separates : c = separator
    · rw [splitOn, if_pos separates]
      exact List.forall_mem_cons.2 ⟨List.not_mem_nil, ih⟩
    · obtain ⟨part, parts, split, longer⟩ := exists_splitOn_cons separates cs
      rw [split] at ih
      rw [longer]
      obtain ⟨first, others⟩ := List.forall_mem_cons.1 ih
      exact List.forall_mem_cons.2 ⟨by simp [Ne.symm separates, first], others⟩

theorem mem_of_mem_splitOn : ∀ part ∈ splitOn separator cs, ∀ d ∈ part, d ∈ cs := by
  induction cs with
  | nil => simp [splitOn]
  | cons c cs ih =>
    have later : ∀ part ∈ splitOn separator cs, ∀ d ∈ part, d ∈ c :: cs :=
      fun part mem d inside => List.mem_cons_of_mem _ (ih part mem d inside)
    by_cases separates : c = separator
    · rw [splitOn, if_pos separates]
      exact List.forall_mem_cons.2 ⟨List.forall_mem_nil _, later⟩
    · obtain ⟨part, parts, split, longer⟩ := exists_splitOn_cons separates cs
      rw [split] at later
      rw [longer]
      obtain ⟨first, others⟩ := List.forall_mem_cons.1 later
      exact List.forall_mem_cons.2
        ⟨List.forall_mem_cons.2 ⟨List.mem_cons_self, first⟩, others⟩

/-- What is dropped from a text is dropped from its parts, if the separators are kept. -/
theorem splitOn_filter {keep : Char → Bool} (kept : keep separator) (cs : List Char) :
    splitOn separator (cs.filter keep) = (splitOn separator cs).map (List.filter keep) := by
  induction cs with
  | nil => rfl
  | cons c cs ih =>
    by_cases separates : c = separator
    · rw [List.filter_cons_of_pos (separates ▸ kept), splitOn, if_pos separates, splitOn,
        if_pos separates, ih]
      rfl
    · obtain ⟨part, parts, split, longer⟩ := exists_splitOn_cons separates cs
      rw [longer, List.map_cons]
      rw [split, List.map_cons] at ih
      by_cases dropped : keep c
      · rw [List.filter_cons_of_pos dropped, List.filter_cons_of_pos dropped, splitOn,
          if_neg separates, ih]
      · rw [List.filter_cons_of_neg dropped, List.filter_cons_of_neg dropped, ih]

end Parts

/-- The texts without a comma that make up a text if they are joined by commas. -/
structure CommaParts (text : String) (parts : List (List Char)) : Prop where
  joined : [','].intercalate parts = text.toList
  plain : ∀ part ∈ parts, ',' ∉ part
  nonempty : parts ≠ []

theorem commaParts_iff {text : String} {parts : List (List Char)} :
    CommaParts text parts ↔ parts = splitOn ',' text.toList := by
  constructor
  · rintro ⟨joined, plain, nonempty⟩
    rw [← joined, splitOn_eq, List.splitOn_intercalate _ plain nonempty]
  · rintro rfl
    refine ⟨?_, separator_notMem_splitOn, ?_⟩
    · rw [splitOn_eq, List.intercalate_splitOn]
    · rw [splitOn_eq]
      exact List.splitOn_ne_nil _ _

/-! ### What is left of a part -/

/-- A part without parentheses and white space. -/
def squeezed (part : List Char) : List Char := part.filter fun c => !isTupleFiller c

theorem tupleParts_eq {text : String} {parts : List (List Char)} (split : CommaParts text parts) :
    tupleParts text = parts.map squeezed := by
  rw [commaParts_iff.1 split, tupleParts, splitOn_filter (by decide)]
  rfl

/-- Where neither parentheses nor white space are inside, only the ends are cut. -/
theorem squeezed_eq_trimChars {part : List Char} (bare : ∀ c ∈ part, c ≠ '(' ∧ c ≠ ')')
    (whole : ∀ c ∈ Text.trimChars part, ¬ Text.isBlankChar c) :
    squeezed part = Text.trimChars part := by
  obtain ⟨front, back, cut, blank_front, blank_back⟩ := Text.exists_trimChars part
  have dropped {s : List Char} (blank : ∀ c ∈ s, Text.isBlankChar c) :
      s.filter (fun c => !isTupleFiller c) = [] :=
    List.filter_eq_nil_iff.2 fun c mem => by simp [isTupleFiller, blank c mem]
  have kept : (Text.trimChars part).filter (fun c => !isTupleFiller c) = Text.trimChars part := by
    refine List.filter_eq_self.2 fun c mem => ?_
    have inside : c ∈ part := by
      rw [cut]
      exact List.mem_append_left _ (List.mem_append_right _ mem)
    simp [isTupleFiller, bare c inside, whole c mem]
  calc squeezed part = squeezed (front ++ Text.trimChars part ++ back) := congrArg squeezed cut
    _ = Text.trimChars part := by
      rw [squeezed, List.filter_append, List.filter_append, dropped blank_front,
        dropped blank_back, kept, List.nil_append, List.append_nil]

/-- Parentheses around a text are dropped. -/
theorem tupleParts_bracketed (text : String) : tupleParts ("(" ++ text ++ ")") = tupleParts text := by
  rw [tupleParts, tupleParts, String.toList_append, String.toList_append, List.filter_append,
    List.filter_append]
  have left : "(".toList.filter (fun c => !isTupleFiller c) = [] := by decide
  have right : ")".toList.filter (fun c => !isTupleFiller c) = [] := by decide
  rw [left, right, List.nil_append, List.append_nil]

/-! ### Reading -/

/-- A part with something left of it reads as a finite number. -/
def ReadsAs (part : List Char) (value : Number) : Prop :=
  squeezed part ≠ [] ∧ Number.readChars (squeezed part) = value ∧ value.isFinite

theorem readTuple_eq_ok_iff {label text : String} {count : Number} {values : List Number} :
    readTuple label count text = .ok values ↔
      Number.ofNat (tupleParts text).length = count ∧ [] ∉ tupleParts text ∧
        (∀ x ∈ values, x.isFinite) ∧ values = (tupleParts text).map Number.readChars := by
  rw [readTuple]
  split
  · next refused =>
    refine iff_of_false (by simp) ?_
    rintro ⟨counted, full, finite, rfl⟩
    rcases refused with other | empty | infinite
    · exact other counted
    · exact full empty
    · exact infinite (List.all_eq_true.2 finite)
  · next accepted =>
    simp only [not_or, not_not] at accepted
    obtain ⟨counted, full, finite⟩ := accepted
    constructor
    · rintro ⟨⟩
      exact ⟨counted, full, List.all_eq_true.1 finite, rfl⟩
    · rintro ⟨-, -, -, rfl⟩
      rfl

theorem readTuple_of_ne_ok {label text : String} {count : Number}
    (refused : ∀ values, readTuple label count text ≠ .ok values) :
    readTuple label count text = .error (.notTuple label count text) := by
  rw [readTuple] at refused ⊢
  split
  · rfl
  · next accepted => exact absurd (if_neg accepted) (refused _)

theorem forall₂_readsAs_iff {parts : List (List Char)} {values : List Number} :
    List.Forall₂ ReadsAs parts values ↔ [] ∉ parts.map squeezed ∧ (∀ x ∈ values, x.isFinite) ∧
      values = (parts.map squeezed).map Number.readChars := by
  constructor
  · intro read
    induction read with
    | nil => simp
    | cons first _ ih =>
      obtain ⟨some, rfl, finite⟩ := first
      obtain ⟨full, others, rfl⟩ := ih
      refine ⟨?_, List.forall_mem_cons.2 ⟨finite, others⟩, rfl⟩
      rw [List.map_cons, List.mem_cons, not_or]
      exact ⟨Ne.symm some, full⟩
  · rintro ⟨full, finite, rfl⟩
    induction parts with
    | nil => exact .nil
    | cons part parts ih =>
      rw [List.map_cons, List.mem_cons, not_or] at full
      rw [List.map_cons, List.map_cons] at finite
      obtain ⟨first, others⟩ := List.forall_mem_cons.1 finite
      exact .cons ⟨Ne.symm full.1, rfl, first⟩ (ih full.2 others)

/-- A finite number is read from the whole part exactly if that is in one piece. -/
theorem ReadsAs.trimChars_iff {part : List Char} {value : Number} (read : ReadsAs part value)
    (bare : ∀ c ∈ part, c ≠ '(' ∧ c ≠ ')') :
    Number.readChars (Text.trimChars part) = value ↔
      ∀ c ∈ Text.trimChars part, ¬ Text.isBlankChar c := by
  obtain ⟨-, rfl, finite⟩ := read
  constructor
  · intro same
    have number : Number.readChars (Text.trimChars part) ≠ .nan := by
      intro none
      rw [← same, none] at finite
      cases finite
    have whole := Number.not_blank_of_read number
    rwa [Text.trimChars_trimChars] at whole
  · intro whole
    rw [squeezed_eq_trimChars bare whole]

/-- How a text with some parts is read. -/
structure ReadsByParts (label : String) (count : Number) (text : String)
    (parts : List (List Char)) : Prop where
  split : CommaParts text parts
  /-- There are as many parts as asked for, and each is read from what is left of it. -/
  accepts : ∀ values, readTuple label count text = .ok values ↔
    Number.ofNat parts.length = count ∧ List.Forall₂ ReadsAs parts values
  refuses : (∀ values, readTuple label count text ≠ .ok values) →
    readTuple label count text = .error (.notTuple label count text) ∧
      (Fault.notTuple label count text).kind = .malformedDocument
  /-- Without parentheses a part is read as it is, save for the white space around it, unless there
  is white space inside. -/
  trims : '(' ∉ text.toList → ')' ∉ text.toList → ∀ values,
    readTuple label count text = .ok values →
    List.Forall₂ (fun part value => Number.readChars (Text.trimChars part) = value ↔
      ∀ c ∈ Text.trimChars part, ¬ Text.isBlankChar c) parts values
  /-- A pair of parentheses around a text makes no difference. -/
  bracketed : ∀ values, readTuple label count ("(" ++ text ++ ")") = .ok values ↔
    readTuple label count text = .ok values

/-- **Tuples are read from what is left of their parts** without parentheses and white space. -/
theorem tuples_are_squeezed (label : String) (count : Number) (text : String) :
    ∃ parts, ReadsByParts label count text parts := by
  have split : CommaParts text (splitOn ',' text.toList) := commaParts_iff.2 rfl
  have accepts (values : List Number) : readTuple label count text = .ok values ↔
      Number.ofNat (splitOn ',' text.toList).length = count ∧
        List.Forall₂ ReadsAs (splitOn ',' text.toList) values := by
    rw [readTuple_eq_ok_iff, tupleParts_eq split, List.length_map, forall₂_readsAs_iff]
  refine ⟨_, split, accepts, fun refused => ⟨readTuple_of_ne_ok refused, rfl⟩, ?_, fun values => ?_⟩
  · intro left right values read
    refine forall₂_imp_of_mem ((accepts values).1 read).2 fun part mem value reads => ?_
    refine reads.trimChars_iff fun c inside => ?_
    have there := mem_of_mem_splitOn part mem c inside
    exact ⟨fun same => left (same ▸ there), fun same => right (same ▸ there)⟩
  · rw [readTuple_eq_ok_iff, readTuple_eq_ok_iff, tupleParts_bracketed]

/-- **White space inside a number is dropped**: a number that is split by it is read as one. -/
theorem split_number_joined :
    readTuple "p" 3 "1 2,3,4" = .ok [12, 3, 4] ∧ CommaParts "1 2,3,4" [['1', ' ', '2'], ['3'], ['4']] ∧
      Number.readChars (Text.trimChars ['1', ' ', '2']) = .nan :=
  ⟨by decide +kernel, ⟨by decide, by decide, by decide⟩, by decide +kernel⟩

end SceneLogic
