/-
Parts of documents that were written.

An element that was made of attributes has exactly these: of several of one name the last counts
(`Element.attribute?_node`).  The texts that are stored read back as what was written
(`Element.flagOr_node`, `Element.requireNumber_node`, `readTuple_tupleText`), since the written form
of a number holds neither white space nor a separator.
-/
import Mathlib.Data.List.Induction
import SceneLogic.Action.Basic
import SceneLogic.Document.Basic
import SceneLogic.Proofs.Number.Written
import SceneLogic.Proofs.Results
import SceneLogic.Text.Identifier
namespace SceneLogic

attribute [local irreducible] quantaPerUnit quantaLimit

/-! ### Names and spans -/

theorem Target.ofText?_name (t : Target) : ofText? t.name = some t := dif_neg t.named

theorem Text.Identifier.ofText?_text (name : Identifier) : ofText? name.text = some name :=
  dif_pos name.valid

theorem Span.ofNumber?_number (s : Span) : ofNumber? s.number = some s := dif_pos s.nonneg

theorem Span.seconds_of_ofNumber? {x : Scalar} {s : Span} (h : ofNumber? x = some s) :
    s.seconds = x := by
  obtain ⟨_, same⟩ := Option.dite_none_right_eq_some.1 h
  cases same
  rfl

/-! ### Numbers -/

namespace Number

/-- A written number holds nothing that a tuple drops or is parted by. -/
theorem not_filler_of_mem_text {x : Number} {c : Char} (h : c ∈ x.text.toList) :
    isTupleFiller c = false ∧ c ≠ ',' := by
  have range : c.isAlphanum → 0x30 ≤ c.toNat ∧ c.toNat < 0x80 := by
    have parts : c.isAlphanum = (decide ('A'.val ≤ c.val ∧ c.val ≤ 'Z'.val) ||
        (decide ('a'.val ≤ c.val) && decide (c.val ≤ 'z'.val)) ||
        (decide ('0'.val ≤ c.val) && decide (c.val ≤ '9'.val))) := rfl
    have code : c.toNat = c.val.toNat := rfl
    simp only [parts, code, Bool.or_eq_true, Bool.and_eq_true, decide_eq_true_eq,
      UInt32.le_iff_toNat_le]
    have ends : 'A'.val.toNat = 65 ∧ 'Z'.val.toNat = 90 ∧ 'a'.val.toNat = 97 ∧
      'z'.val.toNat = 122 ∧ '0'.val.toNat = 48 ∧ '9'.val.toNat = 57 := by decide
    omega
  rcases mem_text h with word | rfl | rfl | rfl
  · obtain ⟨low, high⟩ := range word
    have others : c ≠ '(' ∧ c ≠ ')' ∧ c ≠ ',' := by
      refine ⟨?_, ?_, ?_⟩ <;> rintro rfl <;> revert low <;> decide
    refine ⟨?_, others.2.2⟩
    simp only [isTupleFiller, Text.isBlankChar, Bool.or_eq_false_iff, Bool.and_eq_false_iff,
      beq_eq_false_iff_ne, decide_eq_false_iff_not]
    refine ⟨⟨others.1, others.2.1⟩, ?_⟩
    omega
  all_goals decide

theorem toScalar?_read_text (x : Scalar) : (read (scalar x).text).toScalar? = some x :=
  congrArg toScalar? (read_text_scalar x)

theorem not_blank_text (x : Number) : ¬ Text.Blank x.text := by
  intro blank
  obtain ⟨c, hc⟩ := List.exists_mem_of_ne_nil _ (text_ne_empty x)
  have filler := (not_filler_of_mem_text hc).1
  rw [isTupleFiller, blank c hc, Bool.or_true] at filler
  cases filler

end Number

/-! ### Elements made of parts -/

/-- Of several values entered under a name the last is found. -/
theorem Table.get?_ofList {α : Type} (entries : List (String × α)) (name : String) :
    (ofList entries).get? name = entries.reverse.lookup name := by
  induction entries using List.reverseRecOn with
  | nil => rfl
  | append_singleton entries e ih =>
    have last : ofList (entries ++ [e]) = (ofList entries).insert e.1 e.2 := by
      rw [ofList, List.foldl_append]
      rfl
    rw [last, get?_insert, ih, List.reverse_append, List.reverse_singleton, List.singleton_append,
      lookup_cons_eq]

theorem readFlag_flagText (b : Bool) : readFlag (flagText b) = .ok b := by
  cases b <;> rfl

namespace Element

section Made

variable {tag name : String} {attributes : List (String × String)} {children : List Element}

theorem attribute?_node :
    (node tag attributes children).attribute? name = attributes.reverse.lookup name :=
  Table.get?_ofList attributes name

theorem requireAttribute_node {value : String} (h : attributes.reverse.lookup name = some value) :
    (node tag attributes children).requireAttribute name = .ok value := by
  rw [requireAttribute, attribute?_node, h]

theorem flagOr_node {b standard : Bool} (h : attributes.reverse.lookup name = some (flagText b)) :
    (node tag attributes children).flagOr name standard = .ok b := by
  rw [flagOr, attribute?_node, h]
  exact readFlag_flagText b

theorem requireNumber_node {x : Scalar} (h : attributes.reverse.lookup name = some x.text) :
    (node tag attributes children).requireNumber name = .ok x := by
  refine bind_of_eq_ok (requireAttribute_node h) ?_
  rw [Scalar.text, Number.toScalar?_read_text]
  exact if_neg (Number.not_blank_text _)

/-- All children are found if all have the tag. -/
theorem childrenOf_node_map {α : Type} {f : α → Element} {xs : List α}
    (h : ∀ x, (f x).tag = name) : (node tag attributes (xs.map f)).childrenOf name = xs.map f := by
  refine List.filter_eq_self.2 fun c mem => ?_
  obtain ⟨x, -, rfl⟩ := List.mem_map.1 mem
  rw [h, beq_self_eq_true]

end Made

end Element

/-! ### Tuples -/

theorem splitOn_eq (separator : Char) (cs : List Char) :
    splitOn separator cs = cs.splitOn separator := by
  induction cs with
  | nil => rfl
  | cons c cs ih =>
    rw [splitOn, ih, List.splitOn_cons_eq_if_modifyHead]
    simp only [beq_iff_eq]
    split
    · rfl
    · cases parts : cs.splitOn separator with
      | nil => exact absurd parts (List.splitOn_ne_nil _ _)
      | cons part parts => rfl

theorem not_filler_of_mem_tupleText {values : List Number} {c : Char}
    (h : c ∈ (tupleText values).toList) : isTupleFiller c = false := by
  induction values with
  | nil => cases h
  | cons x xs ih =>
    cases xs with
    | nil => exact (Number.not_filler_of_mem_text (x := x) (by simpa [tupleText] using h)).1
    | cons y ys =>
      have parted : tupleText (x :: y :: ys) = x.text ++ "," ++ tupleText (y :: ys) :=
        String.intercalate_cons_cons
      rw [parted, String.toList_append, String.toList_append, List.mem_append, List.mem_append] at h
      rcases h with (first | comma) | later
      · exact (Number.not_filler_of_mem_text first).1
      · rw [List.mem_singleton.1 comma]
        decide
      · exact ih later

/-- The parts of a written tuple are its numbers. -/
theorem tupleParts_tupleText {values : List Number} (nonempty : values ≠ []) :
    tupleParts (tupleText values) = values.map fun x => x.text.toList := by
  have chars : (tupleText values).toList =
      [','].intercalate (values.map fun x => x.text.toList) := by
    rw [tupleText, String.toList_intercalate, List.map_map]
    rfl
  have keep : ∀ c ∈ (tupleText values).toList, !isTupleFiller c := fun c hc => by
    rw [not_filler_of_mem_tupleText hc]
    rfl
  rw [tupleParts, List.filter_eq_self.2 keep, chars, splitOn_eq]
  refine List.splitOn_intercalate _ (fun part mem separated => ?_) (by simpa using nonempty)
  obtain ⟨x, -, rfl⟩ := List.mem_map.1 mem
  exact (Number.not_filler_of_mem_text separated).2 rfl

/-- A written tuple of finite values reads back. -/
theorem readTuple_tupleText (label : String) {values : List Number} (nonempty : values ≠ [])
    (finite : ∀ x ∈ values, ∃ s : Scalar, x = s) :
    readTuple label (Number.ofNat values.length) (tupleText values) = .ok values := by
  have back : (tupleParts (tupleText values)).map Number.readChars = values := by
    have same : ∀ x ∈ values, (Number.readChars ∘ fun x => x.text.toList) x = id x := by
      intro x hx
      obtain ⟨s, rfl⟩ := finite x hx
      exact Number.read_text_scalar s
    rw [tupleParts_tupleText nonempty, List.map_map, List.map_congr_left same, List.map_id]
  have full : [] ∉ tupleParts (tupleText values) := by
    rw [tupleParts_tupleText nonempty, List.mem_map]
    rintro ⟨x, -, empty⟩
    exact Number.text_ne_empty x empty
  have all : values.all Number.isFinite := by
    rw [List.all_eq_true]
    intro x hx
    obtain ⟨s, rfl⟩ := finite x hx
    rfl
  have count : (tupleParts (tupleText values)).length = values.length := by
    rw [tupleParts_tupleText nonempty, List.length_map]
  rw [readTuple, back, count]
  refine if_neg ?_
  rintro (other | empty | infinite)
  · exact other rfl
  · exact full empty
  · exact infinite all

namespace Position

theorem ofNumbers_numbers (label : String) (p : Position) : ofNumbers label p.numbers = .ok p := rfl

/-- A written position reads back. -/
theorem readTuple_numbers (label : String) (p : Position) :
    readTuple label 3 (tupleText p.numbers) = .ok p.numbers :=
  readTuple_tupleText label (List.cons_ne_nil _ _) fun _ hx =>
    let ⟨s, _, same⟩ := List.mem_map.1 hx
    ⟨s, same.symm⟩

end Position

namespace Color

theorem channel?_ofNat (channel : Fin 256) : channel? (Number.ofNat channel.val) = some channel := by
  have le : channel.val ≤ 2 ^ 53 := by omega
  have whole : (⟨(channel.val * quantaPerUnit : Nat), Number.representable_mul_quantaPerUnit le⟩ :
      Scalar).isWhole := by
    rw [Scalar.isWhole, Int.natAbs_natCast, Nat.mul_mod_left]
    rfl
  have units : ((channel.val * quantaPerUnit : Nat) : Int) / (quantaPerUnit : Int) = channel.val := by
    rw [Int.natCast_mul, Int.mul_ediv_cancel _ natCast_quantaPerUnit_pos.ne']
  rw [Number.ofNat_eq_scalar le, channel?]
  simp only [Number.toScalar?, whole, units, Int.toNat_natCast, Int.natCast_nonneg, channel.isLt,
    and_self, dite_true]

theorem ofNumbers_numbers (label : String) (c : Color) : ofNumbers label c.numbers = .ok c := by
  have read : ofNumbers? c.numbers = some c := by
    simp only [numbers, List.map_cons, List.map_nil, ofNumbers?, channel?_ofNat]
    rfl
  rw [ofNumbers, read]

/-- A written colour reads back. -/
theorem readTuple_numbers (label : String) (c : Color) :
    readTuple label 3 (tupleText c.numbers) = .ok c.numbers := by
  refine readTuple_tupleText label (List.cons_ne_nil _ _) fun x hx => ?_
  obtain ⟨channel, -, rfl⟩ := List.mem_map.1 hx
  exact ⟨_, Number.ofNat_eq_scalar (by omega)⟩

end Color

end SceneLogic
