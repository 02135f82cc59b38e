/-
Documents through JSON.

An element is stored as an object whose fields are in canonical order, so the parser gives back what
was written, and the reader finds the tag, the attributes, the children and the text again
(`ofJson_toJson`), unless an attribute has the one name that cannot be assigned.  No element that
was read has one (`storable_of_ofJson`), so what was read is stored and read back as it is.
-/
import SceneLogic.Proofs.Document.Reading
import SceneLogic.Proofs.Json.Values
namespace SceneLogic

instance (a b : String) : Decidable (Key.Before a b) :=
  inferInstanceAs (Decidable (a ≠ b ∧ Key.precedes b a = false))

theorem ordered_iff {α : Type _} {entries : List (String × α)} :
    Ordered entries ↔ (entries.map Prod.fst).Pairwise Key.Before :=
  List.pairwise_map.symm

namespace Element

/-! ### Writing -/

/-- The fields of the object that an element is stored as. -/
def fields (tag : String) (attributes : Table String) (children : List Element)
    (text : Option String) : List (String × Json) :=
  [("tag", .text tag), ("attributes", .object (attributes.entries.map fun (k, v) => (k, .text v))),
    ("children", .list (listToJson children))] ++ (text.map fun t => ("text", Json.text t)).toList

theorem ordered_fields (tag : String) (attributes : Table String) (children : List Element)
    (text : Option String) : Ordered (fields tag attributes children text) := by
  have order : ["tag", "attributes", "children", "text"].Pairwise Key.Before := by decide
  rw [ordered_iff]
  cases text with
  | none => exact order.sublist (List.prefix_append ["tag", "attributes", "children"] ["text"]).sublist
  | some t => exact order

mutual

/-- What an element is stored as can be read back. -/
theorem faithful_toJson : ∀ e : Element, Json.Faithful e.toJson
  | ⟨tag, attributes, children, text⟩ => by
    have named : Json.Faithful
        (.object (attributes.entries.map fun (k, v) => (k, .text v))) := by
      refine .object (List.pairwise_map.2 attributes.ordered) fun f hf => ?_
      obtain ⟨e, -, rfl⟩ := List.mem_map.1 hf
      exact .text _
    have held : Json.Faithful (.list (listToJson children)) :=
      .list (faithful_listToJson children)
    refine .object (ordered_fields tag attributes children text) fun f hf => ?_
    rcases List.mem_append.1 hf with fixed | last
    · simp only [List.mem_cons, List.not_mem_nil, or_false] at fixed
      rcases fixed with rfl | rfl | rfl
      · exact .text tag
      · exact named
      · exact held
    · obtain ⟨t, -, rfl⟩ := Option.map_eq_some_iff.1 (Option.mem_toList.1 last)
      exact .text t

theorem faithful_listToJson : ∀ es : List Element, ∀ x ∈ listToJson es, Json.Faithful x
  | [] => List.forall_mem_nil _
  | e :: es => List.forall_mem_cons.2 ⟨faithful_toJson e, faithful_listToJson es⟩

end

/-! ### Reading what was written -/

/-- No attribute of an element or of what it holds has the name that cannot be assigned. -/
inductive Storable : Element → Prop
  | mk {e : Element} : (∀ name ∈ e.attributes.keys, name ≠ Reserved.unassignable) →
      (∀ c ∈ e.children, Storable c) → Storable e

theorem listToJson_eq (es : List Element) : listToJson es = es.map toJson := by
  induction es with
  | nil => rfl
  | cons e es ih => rw [listToJson, ih, List.map_cons]

/-- **A storable element is read back.** -/
theorem ofJson_toJson {e : Element} (h : Storable e) (path : String) :
    ofJson path e.toJson = .ok e := by
  induction h generalizing path with
  | @mk e free _ ih =>
    obtain ⟨tag, attributes, children, text⟩ := e
    have parts : Parts (.object (fields tag attributes children text)) tag attributes.entries
        (listToJson children) text := by
      refine ⟨rfl, .given _, .given _, ?_⟩
      cases text with
      | none => exact .missing
      | some t => exact .given t
    -- Nothing is passed over, and what comes in canonical order is entered in this order.
    have kept : assignable attributes.entries = attributes.entries := by
      refine List.filter_eq_self.2 fun a ha => decide_eq_true ?_
      exact free a.1 (List.mem_map_of_mem ha)
    have ordered : Ordered ([] ++ attributes.entries) := attributes.ordered
    refine ofJson_eq_ok_iff.2 ⟨attributes.entries, listToJson children, parts, ?_, ?_⟩
    · rw [kept, entered_of_ordered ordered]
      rfl
    · rw [listToJson_eq]
      exact List.forall₂_map_left_iff.2 (List.forall₂_same.2 fun c hc => ih c hc _)

/-! ### What was read -/

/-- **What was read can be stored.** -/
theorem storable_of_ofJson {j : Json} {path : String} {e : Element} (h : ofJson path j = .ok e) :
    Storable e := by
  induction j using childrenInduction generalizing path e with
  | step j ih =>
    obtain ⟨attributes, children, parts, same, each⟩ := ofJson_eq_ok_iff.1 h
    refine .mk (fun name hname => ?_) fun d hd => ?_
    · obtain ⟨a, ha, rfl⟩ := List.mem_map.1 hname
      rw [same] at ha
      rcases mem_entered ha with none | ha
      · cases none
      · exact of_decide_eq_true (List.mem_filter.1 ha).2
    · obtain ⟨c, hc, read⟩ := exists_of_forall₂ each hd
      exact ih c (parts.childrenIn_eq ▸ hc) read

/-! ### Texts -/

theorem parse_render {e : Element} (h : Storable e) (style : Json.Style) :
    parse (e.render style) = .ok e := by
  rw [parse, render, Json.parse_render (faithful_toJson e) style]
  exact ofJson_toJson h "document"

/-- **Documents go through JSON unchanged.**  An element without the unassignable name is read back
from what is written of it, in either style; and what is written of an element that was read is
written again of the element that is read back from it. -/
theorem json_round_trip (style : Json.Style) :
    (∀ e, Storable e → parse (e.render style) = .ok e) ∧
    ∀ text e, parse text = .ok e →
      parse (e.render style) = .ok e ∧
      (parse (e.render style)).map (render style) = .ok (e.render style) := by
  refine ⟨fun e h => parse_render h style, fun text e h => ?_⟩
  have storable : Storable e := by
    rw [parse] at h
    split at h
    · exact storable_of_ofJson h
    · cases h
  have back := parse_render storable style
  exact ⟨back, by rw [back]; rfl⟩

/-- A document with escapes, half of a pair of surrogates and an empty text. -/
def noteDocument : Element :=
  ⟨"Note", Table.ofList [("by", "\"\\\n\x01"), ("7", String.singleton (Text.standIn 0xD800))],
    [⟨"Line", ∅, [], some ""⟩, ⟨"Line", ∅, [⟨"", ∅, [], none⟩], none⟩], some "é"⟩

theorem noteDocument_storable : Storable noteDocument := by
  have leaf : ∀ tag text, Storable ⟨tag, ∅, [], text⟩ := fun _ _ =>
    .mk (List.forall_mem_nil _) (List.forall_mem_nil _)
  refine .mk (by decide) (List.forall_mem_cons.2 ⟨leaf _ _, List.forall_mem_singleton.2 ?_⟩)
  exact .mk (List.forall_mem_nil _) (List.forall_mem_singleton.2 (leaf _ _))

/-- It is read back, and so is what is read of a text with fewer fields than are written. -/
theorem noteDocument_round_trip :
    parse (noteDocument.render .pretty) = .ok noteDocument ∧
    ∃ e, parse "\x7b\"children\": null, \"tag\": \"Re\\u0073et\"\x7d" = .ok e ∧
      parse (e.render .compact) = .ok e := by
  refine ⟨(json_round_trip .pretty).1 noteDocument noteDocument_storable, ?_⟩
  have reads : (parse "\x7b\"children\": null, \"tag\": \"Re\\u0073et\"\x7d").isOk := by
    decide +kernel
  cases h : parse "\x7b\"children\": null, \"tag\": \"Re\\u0073et\"\x7d" with
  | error fault =>
    rw [h] at reads
    cases reads
  | ok e => exact ⟨e, rfl, ((json_round_trip .compact).2 _ e h).1⟩

end Element

end SceneLogic
