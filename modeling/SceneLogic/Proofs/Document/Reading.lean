/-
Reading documents.

A JSON value is an element if it has the parts of one (`Parts`) and its children are elements
(`IsElement`); the element that it represents has the same parts, save for the attribute that cannot
be assigned (`Represents`).  The elements in a value, whether they are well formed or not, are listed
with their paths in document order (`elements`).

One element is read by its parts and by its children, one after the other (`ofJson_eq_ok_iff`), and
it is refused for its own offence or, if it has none, for its first child that is refused
(`ofJson_eq_error`).  By induction over the children, reading succeeds for the elements and gives
what they represent, and otherwise the fault tells of the first offender in document order
(`firstOffence_of_ofJson`).  With the grammar of JSON this says which texts are read, and as what
(`reads_exactly_elements`).
-/
import SceneLogic.Document.Json
import SceneLogic.Proofs.Json.Grammar
import SceneLogic.Proofs.Results
namespace SceneLogic.Element

/-! ### Elements among the values -/

/-- The attributes that a value under this name gives; there may be no value. -/
inductive GivesAttributes : Option Json → List (String × String) → Prop
  | missing : GivesAttributes none []
  | given (attributes : List (String × String)) :
      GivesAttributes (some (.object (attributes.map fun (k, v) => (k, .text v)))) attributes

/-- The children that a value under this name gives; there may be no value, and it may be null. -/
inductive GivesChildren : Option Json → List Json → Prop
  | missing : GivesChildren none []
  | null : GivesChildren (some .null) []
  | given (children : List Json) : GivesChildren (some (.list children)) children

/-- The text that a value under this name gives; there may be no value, and then no text. -/
inductive GivesText : Option Json → Option String → Prop
  | missing : GivesText none none
  | given (text : String) : GivesText (some (.text text)) (some text)

/-- A value has the parts of an element. -/
structure Parts (j : Json) (tag : String) (attributes : List (String × String))
    (children : List Json) (text : Option String) : Prop where
  tag : j.field? "tag" = some (.text tag)
  attributes : GivesAttributes (j.field? "attributes") attributes
  children : GivesChildren (j.field? "children") children
  text : GivesText (j.field? "text") text

/-- A value has parts of its own as an element has them, whatever its children are. -/
def IsProper (j : Json) : Prop := ∃ tag attributes children text, Parts j tag attributes children text

/-- A value is an element, and so is all that it holds. -/
inductive IsElement : Json → Prop
  | mk {j : Json} {tag : String} {attributes : List (String × String)} {children : List Json}
      {text : Option String} : Parts j tag attributes children text →
      (∀ c ∈ children, IsElement c) → IsElement j

/-- Attributes but for the one name that cannot be assigned. -/
def assignable (attributes : List (String × String)) : List (String × String) :=
  attributes.filter fun a => a.1 ≠ Reserved.unassignable

/-- A value represents an element: it has the same parts, its children in order. -/
inductive Represents : Json → Element → Prop
  | mk {j : Json} {e : Element} {attributes : List (String × String)} {children : List Json} :
      Parts j e.tag attributes children e.text → e.attributes.entries = assignable attributes →
      List.Forall₂ Represents children e.children → Represents j e

/-! ### Places -/

/-- The values that stand as children in a value. -/
def childrenIn (j : Json) : List Json :=
  match j.field? "children" with
  | some (.list children) => children
  | _ => []

/-- The path of a value that stands below a path: its tag is added, if it has one. -/
def pathOf (path : String) (j : Json) : String :=
  match j.field? "tag" with
  | some (.text tag) => s!"{path}/{tag}"
  | _ => path

theorem Parts.childrenIn_eq {j : Json} {tag : String} {attributes : List (String × String)}
    {children : List Json} {text : Option String} (parts : Parts j tag attributes children text) :
    childrenIn j = children := by
  have gives := parts.children
  rw [childrenIn]
  generalize j.field? "children" = value at gives
  cases gives <;> rfl

theorem sizeOf_childrenIn {c j : Json} (h : c ∈ childrenIn j) : sizeOf c < sizeOf j := by
  cases j with
  | object fields =>
    rw [childrenIn] at h
    split at h
    · next children found =>
      obtain ⟨before, after, rfl, -⟩ := List.lookup_eq_some_iff.1 found
      have mem : ("children", Json.list children) ∈
          before ++ ("children", Json.list children) :: after := by simp
      have inner := List.sizeOf_lt_of_mem h
      have outer := List.sizeOf_lt_of_mem mem
      simp only [Prod.mk.sizeOf_spec, Json.list.sizeOf_spec, Json.object.sizeOf_spec] at outer ⊢
      omega
    · cases h
  | _ => cases h

/-- What is kept by every value from its children holds of all values. -/
theorem childrenInduction {motive : Json → Prop}
    (step : ∀ j, (∀ c ∈ childrenIn j, motive c) → motive j) (j : Json) : motive j :=
  step j fun c _ => childrenInduction step c
termination_by sizeOf j
decreasing_by exact sizeOf_childrenIn ‹_›

/-- A value and all that stand as elements in it, with their paths: in document order, each before
those that it holds. -/
def elements (path : String) (j : Json) : List (String × Json) :=
  (pathOf path j, j) :: (childrenIn j).attach.flatMap fun c => elements (pathOf path j) c.1
termination_by sizeOf j
decreasing_by exact sizeOf_childrenIn c.2

theorem elements_eq (path : String) (j : Json) :
    elements path j = (pathOf path j, j) :: (childrenIn j).flatMap (elements (pathOf path j)) := by
  rw [elements]
  congr 1
  rw [List.flatMap_def, List.flatMap_def, List.attach_map_val (f := elements (pathOf path j))]

/-! ### Offences -/

/-- What is wrong with a value at a path, and the fault that says so.  The parts are looked at one
after the other, and of the attributes the first that is no text counts. -/
inductive Offence (path : String) (j : Json) : Fault → Prop
  | notElement : (∀ tag, j.field? "tag" ≠ some (.text tag)) → Offence path j (.notElement path)
  | attributesNotObject {tag : String} {x : Json} : j.field? "tag" = some (.text tag) →
      j.field? "attributes" = some x → (∀ fields, x ≠ .object fields) →
      Offence path j (.attributesNotObject path)
  | attributeNotText {tag name : String} {before : List (String × String)} {x : Json}
      {after : List (String × Json)} : j.field? "tag" = some (.text tag) →
      j.field? "attributes" =
        some (.object ((before.map fun (k, v) => (k, .text v)) ++ (name, x) :: after)) →
      (∀ v, x ≠ .text v) → Offence path j (.attributeNotText path name)
  | childrenNotList {tag : String} {attributes : List (String × String)} :
      j.field? "tag" = some (.text tag) → GivesAttributes (j.field? "attributes") attributes →
      (∀ children, ¬ GivesChildren (j.field? "children") children) →
      Offence path j (.childrenNotList path)
  | textNotText {tag : String} {attributes : List (String × String)} {children : List Json} :
      j.field? "tag" = some (.text tag) → GivesAttributes (j.field? "attributes") attributes →
      GivesChildren (j.field? "children") children →
      (∀ text, ¬ GivesText (j.field? "text") text) → Offence path j (.textNotText path)

variable {path : String} {j : Json} {fault : Fault}

/-- Without a tag the path is that of the value around. -/
theorem Offence.of_untagged (untagged : ∀ tag, j.field? "tag" ≠ some (.text tag)) :
    Offence (pathOf path j) j (.notElement path) := by
  have stays : pathOf path j = path := by
    rw [pathOf]
    split
    · next tag tagged => exact absurd tagged (untagged tag)
    · rfl
  rw [stays]
  exact .notElement untagged

/-- An offender does not have the parts of an element. -/
theorem Offence.not_isProper (offence : Offence path j fault) : ¬ IsProper j := by
  rintro ⟨tag, attributes, children, text, parts⟩
  cases offence with
  | notElement untagged => exact untagged tag parts.tag
  | attributesNotObject _ found other =>
    have given := parts.attributes
    rw [found] at given
    cases given
    exact other _ rfl
  | @attributeNotText _ name before x after _ found other =>
    have given := parts.attributes
    rw [found] at given
    generalize h : some (Json.object _) = value at given
    cases given with
    | missing => cases h
    | given attributes =>
      have mem : (name, x) ∈ attributes.map fun (k, v) => (k, Json.text v) := by
        rw [← Json.object.inj (Option.some.inj h)]
        simp
      obtain ⟨a, -, same⟩ := List.mem_map.1 mem
      exact other a.2 (Prod.mk.inj same).2.symm
  | childrenNotList _ _ other => exact other children parts.children
  | textNotText _ _ _ other => exact other text parts.text

/-- The fault is that of a malformed document. -/
theorem Offence.kind (offence : Offence path j fault) : fault.kind = .malformedDocument := by
  cases offence <;> rfl

/-- The message begins with the path of the offender. -/
theorem Offence.message (offence : Offence path j fault) :
    ∃ words, fault.message = path ++ ": " ++ words := by
  cases offence with
  | notElement =>
    refine ⟨"expected an element with a string tag", ?_⟩
    change path ++ ": expected an element with a string tag" = _
    simp only [String.append_assoc, String.reduceAppend]
  | attributesNotObject =>
    refine ⟨"attributes must be an object", ?_⟩
    change path ++ ": attributes must be an object" = _
    simp only [String.append_assoc, String.reduceAppend]
  | @attributeNotText _ name =>
    refine ⟨"attribute '" ++ name ++ "' must be a string", ?_⟩
    have colon : ": attribute '" = ": " ++ "attribute '" := by decide
    change path ++ ": attribute '" ++ name ++ "' must be a string" = _
    simp only [colon, String.append_assoc]
  | childrenNotList =>
    refine ⟨"children must be an array", ?_⟩
    change path ++ ": children must be an array" = _
    simp only [String.append_assoc, String.reduceAppend]
  | textNotText =>
    refine ⟨"text must be a string", ?_⟩
    change path ++ ": text must be a string" = _
    simp only [String.append_assoc, String.reduceAppend]

/-- The fault tells of the first offender among some places. -/
def FirstOffence (places : List (String × Json)) (fault : Fault) : Prop :=
  ∃ before path j after, places = before ++ (path, j) :: after ∧ (∀ p ∈ before, IsProper p.2) ∧
    Offence path j fault

theorem FirstOffence.append {places : List (String × Json)} (first : FirstOffence places fault)
    (after : List (String × Json)) : FirstOffence (places ++ after) fault := by
  obtain ⟨before, path, j, rest, rfl, proper, offence⟩ := first
  exact ⟨before, path, j, rest ++ after, by simp, proper, offence⟩

theorem FirstOffence.behind {places before : List (String × Json)}
    (first : FirstOffence places fault) (proper : ∀ p ∈ before, IsProper p.2) :
    FirstOffence (before ++ places) fault := by
  obtain ⟨between, path, j, rest, rfl, proper', offence⟩ := first
  exact ⟨before ++ between, path, j, rest, by simp, List.forall_mem_append.2 ⟨proper, proper'⟩,
    offence⟩

/-! ### Reading the parts -/

variable {fields : List (String × Json)}

theorem readTag_eq_ok_iff {tag : String} :
    readTag path fields = .ok tag ↔ fields.lookup "tag" = some (.text tag) := by
  rw [readTag]
  constructor
  · intro h
    split at h
    · next found =>
      cases h
      exact found
    · cases h
  · intro found
    rw [found]

theorem readTag_eq_error (h : readTag path fields = .error fault) :
    fault = .notElement path ∧ ∀ tag, fields.lookup "tag" ≠ some (.text tag) := by
  rw [readTag] at h
  split at h
  · cases h
  · next other =>
    cases h
    exact ⟨rfl, other⟩

/-- The attribute that cannot be assigned is passed over. -/
theorem entered_assignable (read : Table String) (k v : String)
    (attributes : List (String × String)) :
    entered (if k = Reserved.unassignable then read else read.insert k v).entries
      (assignable attributes) = entered read.entries (assignable ((k, v) :: attributes)) := by
  by_cases hk : k = Reserved.unassignable
  · rw [if_pos hk, assignable, assignable, List.filter_cons_of_neg (by simp [hk])]
  · rw [if_neg hk, assignable, assignable, List.filter_cons_of_pos (by simp [hk])]
    rfl

/-- Attributes are entered in their order, if all are texts. -/
theorem readAttributeList_eq_ok_iff {read named : Table String} :
    readAttributeList path fields read = .ok named ↔
      ∃ attributes : List (String × String), fields = attributes.map (fun (k, v) => (k, .text v)) ∧
        named.entries = entered read.entries (assignable attributes) := by
  induction fields generalizing read with
  | nil =>
    rw [readAttributeList]
    constructor
    · rintro ⟨⟩
      exact ⟨[], rfl, rfl⟩
    · rintro ⟨attributes, empty, same⟩
      cases List.map_eq_nil_iff.1 empty.symm
      cases named
      cases same
      rfl
  | cons f fields ih =>
    obtain ⟨k, x⟩ := f
    constructor
    · intro h
      cases x with
      | text v =>
        obtain ⟨attributes, rfl, same⟩ := ih.1 h
        exact ⟨(k, v) :: attributes, rfl, same.trans (entered_assignable ..)⟩
      | _ => cases h
    · rintro ⟨attributes, split, same⟩
      cases attributes with
      | nil => cases split
      | cons a attributes =>
        obtain ⟨k', v⟩ := a
        cases split
        exact ih.2 ⟨attributes, rfl, same.trans (entered_assignable ..).symm⟩

/-- Reading attributes stops at the first that is no text. -/
theorem readAttributeList_eq_error {read : Table String}
    (h : readAttributeList path fields read = .error fault) :
    ∃ (before : List (String × String)) (name : String) (x : Json) (after : List (String × Json)),
      fields = (before.map fun (k, v) => (k, .text v)) ++ (name, x) :: after ∧
      (∀ v, x ≠ .text v) ∧ fault = .attributeNotText path name := by
  induction fields generalizing read with
  | nil => cases h
  | cons f fields ih =>
    obtain ⟨k, x⟩ := f
    cases x with
    | text v =>
      obtain ⟨before, name, x, after, rfl, other, rfl⟩ := ih h
      exact ⟨(k, v) :: before, name, x, after, rfl, other, rfl⟩
    | _ =>
      cases h
      exact ⟨[], k, _, fields, rfl, nofun, rfl⟩

theorem readAttributes_eq_ok_iff {named : Table String} :
    readAttributes path fields = .ok named ↔
      ∃ attributes, GivesAttributes (fields.lookup "attributes") attributes ∧
        named.entries = entered [] (assignable attributes) := by
  rw [readAttributes]
  constructor
  · intro h
    split at h
    · next found =>
      cases h
      rw [found]
      exact ⟨[], .missing, rfl⟩
    · next found =>
      obtain ⟨attributes, rfl, same⟩ := readAttributeList_eq_ok_iff.1 h
      rw [found]
      exact ⟨attributes, .given attributes, same⟩
    · cases h
  · rintro ⟨attributes, gives, same⟩
    generalize fields.lookup "attributes" = value at gives
    cases gives with
    | missing =>
      cases named
      cases same
      rfl
    | given => exact readAttributeList_eq_ok_iff.2 ⟨attributes, rfl, same⟩

theorem readAttributes_eq_error (h : readAttributes path fields = .error fault) {tag : String}
    (tagged : fields.lookup "tag" = some (.text tag)) : Offence path (.object fields) fault := by
  rw [readAttributes] at h
  split at h
  · cases h
  · next found =>
    obtain ⟨before, name, x, after, rfl, other, rfl⟩ := readAttributeList_eq_error h
    exact .attributeNotText tagged found other
  · next other found =>
    cases h
    exact .attributesNotObject tagged found other

theorem checkChildren_eq_ok_iff :
    checkChildren path fields = .ok () ↔
      GivesChildren (fields.lookup "children") (childrenIn (.object fields)) := by
  rw [childrenIn, Json.field?, checkChildren]
  constructor
  · intro h
    split at h
    · next found =>
      rw [found]
      exact .missing
    · next found =>
      rw [found]
      exact .null
    · next found =>
      rw [found]
      exact .given _
    · cases h
  · intro gives
    generalize fields.lookup "children" = value at gives
    split at gives <;> cases gives <;> rfl

theorem checkChildren_eq_error (h : checkChildren path fields = .error fault) :
    fault = .childrenNotList path ∧
      ∀ children, ¬ GivesChildren (fields.lookup "children") children := by
  rw [checkChildren] at h
  split at h
  case h_4 missing null list found =>
    cases h
    rw [found]
    refine ⟨rfl, ?_⟩
    rintro _ ⟨⟩
    · exact null rfl
    · exact list _ rfl
  all_goals cases h

theorem readText_eq_ok_iff {text : Option String} :
    readText path fields = .ok text ↔ GivesText (fields.lookup "text") text := by
  rw [readText]
  constructor
  · intro h
    split at h
    · next found =>
      cases h
      rw [found]
      exact .missing
    · next found =>
      cases h
      rw [found]
      exact .given _
    · cases h
  · intro gives
    generalize fields.lookup "text" = value at gives
    cases gives <;> rfl

theorem readText_eq_error (h : readText path fields = .error fault) :
    fault = .textNotText path ∧ ∀ text, ¬ GivesText (fields.lookup "text") text := by
  rw [readText] at h
  split at h
  · cases h
  · cases h
  · next other found =>
    cases h
    rw [found]
    refine ⟨rfl, ?_⟩
    rintro _ ⟨⟩
    exact other _ rfl

/-! ### Reading an element -/

theorem ofItems_eq (path : String) (items : List Json) :
    ofItems path items = items.mapM (ofJson path) := by
  induction items with
  | nil => rfl
  | cons j items ih => rw [ofItems, List.mapM_cons, ih]

theorem ofChildren_eq (path : String) (fields : List (String × Json)) :
    ofChildren path fields = (childrenIn (.object fields)).mapM (ofJson path) := by
  induction fields with
  | nil => rfl
  | cons f fields ih =>
    obtain ⟨k, x⟩ := f
    rw [childrenIn, Json.field?] at ih ⊢
    rw [lookup_cons_eq]
    unfold ofChildren
    by_cases hk : k = "children"
    · rw [if_pos hk, if_pos hk.symm]
      cases x with
      | list items => exact ofItems_eq path items
      | _ => rfl
    · rw [if_neg hk, if_neg (Ne.symm hk), ih]

/-- An element is read by its parts and by its children. -/
theorem ofJson_eq_ok_iff {e : Element} :
    ofJson path j = .ok e ↔ ∃ attributes children, Parts j e.tag attributes children e.text ∧
      e.attributes.entries = entered [] (assignable attributes) ∧
      List.Forall₂ (fun c d => ofJson s!"{path}/{e.tag}" c = .ok d) children e.children := by
  cases j with
  | object fields =>
    obtain ⟨tag, named, children, text⟩ := e
    rw [ofJson]
    constructor
    · intro h
      obtain ⟨tag, tagged, h⟩ := bind_eq_ok.1 h
      obtain ⟨named, read, h⟩ := bind_eq_ok.1 h
      obtain ⟨⟨⟩, listed, h⟩ := bind_eq_ok.1 h
      obtain ⟨text, told, h⟩ := bind_eq_ok.1 h
      obtain ⟨children, held, h⟩ := bind_eq_ok.1 h
      cases h
      obtain ⟨attributes, gives, same⟩ := readAttributes_eq_ok_iff.1 read
      rw [ofChildren_eq] at held
      exact ⟨attributes, _, ⟨readTag_eq_ok_iff.1 tagged, gives, checkChildren_eq_ok_iff.1 listed,
        readText_eq_ok_iff.1 told⟩, same, mapM_eq_ok_iff.1 held⟩
    · rintro ⟨attributes, children, parts, same, each⟩
      cases parts.childrenIn_eq
      refine bind_of_eq_ok (readTag_eq_ok_iff.2 parts.tag) ?_
      refine bind_of_eq_ok (readAttributes_eq_ok_iff.2 ⟨attributes, parts.attributes, same⟩) ?_
      refine bind_of_eq_ok (checkChildren_eq_ok_iff.2 parts.children) ?_
      refine bind_of_eq_ok (readText_eq_ok_iff.2 parts.text) ?_
      rw [ofChildren_eq]
      exact bind_of_eq_ok (mapM_eq_ok_iff.2 each) rfl
  | _ =>
    constructor
    · rintro ⟨⟩
    · rintro ⟨_, _, parts, -⟩
      cases parts.tag

/-- An element is refused for its own offence, or for its first child that is refused. -/
theorem ofJson_eq_error (h : ofJson path j = .error fault) :
    Offence (pathOf path j) j fault ∨ IsProper j ∧ ∃ before c after,
      childrenIn j = before ++ c :: after ∧
      (∀ d ∈ before, ∃ e, ofJson (pathOf path j) d = .ok e) ∧
      ofJson (pathOf path j) c = .error fault := by
  cases j with
  | object fields =>
    rw [ofJson] at h
    -- A part is looked at if those before it are right, and what they give is kept for the offence.
    rcases bind_eq_error.1 h with fails | ⟨tag, tagged, h⟩
    · obtain ⟨rfl, other⟩ := readTag_eq_error fails
      exact .inl (.of_untagged other)
    have tagged : fields.lookup "tag" = some (.text tag) := readTag_eq_ok_iff.1 tagged
    have here : pathOf path (.object fields) = s!"{path}/{tag}" := by
      rw [pathOf, Json.field?, tagged]
    rw [here]
    rcases bind_eq_error.1 h with fails | ⟨named, read, h⟩
    · exact .inl (readAttributes_eq_error fails tagged)
    obtain ⟨attributes, gives, -⟩ := readAttributes_eq_ok_iff.1 read
    rcases bind_eq_error.1 h with fails | ⟨⟨⟩, listed, h⟩
    · obtain ⟨rfl, other⟩ := checkChildren_eq_error fails
      exact .inl (.childrenNotList tagged gives other)
    have listed := checkChildren_eq_ok_iff.1 listed
    rcases bind_eq_error.1 h with fails | ⟨text, told, h⟩
    · obtain ⟨rfl, other⟩ := readText_eq_error fails
      exact .inl (.textNotText tagged gives listed other)
    have told := readText_eq_ok_iff.1 told
    rcases bind_eq_error.1 h with fails | ⟨children, -, h⟩
    · rw [ofChildren_eq] at fails
      exact .inr ⟨⟨tag, attributes, _, text, tagged, gives, listed, told⟩,
        mapM_eq_error_iff.1 fails⟩
    · cases h
  | _ =>
    cases h
    refine .inl (.of_untagged ?_)
    rintro tag ⟨⟩

/-! ### Reading a tree -/

/-- Only elements are read. -/
theorem isElement_of_ofJson {e : Element} (h : ofJson path j = .ok e) : IsElement j := by
  induction j using childrenInduction generalizing path e with
  | step j ih =>
    obtain ⟨attributes, children, parts, -, each⟩ := ofJson_eq_ok_iff.1 h
    -- Every child gave one of the children of the element, so it was read.
    refine .mk parts fun c hc => ?_
    obtain ⟨d, -, read⟩ := exists_of_forall₂ each.flip hc
    exact ih c (parts.childrenIn_eq ▸ hc) read

/-- The elements in an element have the parts of one. -/
theorem IsElement.isProper_of_mem (element : IsElement j) {p : String × Json}
    (hp : p ∈ elements path j) : IsProper p.2 := by
  induction element generalizing path with
  | mk parts _ ih =>
    rw [elements_eq, parts.childrenIn_eq, List.mem_cons, List.mem_flatMap] at hp
    rcases hp with rfl | ⟨c, hc, hp⟩
    · exact ⟨_, _, _, _, parts⟩
    · exact ih c hc hp

/-- **What is refused is refused for the first offender** in document order. -/
theorem firstOffence_of_ofJson (h : ofJson path j = .error fault) :
    FirstOffence (elements path j) fault := by
  induction j using childrenInduction generalizing path with
  | step j ih =>
    rw [elements_eq]
    rcases ofJson_eq_error h with offence | ⟨proper, before, c, after, split, passed, fails⟩
    · exact ⟨[], _, j, _, rfl, List.forall_mem_nil _, offence⟩
    · have first : FirstOffence (elements (pathOf path j) c) fault := ih c (by simp [split]) fails
      -- The children before this one were read, so there is no offender in any of them.
      have passed : ∀ p ∈ before.flatMap (elements (pathOf path j)), IsProper p.2 := by
        intro p hp
        obtain ⟨d, hd, hp⟩ := List.mem_flatMap.1 hp
        obtain ⟨e, read⟩ := passed d hd
        exact (isElement_of_ofJson read).isProper_of_mem hp
      have own : ∀ p ∈ [(pathOf path j, j)], IsProper p.2 := List.forall_mem_singleton.2 proper
      rw [split, List.flatMap_append, List.flatMap_cons]
      exact ((first.append _).behind passed).behind own

/-- Reading succeeds for elements only. -/
theorem exists_ofJson_iff : (∃ e, ofJson path j = .ok e) ↔ IsElement j := by
  constructor
  · rintro ⟨e, read⟩
    exact isElement_of_ofJson read
  · intro element
    cases read : ofJson path j with
    | ok e => exact ⟨e, rfl⟩
    | error fault =>
      obtain ⟨before, here, x, after, split, -, offence⟩ := firstOffence_of_ofJson read
      have mem : (here, x) ∈ elements path j := by simp [split]
      exact absurd (element.isProper_of_mem mem) offence.not_isProper

/-! ### What is read -/

theorem Parts.ordered {tag : String} {attributes : List (String × String)} {children : List Json}
    {text : Option String} (parts : Parts j tag attributes children text)
    (canonical : Json.Canonical j) : Ordered attributes := by
  have gives := parts.attributes
  generalize named : j.field? "attributes" = value at gives
  cases gives with
  | missing => exact .nil
  | given =>
    cases canonical.of_field? named with
    | object ordered =>
      rw [Ordered, List.pairwise_map] at ordered
      exact ordered

theorem canonical_of_mem_childrenIn (canonical : Json.Canonical j) {c : Json}
    (hc : c ∈ childrenIn j) : Json.Canonical c := by
  rw [childrenIn] at hc
  split at hc
  · next children found =>
    cases canonical.of_field? found with
    | list parts => exact parts c hc
  · cases hc

/-- What is read of a value in canonical order is the element that it represents. -/
theorem ofJson_eq_ok_iff_represents (canonical : Json.Canonical j) {e : Element} :
    ofJson path j = .ok e ↔ Represents j e := by
  induction j using childrenInduction generalizing path e with
  | step j ih =>
    have child : ∀ c ∈ childrenIn j, ∀ d, ofJson s!"{path}/{e.tag}" c = .ok d ↔ Represents c d :=
      fun c hc d => ih c hc (canonical_of_mem_childrenIn canonical hc)
    rw [ofJson_eq_ok_iff]
    constructor
    · rintro ⟨attributes, children, parts, same, read⟩
      have ordered : Ordered (assignable attributes) := (parts.ordered canonical).filter _
      rw [entered_of_ordered ordered] at same
      rw [parts.childrenIn_eq] at child
      exact .mk parts same (forall₂_imp_of_mem read fun c hc d => (child c hc d).1)
    · rintro ⟨parts, same, represents⟩
      have ordered : Ordered (assignable _) := (parts.ordered canonical).filter _
      rw [parts.childrenIn_eq] at child
      refine ⟨_, _, parts, ?_, forall₂_imp_of_mem represents fun c hc d => (child c hc d).2⟩
      rw [entered_of_ordered ordered]
      exact same

/-! ### Reading a text -/

variable {text : String}

theorem parse_eq_ofJson (padded : Json.Padded text.toList j) :
    parse text = ofJson "document" j := by
  rw [parse, Json.parse_eq_some_iff.2 padded]

theorem exists_padded_of_parse {e : Element} (h : parse text = .ok e) :
    ∃ j, Json.Padded text.toList j ∧ ofJson "document" j = .ok e := by
  rw [parse] at h
  split at h
  · next j spelled => exact ⟨j, Json.parse_eq_some_iff.1 spelled, h⟩
  · cases h

theorem parse_eq_ok_iff {e : Element} :
    parse text = .ok e ↔ ∃ j, Json.Padded text.toList j ∧ Represents j e := by
  constructor
  · intro h
    obtain ⟨j, padded, read⟩ := exists_padded_of_parse h
    exact ⟨j, padded, (ofJson_eq_ok_iff_represents padded.canonical).1 read⟩
  · rintro ⟨j, padded, represents⟩
    rw [parse_eq_ofJson padded]
    exact (ofJson_eq_ok_iff_represents padded.canonical).2 represents

theorem exists_parse_iff :
    (∃ e, parse text = .ok e) ↔ ∃ j, Json.Padded text.toList j ∧ IsElement j := by
  constructor
  · rintro ⟨e, h⟩
    obtain ⟨j, padded, read⟩ := exists_padded_of_parse h
    exact ⟨j, padded, isElement_of_ofJson read⟩
  · rintro ⟨j, padded, element⟩
    obtain ⟨e, read⟩ := exists_ofJson_iff.2 element
    exact ⟨e, (parse_eq_ofJson padded).trans read⟩

theorem kind_of_parse_eq_error (h : parse text = .error fault) :
    fault.kind = .malformedDocument := by
  rw [parse] at h
  split at h
  · obtain ⟨before, path, j, after, -, -, offence⟩ := firstOffence_of_ofJson h
    exact offence.kind
  · cases h
    rfl

/-- **Exactly the element trees are read.**  Reading a text gives the elements that the value it
spells represents, and there is one if this value is an element.  Any other text is refused as a
malformed document; if it spells a value, then the fault tells of the first offender in it in
document order, and its message begins with the path of that offender. -/
theorem reads_exactly_elements (text : String) :
    (∀ e, parse text = .ok e ↔ ∃ j, Json.Padded text.toList j ∧ Represents j e) ∧
    ((∃ e, parse text = .ok e) ↔ ∃ j, Json.Padded text.toList j ∧ IsElement j) ∧
    ∀ fault, parse text = .error fault → fault.kind = .malformedDocument ∧
      ∀ j, Json.Padded text.toList j → ∃ before here x after,
        elements "document" j = before ++ (here, x) :: after ∧ (∀ p ∈ before, IsProper p.2) ∧
        ¬ IsProper x ∧ Offence here x fault ∧ ∃ words, fault.message = here ++ ": " ++ words := by
  refine ⟨fun e => parse_eq_ok_iff, exists_parse_iff, fun fault refused => ?_⟩
  refine ⟨kind_of_parse_eq_error refused, fun j padded => ?_⟩
  rw [parse_eq_ofJson padded] at refused
  obtain ⟨before, here, x, after, split, proper, offence⟩ := firstOffence_of_ofJson refused
  exact ⟨before, here, x, after, split, proper, offence.not_isProper, offence, offence.message⟩

/-- A document with a fault in an attribute of its first child and with others behind it. -/
def malformedNote : String :=
  "\x7b\"tag\":\"Note\",\"children\":[\x7b\"tag\":\"Line\",\"attributes\":\x7b\"by\":\"\",\"at\":null\x7d," ++
    "\"children\":[true]\x7d,\x7b\"text\":\"\"\x7d],\"text\":\"\"\x7d"

/-- It is refused for the attribute. -/
theorem malformedNote_refused :
    ∃ j, Json.Padded malformedNote.toList j ∧
      parse malformedNote = .error (.attributeNotText "document/Note/Line" "at") ∧
      ∃ before x after, elements "document" j = before ++ ("document/Note/Line", x) :: after ∧
        (∀ p ∈ before, IsProper p.2) ∧ ¬ IsProper x := by
  have spelled : (Json.parse malformedNote).isSome := by decide +kernel
  obtain ⟨j, spelled⟩ := Option.isSome_iff_exists.1 spelled
  have padded : Json.Padded malformedNote.toList j := Json.parse_eq_some_iff.1 spelled
  have refused : (parse malformedNote).map (fun _ => ()) =
      .error (.attributeNotText "document/Note/Line" "at") := by decide +kernel
  cases read : parse malformedNote with
  | ok e =>
    rw [read] at refused
    cases refused
  | error fault =>
    rw [read] at refused
    cases refused
    obtain ⟨-, first⟩ := (reads_exactly_elements malformedNote).2.2 _ read
    obtain ⟨before, here, x, after, split, proper, improper, offence, -⟩ := first j padded
    cases offence
    exact ⟨j, padded, rfl, before, x, after, split, proper, improper⟩

end SceneLogic.Element
