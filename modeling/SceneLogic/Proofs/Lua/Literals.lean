/-
Literals of scripts tell the data apart.

A quoted text ends at its closing quote, whatever it holds, and a written number ends where a
comma, a bracket or nothing follows.  So a table of such items can be told from every other one,
also within a longer text:

* `Lua.quoteChars_append_inj` — quoted texts, whatever follows them;
* `Number.text_append_inj` — written numbers, up to the sign of zero, before a mark or the end;
* `Lua.listText_append_inj` — tables of items that end by themselves;
* `Lua.lines_inj` — texts made of lines.

No literal holds a line break (`IsLine`).
-/
import SceneLogic.Lua.Script
import SceneLogic.Proofs.Number.Written
namespace SceneLogic.Lua

/-! ### Quoted texts -/

/-- The number that three digits spell. -/
def ofThreeDigits (a b c : Char) : Nat :=
  100 * (a.toNat - 48) + 10 * (b.toNat - 48) + (c.toNat - 48)

theorem ofThreeDigits_threeDigits : ∀ n < 128, ∃ a b c, threeDigits n = [a, b, c] ∧
    a ≠ '"' ∧ a ≠ '\\' ∧ a ≠ 'n' ∧ ofThreeDigits a b c = n := by
  have all : ∀ n < 128, Nat.digitChar (n / 100) ≠ '"' ∧ Nat.digitChar (n / 100) ≠ '\\' ∧
      Nat.digitChar (n / 100) ≠ 'n' ∧ ofThreeDigits (Nat.digitChar (n / 100))
        (Nat.digitChar (n / 10 % 10)) (Nat.digitChar (n % 10)) = n := by decide +kernel
  intro n lt
  exact ⟨_, _, _, rfl, all n lt⟩

/-- The character at the front of a quoted text, and what follows it. -/
def unquoteChar : List Char → Option (Char × List Char)
  | '\\' :: 'n' :: rest => some ('\n', rest)
  | '\\' :: '"' :: rest => some ('"', rest)
  | '\\' :: '\\' :: rest => some ('\\', rest)
  | '\\' :: a :: b :: c :: rest => some (Char.ofNat (ofThreeDigits a b c), rest)
  | c :: rest => some (c, rest)
  | [] => none

/-- A character that is put in a literal can be taken out again. -/
theorem unquoteChar_quoteChar (c : Char) (rest : List Char) :
    unquoteChar (quoteChar c ++ rest) = some (c, rest) := by
  rw [quoteChar]
  split
  · next special =>
    rcases special with rfl | rfl <;> rfl
  · next plain =>
    split
    · next feed =>
      rw [feed]
      rfl
    · split
      · next control =>
        obtain ⟨a, b, d, digits, ha, ha', ha'', value⟩ :=
          ofThreeDigits_threeDigits c.toNat (by omega)
        rw [digits]
        show unquoteChar ('\\' :: a :: b :: d :: rest) = _
        rw [unquoteChar]
        · rw [value, Char.ofNat_toNat]
        · rintro rfl
          exact ha'' rfl
        · rintro rfl
          exact ha rfl
        · rintro rfl
          exact ha' rfl
      · show unquoteChar (c :: rest) = _
        unfold unquoteChar
        split <;> simp_all

/-- No quoted character begins with the quote that closes a literal. -/
theorem quoteChar_append_ne (c : Char) (rest rest' : List Char) :
    quoteChar c ++ rest ≠ '"' :: rest' := by
  rw [quoteChar]
  split
  · simp
  · split
    · simp
    · split
      · simp
      · next plain _ _ =>
        intro same
        exact plain (Or.inl (List.cons.inj same).1)

theorem flatMap_quoteChar_inj {s t r r' : List Char}
    (h : s.flatMap quoteChar ++ '"' :: r = t.flatMap quoteChar ++ '"' :: r') : s = t ∧ r = r' := by
  induction s generalizing t with
  | nil =>
    cases t with
    | nil => exact ⟨rfl, (List.cons.inj h).2⟩
    | cons d t =>
      rw [List.flatMap_cons, List.append_assoc] at h
      exact absurd h.symm (quoteChar_append_ne d _ _)
  | cons c s ih =>
    rw [List.flatMap_cons, List.append_assoc] at h
    cases t with
    | nil => exact absurd h (quoteChar_append_ne c _ _)
    | cons d t =>
      rw [List.flatMap_cons, List.append_assoc] at h
      have taken := congrArg unquoteChar h
      rw [unquoteChar_quoteChar, unquoteChar_quoteChar] at taken
      obtain ⟨rfl, more⟩ := Prod.mk.inj (Option.some.inj taken)
      obtain ⟨rfl, rest⟩ := ih more
      exact ⟨rfl, rest⟩

/-- **Quoted texts are told apart**, whatever follows them. -/
theorem quoteChars_append_inj {s t r r' : List Char}
    (h : quoteChars s ++ r = quoteChars t ++ r') : s = t ∧ r = r' := by
  simp only [quoteChars, List.cons_append, List.append_assoc, List.nil_append] at h
  exact flatMap_quoteChar_inj (List.cons.inj h).2

theorem toList_quote (s : String) : (quote s).toList = quoteChars s.toList := String.toList_ofList

theorem quote_inj {s t : String} : quote s = quote t ↔ s = t := by
  constructor
  · intro h
    have chars := congrArg String.toList h
    rw [toList_quote, toList_quote] at chars
    exact String.toList_inj.1 (quoteChars_append_inj (congrArg (· ++ []) chars)).1
  · rintro rfl
    rfl

/-! ### Written numbers -/

/-- What follows begins with a comma or a closing bracket, if it is anything at all. -/
def Ends (r : List Char) : Prop := ∀ c ∈ r.head?, c = ',' ∨ c = ']' ∨ c = '\x7d'

theorem append_inj_of_forall {p : Char → Bool} {s t r r' : List Char} (hs : ∀ c ∈ s, p c)
    (ht : ∀ c ∈ t, p c) (hr : ∀ c ∈ r.head?, ¬ p c) (hr' : ∀ c ∈ r'.head?, ¬ p c)
    (h : s ++ r = t ++ r') : s = t ∧ r = r' := by
  have cut : ∀ {u v : List Char}, (∀ c ∈ u, p c) → (∀ c ∈ v.head?, ¬ p c) →
      (u ++ v).takeWhile p = u := by
    intro u v hu hv
    rw [List.takeWhile_append_of_pos hu]
    cases v with
    | nil => exact List.append_nil u
    | cons c v => rw [List.takeWhile_cons_of_neg (hv c rfl), List.append_nil]
  have same : s = t := by rw [← cut hs hr, h, cut ht hr']
  subst same
  exact ⟨rfl, List.append_cancel_left h⟩

theorem Ends.not_number {r : List Char} (h : Ends r) :
    ∀ c ∈ r.head?, ¬ (c.isAlphanum || c == '.' || c == '+' || c == '-') := by
  intro c hc
  rcases h c hc with rfl | rfl | rfl <;> decide

end Lua

/-- **Written numbers are told apart**, up to the sign of zero, where a mark or nothing follows. -/
theorem Number.text_append_inj {x y : Number} {r r' : List Char} (hr : Lua.Ends r)
    (hr' : Lua.Ends r') (h : x.text.toList ++ r = y.text.toList ++ r') :
    x.unsigned = y.unsigned ∧ r = r' := by
  have plain : ∀ z : Number, ∀ c ∈ z.text.toList,
      c.isAlphanum || c == '.' || c == '+' || c == '-' := by
    intro z c hc
    simpa [or_assoc] using Number.mem_text hc
  obtain ⟨same, rest⟩ :=
    Lua.append_inj_of_forall (plain x) (plain y) hr.not_number hr'.not_number h
  exact ⟨Number.text_inj.1 (String.toList_inj.1 same), rest⟩

namespace Lua

/-! ### Tables of items -/

/-- Functions that tell the items of lists apart alike tell the lists apart alike. -/
theorem map_eq_map_congr {α β γ : Type} {f : α → β} {g : α → γ} {xs ys : List α}
    (h : ∀ x ∈ xs, ∀ y ∈ ys, f x = f y ↔ g x = g y) :
    xs.map f = ys.map f ↔ xs.map g = ys.map g := by
  induction xs generalizing ys with
  | nil => simp
  | cons x xs ih =>
    cases ys with
    | nil => simp
    | cons y ys =>
      rw [List.map_cons, List.map_cons, List.map_cons, List.map_cons, List.cons.injEq,
        List.cons.injEq, h x List.mem_cons_self y List.mem_cons_self,
        ih fun x hx y hy => h x (List.mem_cons_of_mem _ hx) y (List.mem_cons_of_mem _ hy)]

/-- Items that end by themselves where a mark or nothing follows, and begin with no brace. -/
structure Delimited (P : List Char → Prop) : Prop where
  cut : ∀ {s t r r'}, P s → P t → Ends r → Ends r' → s ++ r = t ++ r' → s = t ∧ r = r'
  opens : ∀ {s}, P s → ∃ c u, s = c :: u ∧ c ≠ '\x7d'

theorem delimited_quote : Delimited fun s => ∃ t : String, s = (quote t).toList where
  cut := by
    rintro _ _ r r' ⟨s, rfl⟩ ⟨t, rfl⟩ - - h
    rw [toList_quote, toList_quote] at h ⊢
    obtain ⟨same, rest⟩ := quoteChars_append_inj h
    rw [same]
    exact ⟨rfl, rest⟩
  opens := by
    rintro _ ⟨t, rfl⟩
    rw [toList_quote]
    exact ⟨'"', _, rfl, by decide⟩

theorem delimited_text : Delimited fun s => ∃ x : Number, s = x.text.toList where
  cut := by
    rintro _ _ r r' ⟨x, rfl⟩ ⟨y, rfl⟩ hr hr' h
    obtain ⟨same, rest⟩ := Number.text_append_inj hr hr' h
    rw [Number.text_inj.2 same]
    exact ⟨rfl, rest⟩
  opens := by
    rintro _ ⟨x, rfl⟩
    obtain ⟨c, u, chars⟩ := List.exists_cons_of_ne_nil x.text_ne_empty
    refine ⟨c, u, chars, ?_⟩
    rintro rfl
    have number := Number.mem_text (chars ▸ List.mem_cons_self)
    revert number
    decide

/-- Items behind the first one, each with a comma, and the brace that closes their table. -/
def closing (items : List (List Char)) : List Char :=
  items.flatMap (fun item => ',' :: ' ' :: item) ++ ['\x7d']

theorem closing_cons (item : List Char) (items : List (List Char)) :
    closing (item :: items) = ',' :: ' ' :: (item ++ closing items) := by
  simp [closing]

theorem ends_closing (items : List (List Char)) (r : List Char) : Ends (closing items ++ r) := by
  intro c hc
  cases items with
  | nil =>
    cases hc
    exact Or.inr (Or.inr rfl)
  | cons item items =>
    rw [closing_cons] at hc
    cases hc
    exact Or.inl rfl

theorem intercalate_cons (item : List Char) (items : List (List Char)) :
    [',', ' '].intercalate (item :: items) =
      item ++ items.flatMap fun item => ',' :: ' ' :: item := by
  induction items generalizing item with
  | nil => simp
  | cons next items ih =>
    rw [List.intercalate_cons_cons, ih, List.flatMap_cons]
    simp

theorem toList_listText (items : List String) :
    (listText items).toList = match items.map String.toList with
      | [] => ['\x7b', '\x7d']
      | item :: rest => '\x7b' :: (item ++ closing rest) := by
  rw [listText, String.toList_append, String.toList_append, String.toList_intercalate]
  cases items with
  | nil => rfl
  | cons item items =>
    rw [List.map_cons]
    show ('\x7b' :: [',', ' '].intercalate _) ++ ['\x7d'] = _
    rw [intercalate_cons]
    simp [closing]

section Tables

variable {P : List Char → Prop} (delimited : Delimited P)
include delimited

theorem closing_append_inj {xs ys : List (List Char)} {r r' : List Char} (hx : ∀ x ∈ xs, P x)
    (hy : ∀ y ∈ ys, P y) (h : closing xs ++ r = closing ys ++ r') : xs = ys ∧ r = r' := by
  induction xs generalizing ys with
  | nil =>
    cases ys with
    | nil => exact ⟨rfl, (List.cons.inj h).2⟩
    | cons y ys =>
      rw [closing_cons] at h
      exact absurd (List.cons.inj h).1 (by decide)
  | cons x xs ih =>
    cases ys with
    | nil =>
      rw [closing_cons] at h
      exact absurd (List.cons.inj h).1 (by decide)
    | cons y ys =>
      rw [closing_cons, closing_cons, List.cons_append, List.cons_append, List.cons_append,
        List.cons_append, List.append_assoc, List.append_assoc] at h
      obtain ⟨rfl, more⟩ := delimited.cut (hx x List.mem_cons_self) (hy y List.mem_cons_self)
        (ends_closing xs r) (ends_closing ys r') (List.cons.inj (List.cons.inj h).2).2
      obtain ⟨rfl, rest⟩ := ih (fun x hx' => hx x (List.mem_cons_of_mem _ hx'))
        (fun y hy' => hy y (List.mem_cons_of_mem _ hy')) more
      exact ⟨rfl, rest⟩

/-- **Tables are told apart** by their items, whatever follows them. -/
theorem listText_append_inj {xs ys : List String} {r r' : List Char}
    (hx : ∀ x ∈ xs, P x.toList) (hy : ∀ y ∈ ys, P y.toList)
    (h : (listText xs).toList ++ r = (listText ys).toList ++ r') : xs = ys ∧ r = r' := by
  rw [toList_listText, toList_listText] at h
  have items : ∀ {zs : List String}, (∀ z ∈ zs, P z.toList) → ∀ z ∈ zs.map String.toList, P z := by
    intro zs hz z hz'
    obtain ⟨z, mem, rfl⟩ := List.mem_map.1 hz'
    exact hz z mem
  suffices xs.map String.toList = ys.map String.toList ∧ r = r' from
    ⟨(List.map_inj_right fun _ _ => String.toList_inj.1).1 this.1, this.2⟩
  have hx := items hx
  have hy := items hy
  revert h hx hy
  -- An empty table closes at once, and no item begins with the brace that closes it.
  rcases xs.map String.toList with _ | ⟨x, xs⟩ <;> rcases ys.map String.toList with _ | ⟨y, ys⟩ <;>
    intro h hx hy
  · exact ⟨rfl, (List.cons.inj (List.cons.inj h).2).2⟩
  · obtain ⟨c, u, rfl, other⟩ := delimited.opens (hy y List.mem_cons_self)
    exact absurd (List.cons.inj (List.cons.inj h).2).1.symm other
  · obtain ⟨c, u, rfl, other⟩ := delimited.opens (hx x List.mem_cons_self)
    exact absurd (List.cons.inj (List.cons.inj h).2).1 other
  · have inner : x ++ closing xs ++ r = y ++ closing ys ++ r' := (List.cons.inj h).2
    rw [List.append_assoc, List.append_assoc] at inner
    obtain ⟨rfl, more⟩ := delimited.cut (hx x List.mem_cons_self) (hy y List.mem_cons_self)
      (ends_closing xs r) (ends_closing ys r') inner
    obtain ⟨rfl, rest⟩ := closing_append_inj delimited
      (fun x hx' => hx x (List.mem_cons_of_mem _ hx'))
      (fun y hy' => hy y (List.mem_cons_of_mem _ hy')) more
    exact ⟨rfl, rest⟩

end Tables

/-- Tables of texts are told apart by their items, whatever follows them. -/
theorem quotedList_append_inj {xs ys : List String} {r r' : List Char}
    (h : (quotedList xs).toList ++ r = (quotedList ys).toList ++ r') : xs = ys ∧ r = r' := by
  have quoted : ∀ zs : List String, ∀ z ∈ zs.map quote, ∃ t : String, z.toList = (quote t).toList := by
    intro zs z mem
    obtain ⟨t, -, rfl⟩ := List.mem_map.1 mem
    exact ⟨t, rfl⟩
  obtain ⟨same, rest⟩ := listText_append_inj delimited_quote (quoted xs) (quoted ys) h
  exact ⟨(List.map_inj_right fun _ _ => quote_inj.1).1 same, rest⟩

theorem quotedList_inj {xs ys : List String} : quotedList xs = quotedList ys ↔ xs = ys := by
  constructor
  · intro h
    exact (quotedList_append_inj (congrArg (fun s => s.toList ++ []) h)).1
  · rintro rfl
    rfl

/-- Tables of numbers are told apart by their items, up to the signs of zeros. -/
theorem listText_text_inj {xs ys : List Number} :
    listText (xs.map Number.text) = listText (ys.map Number.text) ↔
      xs.map Number.unsigned = ys.map Number.unsigned := by
  have numbers : ∀ zs : List Number, ∀ z ∈ zs.map Number.text,
      ∃ x : Number, z.toList = x.text.toList := by
    intro zs z mem
    obtain ⟨x, -, rfl⟩ := List.mem_map.1 mem
    exact ⟨x, rfl⟩
  rw [← map_eq_map_congr fun _ _ _ _ => Number.text_inj]
  constructor
  · intro h
    exact (listText_append_inj delimited_text (numbers xs) (numbers ys)
      (congrArg (fun s => s.toList ++ []) h)).1
  · intro h
    rw [h]

/-! ### Lines -/

/-- A text without line breaks. -/
def isLine (s : String) : Bool := s.toList.all fun c => !isLineBreak c

theorem isLine_iff {s : String} : isLine s ↔ ∀ c ∈ s.toList, isLineBreak c = false := by
  simp [isLine]

/-- For literals, whose characters are known without reading them out of a text. -/
theorem isLine_ofList {cs : List Char} (h : cs.all fun c => !isLineBreak c) :
    isLine (String.ofList cs) := by
  rw [isLine, String.toList_ofList]
  exact h

@[simp] theorem isLine_append (s t : String) : isLine (s ++ t) = (isLine s && isLine t) := by
  simp [isLine]

@[simp] theorem isLine_text (x : Number) : isLine x.text := by
  rw [isLine_iff]
  intro c hc
  rcases Number.mem_text hc with letter | rfl | rfl | rfl
  · -- Line breaks are controls, and so neither letters nor digits.
    rw [isLineBreak, Bool.or_eq_false_iff]
    constructor <;> rw [beq_eq_false_iff_ne] <;> rintro rfl <;> revert letter <;> decide
  all_goals decide

@[simp] theorem isLine_flag (b : Bool) : isLine (flag b) := by
  cases b <;> decide

theorem isLineBreak_of_mem_quoteChar {c d : Char} (h : d ∈ quoteChar c) :
    isLineBreak d = false := by
  have escaped : ∀ {c' : Char}, d ∈ ['\\', c'] → isLineBreak c' = false → isLineBreak d = false := by
    intro c' mem plain
    rcases List.mem_cons.1 mem with rfl | mem
    · rfl
    · rw [List.mem_singleton.1 mem]
      exact plain
  rw [quoteChar] at h
  split at h
  · next special => rcases special with rfl | rfl <;> exact escaped h rfl
  · split at h
    · exact escaped h rfl
    · split at h
      · next control =>
        have digits : ∀ n < 128, ('\\' :: threeDigits n).all fun d => !isLineBreak d := by
          decide +kernel
        have plain := List.all_eq_true.1 (digits c.toNat (by omega)) d h
        rwa [Bool.not_eq_true'] at plain
      · next control =>
        rw [List.mem_singleton.1 h, isLineBreak, Bool.or_eq_false_iff]
        constructor <;> rw [beq_eq_false_iff_ne] <;> rintro rfl <;> exact control (by decide)

@[simp] theorem isLine_quote (s : String) : isLine (quote s) := by
  rw [isLine_iff, toList_quote, quoteChars]
  intro c hc
  simp only [List.cons_append, List.mem_cons, List.mem_append, List.mem_flatMap] at hc
  rcases hc with rfl | ⟨d, -, hc⟩ | rfl | none
  · decide
  · exact isLineBreak_of_mem_quoteChar hc
  · decide
  · cases none

theorem isLine_listText {items : List String} (h : ∀ item ∈ items, isLine item) :
    isLine (listText items) := by
  have inner : isLine (", ".intercalate items) := by
    induction items with
    | nil => decide
    | cons item items ih =>
      have first := h item List.mem_cons_self
      have later := ih fun item hi => h item (List.mem_cons_of_mem _ hi)
      cases items with
      | nil => simpa using first
      | cons next items =>
        rw [String.intercalate_cons_cons, isLine_append, isLine_append, first, later]
        decide
  rw [listText, isLine_append, isLine_append, inner]
  decide

@[simp] theorem isLine_quotedList (items : List String) : isLine (quotedList items) :=
  isLine_listText fun item hi => by
    obtain ⟨s, -, rfl⟩ := List.mem_map.1 hi
    exact isLine_quote s

@[simp] theorem isLine_numbers (xs : List Number) : isLine (listText (xs.map Number.text)) :=
  isLine_listText fun item hi => by
    obtain ⟨x, -, rfl⟩ := List.mem_map.1 hi
    exact isLine_text x

/-- A text that is made of lines has these lines and no others. -/
theorem lines_inj {xs ys : List String} (hx : ∀ x ∈ xs, isLine x) (hy : ∀ y ∈ ys, isLine y)
    (some : xs ≠ []) (some' : ys ≠ []) (h : "\n".intercalate xs = "\n".intercalate ys) :
    xs = ys := by
  have split : ∀ zs : List String, (∀ z ∈ zs, isLine z) → zs ≠ [] →
      ("\n".intercalate zs).toList.splitOn '\n' = zs.map String.toList := by
    intro zs hz some
    rw [String.toList_intercalate]
    refine List.splitOn_intercalate _ (fun l hl => ?_) (by simpa using some)
    obtain ⟨z, mem, rfl⟩ := List.mem_map.1 hl
    intro feed
    have line := isLine_iff.1 (hz z mem) _ feed
    cases line
  refine (List.map_inj_right fun _ _ => String.toList_inj.1).1 ?_
  rw [← split xs hx some, h, split ys hy some']

end Lua

end SceneLogic
