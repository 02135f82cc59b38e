/-
Texts in JSON.

Between the quotes of a text escapes stand between runs of characters that stand for themselves
(`Inside`).  A reader takes a run as it is (`codes?_unquoted`) and an escape for its code
(`Escape.reads`), so it finds the codes that the characters stand for (`Inside.reads`), and takes
nothing else for a text (`Inside.of_codes?`).  What is written between quotes stands for the codes
that were written (`inside_written`).
-/
import SceneLogic.Json.Parser
import SceneLogic.Json.Printer
import SceneLogic.Proofs.Text.Plain
namespace SceneLogic.Json

open Json.Parser

/-! ### Escapes -/

/-- An escape consists of plain characters and begins with a backslash. -/
theorem escape?_plain {n : Nat} {e : List Char} (h : escape? n = some e) :
    ∃ e', e = '\\' :: e' ∧ ∀ c ∈ e', Text.IsPlain c := by
  unfold escape? at h
  repeat' split at h
  all_goals cases h
  all_goals refine ⟨_, rfl, ?_⟩
  any_goals exact List.forall_mem_singleton.2 (by decide)
  have digits : ∀ d < 16, Text.IsPlain (Nat.digitChar d) := by decide
  have hex : ∀ m, Text.IsPlain (hexDigit m) := fun m => digits (m % 16) (Nat.mod_lt m (by decide))
  simp only [List.forall_mem_cons]
  exact ⟨by decide, hex _, hex _, hex _, hex _, List.forall_mem_nil _⟩

theorem hexValue?_hexDigit (n : Nat) : hexValue? (hexDigit n) = some (n % 16) := by
  have digits : ∀ d < 16, hexValue? (Nat.digitChar d) = some d := by decide
  exact digits (n % 16) (Nat.mod_lt n (by decide))

theorem hex4?_hexDigit {n : Nat} (h : n < 65536) :
    hex4? (hexDigit (n / 4096)) (hexDigit (n / 256)) (hexDigit (n / 16)) (hexDigit n) = some n := by
  simp only [hex4?, hexValue?_hexDigit, Option.bind_eq_bind, Option.bind_some, Option.pure_def,
    Option.some.injEq]
  omega

/-- An escape with the code that it stands for. -/
inductive Escape : List Char → Nat → Prop
  | letter {e c : Char} {n : Nat} : escaped? e = some c → c.toNat = n → Escape ['\\', e] n
  | hex {a b c d : Char} {n : Nat} : hex4? a b c d = some n → Escape ['\\', 'u', a, b, c, d] n

/-- What is written as an escape stands for its code. -/
theorem escape_of_escape? {n : Nat} {e : List Char} (h : escape? n = some e) : Escape e n := by
  unfold escape? at h
  repeat' split at h
  all_goals cases h
  any_goals (rename_i same; subst same; exact .letter rfl rfl)
  next small =>
    refine .hex (hex4?_hexDigit ?_)
    rcases small with control | half
    · omega
    · simp only [Text.isHalf, Text.isHigh, Text.isLow, Bool.or_eq_true, Bool.and_eq_true,
        decide_eq_true_eq] at half
      omega

/-- A reader takes an escape for its code. -/
theorem Escape.reads {e : List Char} {n : Nat} (escape : Escape e n) (read : List Nat)
    (plain rest : List Char) :
    codes? read plain (e ++ rest) = codes? (n :: withPlain read plain) [] rest := by
  cases escape with
  | hex value =>
    show codes? read plain ('\\' :: 'u' :: _ :: _ :: _ :: _ :: rest) = _
    rw [codes?, value]
  | letter stands code =>
    show codes? read plain ('\\' :: _ :: rest) = _
    rw [codes?, stands, ← code]
    · rintro a b c d rest' letter -
      -- The letter that four digits are to follow stands for nothing by itself.
      rw [letter] at stands
      cases stands

/-! ### Runs -/

/-- A character that stands in a text as it is. -/
def Unquoted (c : Char) : Prop := ¬ (c.toNat < 0x20 ∨ c = '\\') ∧ c ≠ '"'

theorem codes?_unquoted {cs : List Char} (h : ∀ c ∈ cs, Unquoted c) (read : List Nat)
    (plain rest : List Char) :
    codes? read plain (cs ++ rest) = codes? read (cs.reverse ++ plain) rest := by
  induction cs generalizing plain with
  | nil => rfl
  | cons c cs ih =>
    obtain ⟨⟨free, quote⟩, others⟩ := List.forall_mem_cons.1 h
    have back : c ≠ '\\' := fun same => free (.inr same)
    have taken : codes? read plain (c :: (cs ++ rest)) = codes? read (c :: plain) (cs ++ rest) := by
      conv => lhs; rw [codes?.eq_def]
      split
      · next same => cases same
      · next same => exact absurd (List.cons.inj same).1 quote
      · next same => exact absurd (List.cons.inj same).1 back
      · next same => exact absurd (List.cons.inj same).1 back
      · next same =>
        obtain ⟨rfl, rfl⟩ := List.cons.inj same
        rw [if_neg free]
    rw [List.cons_append, taken, ih others, List.reverse_cons, List.append_assoc]
    rfl

/-- What stands between the quotes of a text, with the codes that it stands for. -/
inductive Inside : List Char → List Nat → Prop
  | run {cs : List Char} : (∀ c ∈ cs, Unquoted c) → Inside cs (Text.codes cs)
  | escape {cs e s : List Char} {n : Nat} {ns : List Nat} : (∀ c ∈ cs, Unquoted c) →
      Escape e n → Inside s ns → Inside (cs ++ (e ++ s)) (Text.codes cs ++ n :: ns)

/-- A reader finds the codes that are meant, up to the closing quote. -/
theorem Inside.reads {s : List Char} {ns : List Nat} (inside : Inside s ns) (read : List Nat)
    (rest : List Char) : codes? read [] (s ++ '"' :: rest) = some (read.reverse ++ ns, rest) := by
  induction inside generalizing read with
  | run unquoted =>
    rw [codes?_unquoted unquoted]
    show some ((withPlain read _).reverse, rest) = _
    rw [withPlain, List.append_nil, List.reverse_reverse, List.reverse_append,
      List.reverse_reverse]
  | escape unquoted escape _ ih =>
    rw [List.append_assoc, List.append_assoc, codes?_unquoted unquoted, escape.reads, ih]
    simp [withPlain]

/-- What is read up to a closing quote stands for the codes that are found. -/
theorem Inside.of_codes? {read ns : List Nat} {plain s rest : List Char}
    (h : codes? read plain s = some (ns, rest)) (run : ∀ c ∈ plain, Unquoted c) :
    ∃ t ms, s = t ++ '"' :: rest ∧ Inside (plain.reverse ++ t) ms ∧ ns = read.reverse ++ ms := by
  have unquoted : ∀ {plain : List Char}, (∀ c ∈ plain, Unquoted c) →
      ∀ c ∈ plain.reverse, Unquoted c := fun run c hc => run c (List.mem_reverse.1 hc)
  fun_induction codes? read plain s with
  | case1 | case4 | case6 | case7 => cases h
  | case2 read plain rest =>
    -- The run that was read comes to an end.
    cases h
    refine ⟨[], _, rfl, .run ?_, ?_⟩
    · rw [List.append_nil]
      exact unquoted run
    · rw [withPlain, List.append_nil, List.reverse_append, List.reverse_reverse]
  | case3 read plain a b c d s n value ih =>
    obtain ⟨t, ms, rfl, inside, rfl⟩ := ih h (List.forall_mem_nil _)
    exact ⟨'\\' :: 'u' :: a :: b :: c :: d :: t, _, rfl,
      .escape (unquoted run) (.hex value) inside, by simp [withPlain]⟩
  | case5 read plain e s _ c stands ih =>
    obtain ⟨t, ms, rfl, inside, rfl⟩ := ih h (List.forall_mem_nil _)
    exact ⟨'\\' :: e :: t, _, rfl, .escape (unquoted run) (.letter stands rfl) inside,
      by simp [withPlain]⟩
  | case8 read plain c s quote _ _ free ih =>
    -- The character joins the run.
    obtain ⟨t, ms, rfl, inside, rfl⟩ := ih h (List.forall_mem_cons.2 ⟨⟨free, quote⟩, run⟩)
    rw [List.reverse_cons, List.append_assoc] at inside
    exact ⟨c :: t, ms, rfl, inside, rfl⟩

/-- A code that is written as it is. -/
def IsBare (n : Nat) : Prop := n.isValidChar ∧ escape? n = none

theorem IsBare.unquoted {n : Nat} (h : IsBare n) : Unquoted (Char.ofNat n) ∧ Text.isHalf n = false := by
  obtain ⟨valid, free⟩ := h
  unfold escape? at free
  repeat' split at free
  all_goals cases free
  next quote back _ _ _ _ _ small =>
    have code := Text.toNat_ofNat valid
    rw [not_or] at small
    refine ⟨⟨?_, ?_⟩, by simpa using small.2⟩
    · rw [not_or, code]
      refine ⟨small.1, fun same => back ?_⟩
      rw [← code, same]
    · intro same
      apply quote
      rw [← code, same]

theorem mem_spellBehind {afterHigh : Bool} {marks : Nat} {ns : List Nat}
    (whole : ∀ n ∈ ns, Text.isHalf n = false) {c : Char}
    (h : c ∈ Text.spellBehind afterHigh marks ns) : c = Text.mark ∨ ∃ n ∈ ns, c = Char.ofNat n := by
  induction ns generalizing afterHigh marks with
  | nil => exact .inl (List.eq_of_mem_replicate h)
  | cons n ns ih =>
    obtain ⟨first, others⟩ := List.forall_mem_cons.1 whole
    have later : ∀ {a m}, c ∈ Text.spellBehind a m ns →
        c = Text.mark ∨ ∃ k ∈ n :: ns, c = Char.ofNat k := by
      intro a m mem
      refine (ih others mem).imp_right ?_
      rintro ⟨k, hk, same⟩
      exact ⟨k, List.mem_cons_of_mem _ hk, same⟩
    have here : ∀ {a m count}, c ∈ List.replicate count Text.mark ++
        Char.ofNat n :: Text.spellBehind a m ns →
        c = Text.mark ∨ ∃ k ∈ n :: ns, c = Char.ofNat k := by
      intro a m count mem
      rcases List.mem_append.1 mem with marked | mem
      · exact .inl (List.eq_of_mem_replicate marked)
      · rcases List.mem_cons.1 mem with same | mem
        · exact .inr ⟨n, List.mem_cons_self, same⟩
        · exact later mem
    rw [Text.spellBehind] at h
    split at h
    · exact later h
    · rw [if_neg (by simp [first])] at h
      split at h
      · exact here h
      · exact here h

/-- Bare codes are spelled by characters that stand as they are, and are the codes of them. -/
theorem spell_bare {ps : List Nat} (bare : ∀ n ∈ ps, IsBare n) :
    (∀ c ∈ Text.spell ps, Unquoted c) ∧ Text.codes (Text.spell ps) = ps := by
  constructor
  · intro c hc
    rcases mem_spellBehind (fun n hn => (bare n hn).unquoted.2) hc with rfl | ⟨n, hn, rfl⟩
    · exact ⟨by decide, by decide⟩
    · exact (bare n hn).unquoted.1
  · have codes : ∀ {afterHigh : Bool} {ns : List Nat}, (∀ n ∈ ns, IsBare n) →
        Text.AreCodes afterHigh ns := by
      intro afterHigh ns h
      induction ns generalizing afterHigh with
      | nil => trivial
      | cons n ns ih =>
        obtain ⟨first, others⟩ := List.forall_mem_cons.1 h
        refine ⟨?_, ih others⟩
        rw [Text.IsCode, first.unquoted.2]
        exact first.1
    exact Text.codes_spell (codes bare)

/-- What is written stands for the codes that were to be written. -/
theorem inside_written {ns ps : List Nat} (bare : ∀ n ∈ ps, IsBare n)
    (valid : ∀ n ∈ ns, Text.isHalf n ∨ n.isValidChar) :
    Inside (Text.spell (ps ++ ns.flatMap escape)) (ps ++ ns) := by
  induction ns generalizing ps with
  | nil =>
    obtain ⟨unquoted, codes⟩ := spell_bare bare
    have run := Inside.run unquoted
    rw [codes] at run
    rwa [List.flatMap_nil, List.append_nil]
  | cons n ns ih =>
    obtain ⟨first, others⟩ := List.forall_mem_cons.1 valid
    rw [List.flatMap_cons, escape]
    cases escaped : escape? n with
    | none =>
      -- The code joins the run before it.
      have whole : n.isValidChar := by
        refine first.resolve_left fun half => ?_
        unfold escape? at escaped
        repeat' split at escaped
        all_goals cases escaped
        next small => exact small (.inr half)
      have more : ∀ m ∈ ps ++ [n], IsBare m := by
        intro m hm
        rcases List.mem_append.1 hm with before | last
        · exact bare m before
        · rw [List.mem_singleton.1 last]
          exact ⟨whole, escaped⟩
      have run := ih more others
      rw [List.append_assoc, List.append_assoc] at run
      exact run
    | some e =>
      -- The escape ends the run, and another one begins behind it.
      obtain ⟨unquoted, codes⟩ := spell_bare bare
      obtain ⟨e', rfl, plain⟩ := escape?_plain escaped
      have parts : Text.spell (ps ++ (('\\' :: e').map Char.toNat ++ ns.flatMap escape)) =
          Text.spell ps ++ (('\\' :: e') ++ Text.spell (ns.flatMap escape)) := by
        rw [List.map_cons, List.cons_append, Text.spell_append_cons (by decide),
          Text.spell_append plain]
        rfl
      have behind := Inside.escape unquoted (escape_of_escape? escaped)
        (ih (List.forall_mem_nil _) others)
      rw [codes] at behind
      show Inside (Text.spell (ps ++ (('\\' :: e').map Char.toNat ++ ns.flatMap escape))) _
      rw [parts]
      exact behind

theorem valid_of_areCodes {afterHigh : Bool} {ns : List Nat} (h : Text.AreCodes afterHigh ns) :
    ∀ n ∈ ns, Text.isHalf n ∨ n.isValidChar := by
  induction ns generalizing afterHigh with
  | nil => exact List.forall_mem_nil _
  | cons n ns ih =>
    obtain ⟨first, others⟩ := h
    rw [List.forall_mem_cons]
    refine ⟨?_, ih others⟩
    unfold Text.IsCode at first
    split at first
    · next half => exact .inl half
    · exact .inr first

/-- Between its quotes a quoted text stands for its codes. -/
theorem inside_quote (s : String) :
    ∃ inner, quote s = '"' :: (inner ++ ['"']) ∧ Inside inner (Text.codes s.toList) :=
  ⟨_, rfl, inside_written (List.forall_mem_nil _) (valid_of_areCodes (Text.areCodes_codes s.toList))⟩

/-- The text of codes that stand between quotes is read. -/
theorem Inside.text? {s : List Char} {ns : List Nat} (inside : Inside s ns) (rest : List Char) :
    Parser.text? (s ++ '"' :: rest) = some (String.ofList (Text.ofCodes ns), rest) := by
  rw [Parser.text?, inside.reads]
  rfl

theorem Inside.of_text? {s rest : List Char} {t : String}
    (read : Parser.text? s = some (t, rest)) :
    ∃ inner ns, s = inner ++ '"' :: rest ∧ Inside inner ns ∧
      t = String.ofList (Text.ofCodes ns) := by
  obtain ⟨⟨ns, behind⟩, found, same⟩ := Option.map_eq_some_iff.1 read
  cases same
  obtain ⟨inner, ms, rfl, inside, rfl⟩ := of_codes? found (List.forall_mem_nil _)
  exact ⟨inner, _, rfl, inside, rfl⟩

end SceneLogic.Json
