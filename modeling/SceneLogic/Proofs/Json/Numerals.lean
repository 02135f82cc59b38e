/-
Numerals in JSON.

A numeral has digits, which begin with a zero only if that is the only one before the point, a part
behind the point and an exponent, and it may have a minus.  A reader takes numerals and nothing else
(`Numeral.of_number?`), each of them as far as it goes: so it takes a numeral where it ends before
something that no numeral goes on with (`Numeral.reads`).
-/
import Mathlib.Data.List.TakeWhile
import SceneLogic.Json.Parser
namespace SceneLogic.Json

open Json.Parser

/-! ### The grammar -/

/-- Decimal digits, at least one. -/
def AreDigits (s : List Char) : Prop := s ≠ [] ∧ ∀ c ∈ s, c.isDigit

/-- The digits before the point: a zero, or digits that do not begin with one. -/
inductive Whole : List Char → Prop
  | zero : Whole ['0']
  | digits {c : Char} {s : List Char} : c ≠ '0' → AreDigits (c :: s) → Whole (c :: s)

/-- The part behind the point with its digits, which may be missing. -/
inductive Fraction : List Char → List Char → Prop
  | none : Fraction [] []
  | digits {s : List Char} : AreDigits s → Fraction ('.' :: s) s

/-- A sign, which may be missing; true for a minus. -/
inductive Sign : List Char → Bool → Prop
  | none : Sign [] false
  | plus : Sign ['+'] false
  | minus : Sign ['-'] true

/-- The exponent, which may be missing. -/
inductive Exponent : List Char → Int → Prop
  | none : Exponent [] 0
  | digits {e : Char} {sign s : List Char} {negative : Bool} : e = 'e' ∨ e = 'E' →
      Sign sign negative → AreDigits s →
      Exponent (e :: (sign ++ s))
        (if negative then -(Number.ofDigits s : Int) else Number.ofDigits s)

/-- A numeral without a minus, with what it says. -/
inductive Magnitude : List Char → Decimal → Prop
  | mk {whole fraction exponent ds : List Char} {e : Int} : Whole whole → Fraction fraction ds →
      Exponent exponent e →
      Magnitude (whole ++ fraction ++ exponent)
        ⟨Number.ofDigits (whole ++ ds), e - ds.length⟩

/-- A numeral with the number that it names. -/
inductive Numeral : List Char → Number → Prop
  | positive {s : List Char} {d : Decimal} : Magnitude s d → Numeral s (d.toNumber false)
  | negative {s : List Char} {d : Decimal} : Magnitude s d → Numeral ('-' :: s) (d.toNumber true)

variable {s rest ds whole fraction exponent : List Char} {e : Int} {d : Decimal} {x : Number}

/-! ### What is read is a numeral -/

theorem AreDigits.of_digits? (read : digits? s = some (ds, rest)) :
    s = ds ++ rest ∧ AreDigits ds := by
  rw [digits?] at read
  split at read
  · cases read
  · next some =>
    cases read
    refine ⟨List.takeWhile_append_dropWhile.symm, ?_, ?_⟩
    · intro none
      exact some none
    · intro c hc
      exact List.mem_takeWhile_imp hc

theorem Whole.of_whole? (read : whole? s = some (whole, rest)) : s = whole ++ rest ∧ Whole whole := by
  unfold whole? at read
  split at read
  · cases read
    exact ⟨rfl, .zero⟩
  · next other =>
    obtain ⟨rfl, digits⟩ := AreDigits.of_digits? read
    refine ⟨rfl, ?_⟩
    cases whole with
    | nil => exact absurd rfl digits.1
    | cons c s =>
      refine .digits (fun zero => ?_) digits
      subst zero
      exact other _ rfl

theorem Fraction.of_fraction? (read : fraction? s = some (ds, rest)) :
    ∃ fraction, s = fraction ++ rest ∧ Fraction fraction ds := by
  unfold fraction? at read
  split at read
  · obtain ⟨rfl, digits⟩ := AreDigits.of_digits? read
    exact ⟨'.' :: ds, rfl, .digits digits⟩
  · cases read
    exact ⟨[], rfl, .none⟩

theorem Sign.of_takeSign {negative : Bool} (taken : Number.takeSign s = (negative, rest)) :
    ∃ sign, s = sign ++ rest ∧ Sign sign negative := by
  unfold Number.takeSign at taken
  split at taken
  all_goals cases taken
  · exact ⟨['-'], rfl, .minus⟩
  · exact ⟨['+'], rfl, .plus⟩
  · exact ⟨[], rfl, .none⟩

theorem Exponent.of_exponent? (read : exponent? s = some (e, rest)) :
    ∃ exponent, s = exponent ++ rest ∧ Exponent exponent e := by
  unfold exponent? at read
  split at read
  · next c rest' =>
    split at read
    · next mark =>
      rcases taken : Number.takeSign rest' with ⟨negative, behind⟩
      rw [taken] at read
      obtain ⟨sign, rfl, isSign⟩ := Sign.of_takeSign taken
      obtain ⟨⟨ds, behind⟩, taken, same⟩ := Option.map_eq_some_iff.1 read
      obtain ⟨rfl, digits⟩ := AreDigits.of_digits? taken
      cases same
      exact ⟨c :: (sign ++ ds), by simp, .digits mark isSign digits⟩
    · cases read
      exact ⟨[], rfl, .none⟩
  · cases read
    exact ⟨[], rfl, .none⟩

theorem Magnitude.of_magnitude? (read : magnitude? s = some (d, rest)) :
    ∃ t, s = t ++ rest ∧ Magnitude t d := by
  rw [magnitude?] at read
  simp only [Option.bind_eq_bind, Option.bind_eq_some_iff, Option.pure_def, Option.some.injEq,
    Prod.mk.injEq, Prod.exists] at read
  obtain ⟨whole, s₁, first, ds, s₂, second, e, s₃, third, rfl, rfl⟩ := read
  obtain ⟨rfl, isWhole⟩ := Whole.of_whole? first
  obtain ⟨fraction, rfl, isFraction⟩ := Fraction.of_fraction? second
  obtain ⟨exponent, rfl, isExponent⟩ := Exponent.of_exponent? third
  exact ⟨whole ++ fraction ++ exponent, by simp, .mk isWhole isFraction isExponent⟩

/-- What is read as a number is a numeral that names it. -/
theorem Numeral.of_number? (read : Parser.number? s = some (x, rest)) :
    ∃ t, s = t ++ rest ∧ Numeral t x := by
  unfold Parser.number? at read
  split at read
  all_goals
    obtain ⟨⟨d, behind⟩, taken, same⟩ := Option.map_eq_some_iff.1 read
    cases same
    obtain ⟨t, rfl, isMagnitude⟩ := Magnitude.of_magnitude? taken
  · exact ⟨'-' :: t, rfl, .negative isMagnitude⟩
  · exact ⟨t, rfl, .positive isMagnitude⟩

/-! ### Numerals are read -/

/-- Characters do not begin with one that passes a test. -/
def Stops (test : Char → Bool) (s : List Char) : Prop := ∀ c ∈ s.head?, test c = false

theorem Stops.cons {test : Char → Bool} {c : Char} (out : test c = false) (s : List Char) :
    Stops test (c :: s) := by
  rintro _ ⟨⟩
  exact out

theorem Stops.imp {test test' : Char → Bool} (weaker : ∀ c, test' c → test c)
    (stops : Stops test s) : Stops test' s := by
  intro c first
  have out := stops c first
  cases passes : test' c with
  | false => rfl
  | true => rw [weaker c passes] at out; cases out

theorem AreDigits.reads (digits : AreDigits ds) (stops : Stops Char.isDigit rest) :
    digits? (ds ++ rest) = some (ds, rest) := by
  obtain ⟨some, all⟩ := digits
  have taken : rest.takeWhile Char.isDigit = [] ∧ rest.dropWhile Char.isDigit = rest := by
    cases rest with
    | nil => exact ⟨rfl, rfl⟩
    | cons c rest =>
      have out : ¬ c.isDigit := by
        rw [stops c rfl]
        exact Bool.false_ne_true
      exact ⟨List.takeWhile_cons_of_neg out, List.dropWhile_cons_of_neg out⟩
  rw [digits?, List.takeWhile_append_of_pos all, List.dropWhile_append_of_pos all, taken.1,
    taken.2, List.append_nil]
  cases ds with
  | nil => exact absurd rfl some
  | cons c ds => rfl

theorem Whole.reads (isWhole : Whole whole) (stops : Stops Char.isDigit rest) :
    whole? (whole ++ rest) = some (whole, rest) := by
  cases isWhole with
  | zero => rfl
  | digits first digits =>
    rw [List.cons_append, whole?]
    · exact digits.reads stops
    · intro rest' zero
      exact first (List.cons.inj zero).1

theorem Fraction.reads (isFraction : Fraction fraction ds)
    (stops : Stops (fun c => c.isDigit || c == '.') rest) :
    fraction? (fraction ++ rest) = some (ds, rest) := by
  cases isFraction with
  | none =>
    rw [List.nil_append]
    unfold fraction?
    split
    · next rest' =>
      have out := stops '.' rfl
      cases out
    · rfl
  | digits digits => exact digits.reads (stops.imp fun c isDigit => by simp [isDigit])

/-- A sign is taken off what does not begin with one. -/
theorem Sign.reads {sign : List Char} {negative : Bool} (isSign : Sign sign negative)
    (stops : Stops (fun c => c == '+' || c == '-') rest) :
    Number.takeSign (sign ++ rest) = (negative, rest) := by
  cases isSign with
  | plus | minus => rfl
  | none =>
    rw [List.nil_append]
    unfold Number.takeSign
    split
    · next rest' =>
      have out := stops '-' rfl
      cases out
    · next rest' =>
      have out := stops '+' rfl
      cases out
    · rfl

theorem AreDigits.stops_append (digits : AreDigits ds) {test : Char → Bool}
    (out : ∀ c, c.isDigit → test c = false) (rest : List Char) : Stops test (ds ++ rest) := by
  obtain ⟨some, all⟩ := digits
  cases ds with
  | nil => exact absurd rfl some
  | cons c ds => exact .cons (out c (all c List.mem_cons_self)) _

theorem Exponent.reads (isExponent : Exponent exponent e)
    (stops : Stops (fun c => c.isDigit || (c == 'e' || c == 'E')) rest) :
    exponent? (exponent ++ rest) = some (e, rest) := by
  cases isExponent with
  | none =>
    rw [List.nil_append]
    unfold exponent?
    split
    · next c rest' =>
      have out := stops c rfl
      have mark : ¬ (c = 'e' ∨ c = 'E') := by
        rintro (rfl | rfl)
        · cases out
        · cases out
      rw [if_neg mark]
    · rfl
  | digits mark isSign digits =>
    have unsigned : ∀ c : Char, c.isDigit → (c == '+' || c == '-') = false := by
      intro c isDigit
      rw [Bool.or_eq_false_iff, beq_eq_false_iff_ne, beq_eq_false_iff_ne]
      constructor
      · rintro rfl
        cases isDigit
      · rintro rfl
        cases isDigit
    rw [List.cons_append, exponent?, if_pos mark, List.append_assoc,
      isSign.reads (digits.stops_append unsigned rest)]
    dsimp only
    rw [digits.reads (stops.imp fun c isDigit => by simp [isDigit])]
    rfl

/-- No part of a numeral begins with what the one before it may go on with. -/
theorem Fraction.stops_append (isFraction : Fraction fraction ds)
    (stops : Stops Char.isDigit rest) : Stops Char.isDigit (fraction ++ rest) := by
  cases isFraction with
  | none => exact stops
  | digits digits => exact .cons rfl _

theorem Exponent.stops_append (isExponent : Exponent exponent e)
    (stops : Stops (fun c => c.isDigit || c == '.') rest) :
    Stops (fun c => c.isDigit || c == '.') (exponent ++ rest) := by
  cases isExponent with
  | none => exact stops
  | digits mark isSign digits =>
    refine .cons ?_ _
    rcases mark with rfl | rfl <;> rfl

/-- A character with which a numeral may go on. -/
def continuesNumeral (c : Char) : Bool := c.isDigit || c == '.' || (c == 'e' || c == 'E')

theorem Magnitude.reads (isMagnitude : Magnitude s d) (stops : Stops continuesNumeral rest) :
    magnitude? (s ++ rest) = some (d, rest) := by
  obtain ⟨isWhole, isFraction, isExponent⟩ := isMagnitude
  have pointless : Stops (fun c => c.isDigit || c == '.') rest :=
    stops.imp fun c h => Bool.or_eq_true_iff.2 (.inl h)
  have behind := isExponent.stops_append pointless
  have first := isWhole.reads (isFraction.stops_append (behind.imp fun c h => by simp [h]))
  have ends : Stops (fun c => c.isDigit || (c == 'e' || c == 'E')) rest := by
    refine stops.imp fun c h => ?_
    rw [continuesNumeral, Bool.or_assoc, Bool.or_left_comm, h, Bool.or_true]
  have third := isExponent.reads ends
  rw [magnitude?, List.append_assoc, List.append_assoc, first]
  simp only [Option.bind_eq_bind, Option.bind_some, isFraction.reads behind, third,
    Option.pure_def]

theorem Magnitude.head (isMagnitude : Magnitude s d) : ∃ c s', s = c :: s' ∧ c.isDigit := by
  obtain ⟨isWhole, -, -⟩ := isMagnitude
  cases isWhole with
  | zero => exact ⟨'0', _, rfl, rfl⟩
  | digits _ digits => exact ⟨_, _, rfl, digits.2 _ List.mem_cons_self⟩

/-- A numeral begins with a digit or a minus. -/
theorem Numeral.head (isNumeral : Numeral s x) :
    ∃ c s', s = c :: s' ∧ (c.isDigit ∨ c = '-') := by
  cases isNumeral with
  | negative => exact ⟨'-', _, rfl, .inr rfl⟩
  | positive isMagnitude =>
    obtain ⟨c, s', begins, digit⟩ := isMagnitude.head
    exact ⟨c, s', begins, .inl digit⟩

/-- **A numeral is read** where nothing comes behind it that a numeral may go on with. -/
theorem Numeral.reads (isNumeral : Numeral s x) (stops : Stops continuesNumeral rest) :
    Parser.number? (s ++ rest) = some (x, rest) := by
  cases isNumeral with
  | negative isMagnitude =>
    rw [List.cons_append, Parser.number?, isMagnitude.reads stops]
    rfl
  | positive isMagnitude =>
    have read := isMagnitude.reads stops
    obtain ⟨c, s', rfl, digit⟩ := isMagnitude.head
    rw [List.cons_append] at read ⊢
    rw [Parser.number?, read]
    · rfl
    · rintro s minus
      rw [(List.cons.inj minus).1] at digit
      cases digit

end SceneLogic.Json
