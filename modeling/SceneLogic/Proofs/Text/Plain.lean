/-
Characters that stand for themselves.

Characters below the stand-ins are their own codes.  Codes with theirs in between are spelled in
parts (`spell_append_cons`), and read in parts (`codes_append_cons`), since nothing before such a
character depends on what comes behind it.
Characters of ASCII are their own bytes as well (`byteChars_encode_append`).
-/
import SceneLogic.Text.Bytes
namespace SceneLogic.Text

/-- A character below all stand-ins and the mark. -/
def IsPlain (c : Char) : Prop := c.toNat < 0x100000

instance : DecidablePred IsPlain := fun c => inferInstanceAs (Decidable (c.toNat < 0x100000))

namespace IsPlain

variable {c : Char}

theorem half? (h : IsPlain c) : half? c = none := by
  rw [Text.half?, if_neg]
  intro stands
  exact absurd stands.1 (by rw [IsPlain] at h; omega)

theorem ne_mark (h : IsPlain c) : c ≠ mark := by
  rintro rfl
  exact absurd h (by decide)

theorem toNat_ne_mark (h : IsPlain c) : c.toNat ≠ mark.toNat :=
  fun same => h.ne_mark (Char.toNat_inj.1 same)

end IsPlain

theorem codesBehind_cons {c : Char} (h : IsPlain c) (afterHigh : Bool) (marks : Nat)
    (s : List Char) :
    codesBehind afterHigh marks (c :: s) =
      List.replicate marks mark.toNat ++ c.toNat :: codes s := by
  rw [codesBehind, if_neg h.ne_mark, h.half?]
  rfl

theorem codes_cons {c : Char} (h : IsPlain c) (s : List Char) : codes (c :: s) = c.toNat :: codes s :=
  codesBehind_cons h false 0 s

theorem codes_append {p : List Char} (h : ∀ c ∈ p, IsPlain c) (s : List Char) :
    codes (p ++ s) = p.map Char.toNat ++ codes s := by
  induction p with
  | nil => rfl
  | cons c p ih =>
    obtain ⟨first, others⟩ := List.forall_mem_cons.1 h
    rw [List.cons_append, codes_cons first, ih others]
    rfl

/-- Characters before a plain one spell their codes as if nothing followed. -/
theorem codesBehind_append_cons {c : Char} (h : IsPlain c) (afterHigh : Bool) (marks : Nat)
    (p s : List Char) :
    codesBehind afterHigh marks (p ++ c :: s) = codesBehind afterHigh marks p ++ c.toNat :: codes s := by
  induction p generalizing afterHigh marks with
  | nil => exact codesBehind_cons h afterHigh marks s
  | cons d p ih =>
    rw [List.cons_append, codesBehind, codesBehind]
    split
    · exact ih afterHigh (marks + 1)
    · split
      · rw [ih, List.append_assoc]
        rfl
      · split <;> rw [ih, List.append_assoc] <;> rfl

theorem codes_append_cons {c : Char} (h : IsPlain c) (p s : List Char) :
    codes (p ++ c :: s) = codes p ++ c.toNat :: codes s :=
  codesBehind_append_cons h false 0 p s

theorem spellBehind_cons {c : Char} (h : IsPlain c) (afterHigh : Bool) (marks : Nat)
    (ns : List Nat) :
    spellBehind afterHigh marks (c.toNat :: ns) = List.replicate marks mark ++ c :: spell ns := by
  have whole : ¬ isHalf c.toNat := by simp [isHalf_toNat]
  rw [spellBehind, if_neg h.toNat_ne_mark, if_neg whole]
  simp only [Char.ofNat_toNat, h.half?]
  rfl

/-- Codes before the code of a plain character are spelled as if nothing followed. -/
theorem spellBehind_append_cons {c : Char} (h : IsPlain c) (afterHigh : Bool) (marks : Nat)
    (ms ns : List Nat) :
    spellBehind afterHigh marks (ms ++ c.toNat :: ns) =
      spellBehind afterHigh marks ms ++ c :: spell ns := by
  induction ms generalizing afterHigh marks with
  | nil => exact spellBehind_cons h afterHigh marks ns
  | cons m ms ih =>
    rw [List.cons_append, spellBehind, spellBehind]
    split
    · exact ih afterHigh (marks + 1)
    · split
      · rw [ih, List.append_assoc]
        rfl
      · split <;> rw [ih, List.append_assoc] <;> rfl

theorem spell_append_cons {c : Char} (h : IsPlain c) (ms ns : List Nat) :
    spell (ms ++ c.toNat :: ns) = spell ms ++ c :: spell ns :=
  spellBehind_append_cons h false 0 ms ns

theorem spell_append {p : List Char} (h : ∀ c ∈ p, IsPlain c) (ns : List Nat) :
    spell (p.map Char.toNat ++ ns) = p ++ spell ns := by
  induction p with
  | nil => rfl
  | cons c p ih =>
    obtain ⟨first, others⟩ := List.forall_mem_cons.1 h
    have apart := spell_append_cons first [] (p.map Char.toNat ++ ns)
    rw [ih others] at apart
    exact apart

/-! ### Bytes -/

theorem byteChars_encode_cons {c : Char} (h : c.toNat < 0x80) (s : List Char) :
    byteChars (encode (c :: s)) = c :: byteChars (encode s) := by
  have plain : IsPlain c := by
    rw [IsPlain]
    omega
  have byte : c.toNat.toUInt8.toNat = c.toNat := by
    rw [Nat.toUInt8_eq, UInt8.toNat_ofNat']
    omega
  rw [encode, codes_cons plain, List.flatMap_cons, codeBytes, if_pos h]
  show Char.ofNat c.toNat.toUInt8.toNat :: _ = _
  rw [byte, Char.ofNat_toNat]
  rfl

theorem byteChars_encode_append {p : List Char} (h : p.all (·.toNat < 0x80)) (s : List Char) :
    byteChars (encode (p ++ s)) = p ++ byteChars (encode s) := by
  induction p with
  | nil => rfl
  | cons c p ih =>
    rw [List.all_cons, Bool.and_eq_true] at h
    rw [List.cons_append, byteChars_encode_cons (of_decide_eq_true h.1), ih h.2]
    rfl

end SceneLogic.Text
