/- module: SerialTiming/CLib/Numbers
   digest: atoi, and which texts it reads as a positive number. -/

import SerialTiming.CLib.Strings

set_option autoImplicit false
set_option relaxedAutoImplicit false

namespace SerialTiming.CLib.Numbers

open Strings

/-- The chars that atoi skips: blank, and tab to carriage return. -/
def isSpace (c : Char) : Bool := c == ' ' || (decide (9 ≤ c.toNat) && decide (c.toNat ≤ 13))

def digitsValue (cs : List Char) : Nat := Nat.ofDigitChars 10 (cs.takeWhile Char.isDigit) 0

/-- atoi on the chars before the terminator. -/
def atoi (cs : List Char) : Int :=
  match cs.dropWhile isSpace with
  | '-' :: rest => -(digitsValue rest : Int)
  | '+' :: rest => digitsValue rest
  | rest => digitsValue rest

/-- The text has white space, at most one plus sign, digits that spell `n`, and then anything but a digit. -/
def Spells (cs : List Char) (n : Nat) : Prop :=
  ∃ blanks sign digits rest : List Char, cs = blanks ++ (sign ++ (digits ++ rest)) ∧
    (∀ c ∈ blanks, isSpace c = true) ∧ (sign = [] ∨ sign = ['+']) ∧ (∀ c ∈ digits, c.isDigit = true) ∧
    (∀ c, rest.head? = some c → c.isDigit = false) ∧ Nat.ofDigitChars 10 digits 0 = n

private theorem takeWhile_block {p : Char → Bool} {block rest : List Char} (all : ∀ c ∈ block, p c = true)
    (ends : ∀ c, rest.head? = some c → p c = false) : (block ++ rest).takeWhile p = block := by
  rw [List.takeWhile_append_of_pos all]
  cases rest with
  | nil => exact List.append_nil block
  | cons c rest =>
      have stops := ends c rfl
      rw [List.takeWhile_cons_of_neg (by simp [stops]), List.append_nil]

private theorem dropWhile_block {p : Char → Bool} {block rest : List Char} (all : ∀ c ∈ block, p c = true)
    (ends : ∀ c, rest.head? = some c → p c = false) : (block ++ rest).dropWhile p = rest := by
  rw [List.dropWhile_append_of_pos all]
  cases rest with
  | nil => rfl
  | cons c rest =>
      have stops := ends c rfl
      exact List.dropWhile_cons_of_neg (by simp [stops])

private theorem dropWhile_ends (p : Char → Bool) (cs : List Char) :
    ∀ c, (cs.dropWhile p).head? = some c → p c = false := by
  induction cs with
  | nil =>
      intro c first
      cases first
  | cons d cs ih =>
      intro c first
      rw [List.dropWhile_cons] at first
      split at first
      · exact ih c first
      · rename_i stops
        obtain rfl := Option.some.inj first
        exact Bool.eq_false_of_not_eq_true stops

private theorem isDigit_isSpace {c : Char} (digit : c.isDigit = true) : isSpace c = false := by
  have range : 48 ≤ c.toNat := by
    simp only [Char.isDigit, Bool.and_eq_true, decide_eq_true_eq] at digit
    exact digit.1
  have other : c ≠ ' ' := by
    rintro rfl
    exact absurd digit (by decide)
  simp only [isSpace, Bool.or_eq_false_iff, beq_eq_false_iff_ne, Bool.and_eq_false_iff, decide_eq_false_iff_not]
  exact ⟨other, .inr (by omega)⟩

theorem spells_digitsValue {blanks sign cs : List Char} (spaces : ∀ c ∈ blanks, isSpace c = true)
    (plus : sign = [] ∨ sign = ['+']) : Spells (blanks ++ (sign ++ cs)) (digitsValue cs) := by
  refine ⟨blanks, sign, cs.takeWhile Char.isDigit, cs.dropWhile Char.isDigit, ?_, spaces, plus, ?_, ?_, rfl⟩
  · rw [List.takeWhile_append_dropWhile]
  · exact fun c among => List.mem_takeWhile_imp among
  · exact dropWhile_ends _ cs

/-- atoi gives a positive number exactly for the texts that spell it. -/
theorem atoi_positive {cs : List Char} {n : Nat} (positive : 0 < n) : atoi cs = n ↔ Spells cs n := by
  constructor
  · intro value
    have whole := List.takeWhile_append_dropWhile (p := isSpace) (l := cs)
    have spaces : ∀ c ∈ cs.takeWhile isSpace, isSpace c = true := fun c among => List.mem_takeWhile_imp among
    unfold atoi at value
    split at value
    · omega
    · rename_i rest number
      obtain rfl : digitsValue rest = n := by omega
      rw [← whole, number]
      exact spells_digitsValue spaces (.inr rfl)
    · obtain rfl : digitsValue (cs.dropWhile isSpace) = n := by omega
      have unsigned := @spells_digitsValue _ [] (cs.dropWhile isSpace) spaces (.inl rfl)
      rwa [List.nil_append, whole] at unsigned
  · rintro ⟨blanks, sign, digits, rest, rfl, spaces, plus, digital, ends, value⟩
    have some_digit : digits ≠ [] := by
      rintro rfl
      rw [Nat.ofDigitChars_nil] at value
      omega
    obtain ⟨d, more, rfl⟩ := List.exists_cons_of_ne_nil some_digit
    have first : d.isDigit = true := digital d List.mem_cons_self
    have number : digitsValue (d :: more ++ rest) = n := by
      rw [digitsValue, takeWhile_block digital ends, value]
    unfold atoi
    rcases plus with rfl | rfl
    · rw [List.nil_append, dropWhile_block spaces (by
        intro c here
        obtain rfl := Option.some.inj here
        exact isDigit_isSpace first)]
      have unsigned : d ≠ '-' ∧ d ≠ '+' := by
        constructor <;> rintro rfl <;> exact absurd first (by decide)
      split
      · rename_i sign
        exact absurd (List.cons.inj sign).1 unsigned.1
      · rename_i sign
        exact absurd (List.cons.inj sign).1 unsigned.2
      · rw [number]
    · rw [dropWhile_block spaces (by
        intro c here
        obtain rfl := Option.some.inj here
        decide)]
      show ((digitsValue (d :: more ++ rest) : Nat) : Int) = n
      rw [number]

theorem spells_decimal (n : Nat) : Spells (decimal n) n := by
  refine ⟨[], [], decimal n, [], by simp, by simp, .inl rfl, ?_, by simp, Nat.ofDigitChars_ten_toDigits⟩
  intro c among
  exact Nat.isDigit_of_mem_toDigits (by decide) (by decide) among

end SerialTiming.CLib.Numbers
