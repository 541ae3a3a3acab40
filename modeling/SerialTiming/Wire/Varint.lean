/- module: SerialTiming/Wire/Varint
   digest: Numbers as groups of seven bits, the lowest first, where a mark says that another group follows. -/

import Mathlib

set_option autoImplicit false
set_option relaxedAutoImplicit false

namespace SerialTiming.Wire.Varint

def marked (b : UInt8) : Bool := b &&& 0x80 != 0

def bits (b : UInt8) : Nat := (b &&& 0x7F).toNat

/-- The groups of a number; the writer stops after `k` of them. -/
def encode : Nat → Nat → List UInt8
  | 0, _ => []
  | k + 1, n =>
      if n / 128 = 0 then [UInt8.ofNat (n % 128)]
      else (UInt8.ofNat (n % 128) ||| 0x80) :: encode k (n / 128)

/-- The number that groups stand for. -/
def value : List UInt8 → Nat
  | [] => 0
  | b :: bs => bits b + 128 * value bs

/-- Groups of which the last, and no other, is not marked. -/
def Ended : List UInt8 → Prop
  | [] => False
  | b :: bs => if marked b then Ended bs else bs = []

private theorem last_group (m : Fin 128) : marked (UInt8.ofNat m.val) = false ∧ bits (UInt8.ofNat m.val) = m.val := by
  have table : ∀ m : Fin 128, marked (UInt8.ofNat m.val) = false ∧ bits (UInt8.ofNat m.val) = m.val := by decide
  exact table m

private theorem more_group (m : Fin 128) :
    marked (UInt8.ofNat m.val ||| 0x80) = true ∧ bits (UInt8.ofNat m.val ||| 0x80) = m.val := by
  have table : ∀ m : Fin 128,
      marked (UInt8.ofNat m.val ||| 0x80) = true ∧ bits (UInt8.ofNat m.val ||| 0x80) = m.val := by decide
  exact table m

variable {k n : Nat}

private theorem below_next (below : n < 128 ^ (k + 1)) : n / 128 < 128 ^ k := by
  rw [pow_succ] at below
  exact Nat.div_lt_of_lt_mul (by omega)

/-- Enough groups give the number back. -/
theorem value_encode (below : n < 128 ^ k) : value (encode k n) = n := by
  induction k generalizing n with
  | zero => simp_all [encode, value]
  | succ k ih =>
      have small : n % 128 < 128 := Nat.mod_lt n (by decide)
      rw [encode]
      split
      · have last := (last_group ⟨n % 128, small⟩).2
        simp only [value, last]
        omega
      · have more := (more_group ⟨n % 128, small⟩).2
        simp only [value, more, ih (below_next below)]
        omega

theorem encode_ended (below : n < 128 ^ (k + 1)) : Ended (encode (k + 1) n) := by
  induction k generalizing n with
  | zero =>
      have none : n / 128 = 0 := by omega
      have last := (last_group ⟨n % 128, Nat.mod_lt n (by decide)⟩).1
      simp only [encode, none, ↓reduceIte, Ended, last, Bool.false_eq_true]
  | succ k ih =>
      have small : n % 128 < 128 := Nat.mod_lt n (by decide)
      rw [encode]
      split
      · have last := (last_group ⟨n % 128, small⟩).1
        simp only [Ended, last, Bool.false_eq_true, ↓reduceIte]
      · have more := (more_group ⟨n % 128, small⟩).1
        simp only [Ended, more, ↓reduceIte]
        exact ih (below_next below)

theorem encode_ne_nil (k n : Nat) : encode (k + 1) n ≠ [] := by
  rw [encode]
  split <;> simp

theorem encode_length_le (k n : Nat) : (encode k n).length ≤ k := by
  induction k generalizing n with
  | zero => simp [encode]
  | succ k ih =>
      have rest := ih (n / 128)
      rw [encode]
      split <;> simp only [List.length_cons, List.length_nil] <;> omega

theorem encode_short_iff : (encode (k + 2) n).length ≤ k + 1 ↔ n < 128 ^ (k + 1) := by
  induction k generalizing n with
  | zero =>
      simp only [encode]
      split
      · simp only [List.length_singleton]
        omega
      · split <;> simp only [List.length_cons, List.length_nil] <;> omega
  | succ k ih =>
      have next := ih (n := n / 128)
      have larger : 128 ^ (k + 1 + 1) = 128 ^ (k + 1) * 128 := pow_succ 128 (k + 1)
      have some : 0 < 128 ^ (k + 1) := Nat.pos_of_ne_zero (by simp)
      rw [encode]
      split
      · simp only [List.length_singleton]
        omega
      · simp only [List.length_cons, Nat.add_le_add_iff_right, next, larger]
        exact Nat.div_lt_iff_lt_mul (by decide)

theorem encode_more (below : n < 128 ^ (k + 1)) : encode (k + 2) n = encode (k + 1) n := by
  induction k generalizing n with
  | zero =>
      have none : n / 128 = 0 := by omega
      simp only [encode, none, ↓reduceIte]
  | succ k ih =>
      have larger : encode (k + 3) n = if n / 128 = 0 then [UInt8.ofNat (n % 128)]
          else (UInt8.ofNat (n % 128) ||| 0x80) :: encode (k + 2) (n / 128) := rfl
      rw [larger, ih (below_next below)]
      rfl

end SerialTiming.Wire.Varint
