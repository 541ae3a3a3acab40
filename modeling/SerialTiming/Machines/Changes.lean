/- module: SerialTiming/Machines/Changes
   digest: Counting the changes along a sequence, anew after every occurrence of a reset value. -/

import Mathlib

set_option autoImplicit false
set_option relaxedAutoImplicit false

namespace SerialTiming.Machines.Changes

universe u
variable {α : Type u} [DecidableEq α]

def Changed (past : List α) (a : α) : Prop := past.getLast? ≠ some a

instance (past : List α) (a : α) : Decidable (Changed past a) := inferInstanceAs (Decidable (_ ≠ _))

/-- How often the values change, the first one included. -/
def changes : List α → Nat
  | [] => 0
  | [_] => 1
  | a :: b :: rest => (if a = b then 0 else 1) + changes (b :: rest)

theorem changes_snoc (past : List α) (a : α) :
    changes (past ++ [a]) = changes past + if Changed past a then 1 else 0 := by
  fun_induction changes past with
  | case1 => simp [changes, Changed]
  | case2 b =>
      by_cases same : b = a <;> simp [changes, Changed, same]
  | case3 b c rest ih =>
      have last : Changed (b :: c :: rest) a ↔ Changed (c :: rest) a := by simp [Changed]
      simp only [List.cons_append, changes, last] at ih ⊢
      rw [ih, Nat.add_assoc]

theorem changes_append_le (past more : List α) : changes past ≤ changes (past ++ more) := by
  induction more using List.reverseRecOn with
  | nil => simp
  | append_singleton more a ih =>
      rw [← List.append_assoc, changes_snoc]
      omega

variable (reset : α)

def since (past : List α) : List α := past.rtakeWhile (· ≠ reset)

theorem since_snoc (past : List α) (a : α) :
    since reset (past ++ [a]) = if a = reset then [] else since reset past ++ [a] := by
  by_cases resets : a = reset
  · rw [if_pos resets, since, List.rtakeWhile_concat_neg _ _ _ (by simp [resets])]
  · rw [if_neg resets, since, List.rtakeWhile_concat_pos _ _ _ (by simp [resets]), since]

theorem changed_since {past : List α} {a : α} (other : a ≠ reset) :
    Changed (since reset past) a ↔ Changed past a := by
  rcases List.eq_nil_or_concat' past with rfl | ⟨past, b, rfl⟩
  · rfl
  · rw [since_snoc]
    split
    · rename_i resets
      have differs : b ≠ a := by
        rintro rfl
        exact other resets
      simp [Changed, differs]
    · simp [Changed]

def count (past : List α) : Nat := changes (since reset past)

theorem count_snoc (past : List α) (a : α) :
    count reset (past ++ [a]) =
      if a = reset then 0 else count reset past + if Changed past a then 1 else 0 := by
  rw [count, since_snoc]
  split
  · rfl
  · rename_i other
    rw [changes_snoc, count]
    simp only [changed_since reset other]

theorem count_le (past : List α) : count reset past ≤ changes past := by
  induction past using List.reverseRecOn with
  | nil => exact Nat.le_refl _
  | append_singleton past a ih =>
      rw [count_snoc, changes_snoc]
      split
      · exact Nat.zero_le _
      · omega

theorem count_zero {past : List α} {a : α} (last : past.getLast? = some a) :
    count reset past = 0 ↔ a = reset := by
  induction past using List.reverseRecOn generalizing a with
  | nil => simp at last
  | append_singleton past b ih =>
      obtain rfl : b = a := by simpa using last
      rw [count_snoc]
      split
      · rename_i resets
        simp [resets]
      · rename_i other
        split
        · simp [other]
        · rename_i known
          rw [Nat.add_zero]
          exact ih (not_not.mp known)

/-- The counts at the values that change, when `past` came before. -/
def counts (past : List α) : List α → List Nat
  | [] => []
  | a :: rest => (if Changed past a then [count reset (past ++ [a])] else []) ++ counts (past ++ [a]) rest

theorem counts_snoc (past rest : List α) (a : α) :
    counts reset past (rest ++ [a]) = counts reset past rest ++
      if Changed (past ++ rest) a then [count reset (past ++ rest ++ [a])] else [] := by
  induction rest generalizing past with
  | nil => simp [counts]
  | cons b rest ih => simp [counts, ih]

theorem counts_last (past : List α) :
    (counts reset [] past).getLast? = past.getLast?.map fun _ => count reset past := by
  induction past using List.reverseRecOn with
  | nil => rfl
  | append_singleton past a ih =>
      rw [counts_snoc, List.nil_append, List.getLast?_concat, Option.map_some]
      split
      · simp
      · rename_i known
        have same : past.getLast? = some a := not_not.mp known
        rw [List.append_nil, ih, same, Option.map_some, count_snoc, if_neg known, Nat.add_zero]
        split
        · rename_i resets
          rw [(count_zero reset same).mpr resets]
        · rfl

/-- The next count is the last one and one more, or zero after another one than zero. -/
theorem counts_chain (past : List α) :
    (counts reset [] past).IsChain fun m n => n = m + 1 ∨ (n = 0 ∧ m ≠ 0) := by
  induction past using List.reverseRecOn with
  | nil => exact List.isChain_nil
  | append_singleton past a ih =>
      rw [counts_snoc, List.nil_append]
      split
      · rename_i changed
        refine ih.append (List.isChain_singleton _) ?_
        intro m last n next
        obtain rfl : count reset (past ++ [a]) = n := by simpa using next
        rw [counts_last] at last
        obtain ⟨b, before, rfl⟩ := Option.map_eq_some_iff.mp last
        rw [count_snoc, if_pos changed]
        split
        · rename_i resets
          refine .inr ⟨rfl, fun zero => changed ?_⟩
          rw [before, (count_zero reset before).mp zero, resets]
        · exact .inl rfl
      · rw [List.append_nil]
        exact ih

theorem counts_head (past : List α) : ∀ n, (counts reset [] past).head? = some n → n ≤ 1 := by
  cases past with
  | nil => simp [counts]
  | cons a rest =>
      have first : Changed [] a := by simp [Changed]
      intro n head
      rw [counts, if_pos first] at head
      obtain rfl := Option.some.inj head
      rw [count_snoc]
      split
      · exact Nat.zero_le 1
      · exact Nat.le_refl 1

end SerialTiming.Machines.Changes
