/- module: SerialTiming/CLib/Buffers
   digest: Calls that fill a C array from its start on, or take the first cells of it, and int indices. -/

import SerialTiming.CLib.Objects

set_option autoImplicit false
set_option relaxedAutoImplicit false

namespace SerialTiming.CLib.Buffers

open Objects

variable {α : Type} {n : Nat}

/-- Writing some values into the cells from `i` on. -/
def storeAll : List α → Nat → Vector α n → Checked (Vector α n)
  | [], _, a => .ok a
  | x :: xs, i, a => do
      let a ← store a i x
      storeAll xs (i + 1) a

def loadAll (a : Vector α n) (k : Nat) : Checked (List α) :=
  if k ≤ n then .ok (a.toList.take k) else .error .outside

def loadAt (a : Vector α n) (i : Int) : Checked α :=
  if 0 ≤ i then load a i.toNat else .error .outside

def storeAt (a : Vector α n) (i : Int) (v : α) : Checked (Vector α n) :=
  if 0 ≤ i then store a i.toNat v else .error .outside

theorem storeAll_ok (xs : List α) (i : Nat) (a : Vector α n) (fits : i + xs.length ≤ n) :
    ∃ b, storeAll xs i a = .ok b ∧
      b.toList = a.toList.take i ++ (xs ++ a.toList.drop (i + xs.length)) := by
  induction xs generalizing i a with
  | nil => exact ⟨a, rfl, by simp⟩
  | cons x xs ih =>
      have longer : i + (xs.length + 1) ≤ n := fits
      have inside : i < n := by omega
      obtain ⟨b, rest, cells⟩ := ih (i + 1) (a.set i x) (by omega)
      refine ⟨b, by rw [storeAll, store_ok a x inside, ok_bind, rest], ?_⟩
      have within : i < a.toList.length := by simpa using inside
      have front : (a.toList.set i x).take (i + 1) = a.toList.take i ++ [x] := by
        rw [List.take_add_one, List.take_set_of_le (le_refl i), List.getElem?_set_self within, Option.toList_some]
      have back : (a.toList.set i x).drop (i + 1 + xs.length) = a.toList.drop (i + (x :: xs).length) := by
        rw [List.drop_set_of_lt (by omega), List.length_cons]
        congr 1
        omega
      rw [cells, Vector.toList_set, front, back, List.append_assoc]
      rfl

theorem storeAll_outside (xs : List α) (i : Nat) (a : Vector α n) (starts : i ≤ n) (long : n < i + xs.length) :
    storeAll xs i a = .error .outside := by
  induction xs generalizing i a with
  | nil =>
      have short : n < i := long
      omega
  | cons x xs ih =>
      rcases Nat.lt_or_ge i n with inside | past
      · rw [storeAll, store_ok a x inside, ok_bind]
        have longer : n < i + (xs.length + 1) := long
        exact ih (i + 1) (a.set i x) (by omega) (by omega)
      · rw [storeAll, store, dif_neg (by omega), error_bind]

theorem storeAll_front (xs : List α) (a : Vector α n) (fits : xs.length ≤ n) :
    ∃ b, storeAll xs 0 a = .ok b ∧ b.toList.take xs.length = xs := by
  obtain ⟨b, filled, cells⟩ := storeAll_ok xs 0 a (by omega)
  refine ⟨b, filled, ?_⟩
  rw [cells, List.take_zero, List.nil_append]
  exact List.take_left

theorem loadAll_ok (a : Vector α n) {k : Nat} (fits : k ≤ n) : loadAll a k = .ok (a.toList.take k) := if_pos fits

theorem storeAt_ok (a : Vector α n) {i : Int} (v : α) (inside : 0 ≤ i ∧ i < n) :
    ∃ b, storeAt a i v = .ok b ∧ b.toList.take i.toNat = a.toList.take i.toNat := by
  have below : i.toNat < n := by omega
  refine ⟨a.set i.toNat v, ?_, ?_⟩
  · rw [storeAt, if_pos inside.1, store_ok a v below]
  · rw [Vector.toList_set, List.take_set_of_le (le_refl _)]

theorem storeAt_outside (a : Vector α n) {i : Int} (v : α) (off : ¬ (0 ≤ i ∧ i < n)) :
    storeAt a i v = .error .outside := by
  unfold storeAt
  split
  · rw [store, dif_neg (by omega)]
  · rfl

theorem loadAt_ok (a : Vector α n) {i : Nat} (below : i < n) : loadAt a i = .ok a[i] := by
  rw [loadAt, if_pos (by omega), Int.toNat_natCast, load_ok a below]

theorem loadAt_outside (a : Vector α n) {i : Int} (off : ¬ (0 ≤ i ∧ i < n)) : loadAt a i = .error .outside := by
  unfold loadAt
  split
  · rw [load, dif_neg (by omega)]
  · rfl

theorem forCells_invariant {σ : Type} {body : α → σ → Checked σ} (holds : List α → σ → Prop)
    (round : ∀ xs x s, holds xs s → ∃ t, body x s = .ok t ∧ holds (xs ++ [x]) t)
    (a : Vector α n) {k : Nat} (fits : k ≤ n) {s : σ} (start : holds [] s) :
    ∃ t, forCount k (fun j s => do
        let x ← load a j
        body x s) 0 s = .ok t ∧ holds (a.toList.take k) t := by
  apply forCount_invariant (fun j t => holds (a.toList.take j) t) ?_ k 0 s (by omega)
  · rw [List.take_zero]
    exact start
  · intro j t below held
    have inside : j < n := by omega
    have taken : a.toList.take (j + 1) = a.toList.take j ++ [a[j]] := by
      rw [List.take_add_one, List.getElem?_eq_getElem (by simpa using inside), Vector.getElem_toList]
      rfl
    rw [load_ok a inside, ok_bind, taken]
    exact round _ _ t held

end SerialTiming.CLib.Buffers
