/- module: SerialTiming/Machines/TwoRuns
   digest: Two runs of one machine: states that stay alike until they meet, and steps that commute. -/

import SerialTiming.Machines.Transducer

set_option autoImplicit false
set_option relaxedAutoImplicit false

namespace SerialTiming.Machines.TwoRuns

open Transducer

universe u v w
variable {S : Type u} {I : Type v} {O : Type w} (step : S → I → S × List O)

/-- States that are alike stay alike and give the same outputs as far as these are seen. An output that
joins them leaves them equal. -/
structure Isolates (alike : S → S → Prop) (seen joins : O → Bool) : Prop where
  keeps : ∀ s t i, alike s t → alike (step s i).1 (step t i).1
  same : ∀ s t i, alike s t → (step s i).2.filter seen = (step t i).2.filter seen
  joined : ∀ s t i o, alike s t → o ∈ (step s i).2 → joins o = true → step s i = step t i
  seen : ∀ o, joins o = true → seen o = true

variable {step} {alike : S → S → Prop} {seen joins : O → Bool} (isolates : Isolates step alike seen joins)
include isolates

/-- What is seen of two runs from states that are alike is the same. -/
theorem Isolates.run_seen {s t : S} (start : alike s t) (is : List I) :
    (run step s is).2.filter seen = (run step t is).2.filter seen := by
  induction is generalizing s t with
  | nil => rfl
  | cons i is ih =>
      simp only [run, List.filter_append]
      rw [isolates.same s t i start, ih (isolates.keeps s t i start)]

theorem Isolates.silent {s t : S} {i : I} (start : alike s t) (none : ∀ o ∈ (step s i).2, joins o = false) :
    ∀ o ∈ (step t i).2, joins o = false := by
  intro o member
  by_contra joint
  have joint : joins o = true := Bool.of_not_eq_false joint
  have there : o ∈ (step s i).2.filter seen := by
    rw [isolates.same s t i start]
    exact List.mem_filter.mpr ⟨member, isolates.seen o joint⟩
  exact absurd (none o (List.mem_of_mem_filter there)) (by simp [joint])

theorem Isolates.run_joined {s t : S} (start : alike s t) (is : List I) :
    (run step s is).2.dropWhile (!joins ·) = (run step t is).2.dropWhile (!joins ·) := by
  induction is generalizing s t with
  | nil => rfl
  | cons i is ih =>
      by_cases joint : ∃ o ∈ (step s i).2, joins o = true
      · obtain ⟨o, member, joint⟩ := joint
        simp only [run, isolates.joined s t i o start member joint]
      · have none : ∀ o ∈ (step s i).2, joins o = false :=
          fun o member => Bool.of_not_eq_true fun holds => joint ⟨o, member, holds⟩
        have passed {u : S} (none : ∀ o ∈ (step u i).2, joins o = false) (rest : List O) :
            ((step u i).2 ++ rest).dropWhile (!joins ·) = rest.dropWhile (!joins ·) :=
          List.dropWhile_append_of_pos fun o member => by simp [none o member]
        simp only [run]
        rw [passed none, passed (isolates.silent start none), ih (isolates.keeps s t i start)]

omit isolates

variable (step)

/-- Two inputs commute in a state: either order ends in the same state, and each input gives the outputs
that it gives alone. -/
structure Commutes (s : S) (i j : I) : Prop where
  state : (step (step s i).1 j).1 = (step (step s j).1 i).1
  first : (step (step s j).1 i).2 = (step s i).2
  second : (step (step s i).1 j).2 = (step s j).2

variable {step}

/-- At the end of a run two inputs that commute trade their outputs and leave the same state. -/
theorem Commutes.run_swap {s : S} {before : List I} {i j : I} (commutes : Commutes step (run step s before).1 i j) :
    (run step s (before ++ [i, j])).2 =
        (run step s before).2 ++ ((step (run step s before).1 i).2 ++ (step (run step s before).1 j).2) ∧
      (run step s (before ++ [j, i])).2 =
        (run step s before).2 ++ ((step (run step s before).1 j).2 ++ (step (run step s before).1 i).2) ∧
      (run step s (before ++ [i, j])).1 = (run step s (before ++ [j, i])).1 := by
  have pair (i j : I) : before ++ [i, j] = (before ++ [i]) ++ [j] := by simp
  rw [pair i j, pair j i, run_snoc, run_snoc, run_snoc, run_snoc]
  simp only [List.append_assoc]
  exact ⟨by rw [commutes.second], by rw [commutes.first], commutes.state⟩

end SerialTiming.Machines.TwoRuns
