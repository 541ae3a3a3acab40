/- module: SerialTiming/Machines/Convergence
   digest: Two runs in lock step: what stays alike, what becomes alike, and what is seen of both. -/

import SerialTiming.Machines.Transducer

set_option autoImplicit false
set_option relaxedAutoImplicit false

namespace SerialTiming.Machines.Convergence

open Transducer

universe u v w
variable {S : Type u} {I : Type v} {O : Type w} (step : S → I → S × List O)

/-- On matching inputs states that are alike stay alike and give the same outputs as far as these are seen. -/
structure Lockstep (alike : S → S → Prop) (matching : I → I → Prop) (seen : O → Bool) : Prop where
  keeps : ∀ s t i j, alike s t → matching i j → alike (step s i).1 (step t j).1
  same : ∀ s t i j, alike s t → matching i j → (step s i).2.filter seen = (step t j).2.filter seen

variable {step}

theorem Lockstep.run_same {alike : S → S → Prop} {matching : I → I → Prop} {seen : O → Bool}
    (lockstep : Lockstep step alike matching seen) {s t : S} (start : alike s t) {is js : List I}
    (inputs : List.Forall₂ matching is js) :
    (run step s is).2.filter seen = (run step t js).2.filter seen := by
  induction inputs generalizing s t with
  | nil => rfl
  | cons first rest ih =>
      simp only [run, List.filter_append]
      rw [lockstep.same s t _ _ start first, ih (lockstep.keeps s t _ _ start first)]

theorem matching_self (is : List I) : List.Forall₂ Eq is is := List.forall₂_same.mpr fun _ _ => rfl

section Steps
variable {alike : S → S → Prop} (keeps : ∀ s t i, alike s t → alike (step s i).1 (step t i).1)
include keeps

theorem run_keeps {s t : S} (start : alike s t) (is : List I) : alike (run step s is).1 (run step t is).1 := by
  induction is generalizing s t with
  | nil => exact start
  | cons i is ih => exact ih (keeps s t i start)

/-- What every step keeps and some input brings about, whatever the states, holds once that input came. -/
theorem run_brings {brings : I → Prop} (enters : ∀ s t i, brings i → alike (step s i).1 (step t i).1)
    {is : List I} (came : ∃ i ∈ is, brings i) (s t : S) : alike (run step s is).1 (run step t is).1 := by
  obtain ⟨i, member, kind⟩ := came
  obtain ⟨before, later, rfl⟩ := List.append_of_mem member
  rw [run_append, run_append]
  exact run_keeps keeps (enters _ _ i kind) later

/-- A coarser likeness turns into a finer one where a marked output is given, and stays it. -/
theorem run_joins {coarse : S → S → Prop} {marks : O → Bool}
    (coarsely : ∀ s t i, coarse s t → coarse (step s i).1 (step t i).1)
    (joins : ∀ s t i, coarse s t → (∃ o ∈ (step s i).2, marks o = true) → alike (step s i).1 (step t i).1)
    {s t : S} (start : coarse s t) {is : List I} (told : ∃ o ∈ (run step s is).2, marks o = true) :
    alike (run step s is).1 (run step t is).1 := by
  induction is generalizing s t with
  | nil =>
      obtain ⟨o, member, -⟩ := told
      exact absurd member List.not_mem_nil
  | cons i is ih =>
      by_cases now : ∃ o ∈ (step s i).2, marks o = true
      · exact run_keeps keeps (joins s t i start now) is
      · obtain ⟨o, member, marked⟩ := told
        have later : o ∈ (run step (step s i).1 is).2 := by
          rcases List.mem_append.mp member with here | later
          · exact absurd ⟨o, here, marked⟩ now
          · exact later
        exact ih (coarsely s t i start) ⟨o, later, marked⟩

end Steps

variable (step)

/-- Along a run whose steps all meet `ok`, a measure that the inputs of one kind lower and no other raises runs
down with their number. -/
theorem run_countdown (measure : S → Nat) (lowers : I → Bool) (ok : S → I → Prop)
    (lower : ∀ t i, ok t i → measure (step t i).1 ≤ measure t - if lowers i then 1 else 0) (s : S) (is : List I)
    (meets : ∀ before i later, is = before ++ i :: later → ok (run step s before).1 i) :
    measure (run step s is).1 ≤ measure s - is.countP lowers := by
  induction is using List.reverseRecOn with
  | nil => exact Nat.le_refl _
  | append_singleton is i ih =>
      have earlier : measure (run step s is).1 ≤ measure s - is.countP lowers := by
        apply ih
        rintro before j later rfl
        exact meets before j (later ++ [i]) (by simp)
      have last := lower _ i (meets is i [] rfl)
      rw [run_snoc, List.countP_append, List.countP_singleton]
      show measure (step (run step s is).1 i).1 ≤ _
      omega

end SerialTiming.Machines.Convergence
