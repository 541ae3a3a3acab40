/- module: SerialTiming/Machines/Transducer
   digest: Machines that answer each input with a list of outputs: invariants and the place of an output. -/

import Mathlib

set_option autoImplicit false
set_option relaxedAutoImplicit false

namespace SerialTiming.Machines.Transducer

universe u v w
variable {S : Type u} {I : Type v} {O : Type w} (step : S → I → S × List O)

/-- The state after the inputs and all outputs in the order they were given. -/
def run (s : S) : List I → S × List O
  | [] => (s, [])
  | i :: is => ((run (step s i).1 is).1, (step s i).2 ++ (run (step s i).1 is).2)

@[simp] theorem run_nil (s : S) : run step s [] = (s, []) := rfl

theorem run_append (s : S) (is js : List I) :
    run step s (is ++ js) =
      ((run step (run step s is).1 js).1, (run step s is).2 ++ (run step (run step s is).1 js).2) := by
  induction is generalizing s with
  | nil => simp
  | cons i is ih => simp [run, ih]

theorem run_snoc (s : S) (is : List I) (i : I) :
    run step s (is ++ [i]) =
      ((step (run step s is).1 i).1, (run step s is).2 ++ (step (run step s is).1 i).2) := by
  simp [run_append, run]

theorem run_invariant_if (inv : S → List O → Prop) (ok : S → I → Prop) {s : S} (start : inv s [])
    (keep : ∀ t out i, ok t i → inv t out → inv (step t i).1 (out ++ (step t i).2)) (is : List I)
    (meets : ∀ before i later, is = before ++ i :: later → ok (run step s before).1 i) :
    inv (run step s is).1 (run step s is).2 := by
  induction is using List.reverseRecOn with
  | nil => exact start
  | append_singleton is i ih =>
      have earlier : inv (run step s is).1 (run step s is).2 := by
        apply ih
        rintro before j later rfl
        exact meets before j (later ++ [i]) (by simp)
      rw [run_snoc]
      exact keep _ _ i (meets is i [] rfl) earlier

/-- What holds of the start and is kept by every step holds after every run. -/
theorem run_invariant (inv : S → List O → Prop) {s : S} (start : inv s [])
    (keep : ∀ t out i, inv t out → inv (step t i).1 (out ++ (step t i).2)) (is : List I) :
    inv (run step s is).1 (run step s is).2 :=
  run_invariant_if step inv (fun _ _ => True) start (fun t out i _ => keep t out i) is fun _ _ _ _ => trivial

/-- Every output of a run is given by one step, between outputs of earlier and of later steps. -/
theorem output_place {s : S} {is : List I} {pre post : List O} {o : O}
    (out : (run step s is).2 = pre ++ o :: post) :
    ∃ before i after front back,
      is = before ++ i :: after ∧
      (step (run step s before).1 i).2 = front ++ o :: back ∧
      pre = (run step s before).2 ++ front ∧
      post = back ++ (run step (step (run step s before).1 i).1 after).2 := by
  induction is generalizing s pre with
  | nil => simp at out
  | cons i is ih =>
      simp only [run] at out
      rcases List.append_eq_append_iff.mp out with ⟨mid, rfl, tail⟩ | ⟨mid, here, tail⟩
      · obtain ⟨before, j, after, front, back, rfl, place, rfl, rfl⟩ := ih tail
        exact ⟨i :: before, j, after, front, back, rfl, place, by simp [run], rfl⟩
      · cases mid with
        | nil =>
            have next : (run step (step s i).1 is).2 = [] ++ o :: post := tail.symm
            obtain ⟨before, j, after, front, back, rfl, place, split, rfl⟩ := ih next
            refine ⟨i :: before, j, after, front, back, rfl, place, ?_, rfl⟩
            simp only [run, List.append_assoc, ← split, here, List.append_nil]
        | cons p mid =>
            simp only [List.cons_append, List.cons.injEq] at tail
            obtain ⟨rfl, rfl⟩ := tail
            exact ⟨[], i, is, pre, mid, rfl, here, rfl, rfl⟩

theorem step_outputs (s : S) (before : List I) (i : I) (after : List I) :
    (run step s (before ++ i :: after)).2 =
      (run step s before).2 ++ (step (run step s before).1 i).2 ++
        (run step (step (run step s before).1 i).1 after).2 := by
  simp [run_append, run]

end SerialTiming.Machines.Transducer
