/- module: SerialTiming/Machines/Scanner
   digest: Machines that take inputs one by one until something is whole, and the inputs that take them there. -/

import Mathlib.Data.List.Infix

set_option autoImplicit false
set_option relaxedAutoImplicit false

namespace SerialTiming.Machines.Scanner

universe u v
variable {S : Type u} {I : Type v} {feed : S → I → S} {whole : S → Prop}

/-- The inputs lead from one state to the other, and nothing is whole before the last of them. -/
inductive Reaches (feed : S → I → S) (whole : S → Prop) : S → List I → S → Prop
  | nil (s : S) : Reaches feed whole s [] s
  | cons {s t : S} {i : I} {is : List I} (part : ¬ whole s) (rest : Reaches feed whole (feed s i) is t) :
      Reaches feed whole s (i :: is) t

namespace Reaches

variable {s t u : S} {xs ys : List I}

theorem single {i : I} (part : ¬ whole s) : Reaches feed whole s [i] (feed s i) := .cons part (.nil _)

theorem trans (first : Reaches feed whole s xs t) (second : Reaches feed whole t ys u) :
    Reaches feed whole s (xs ++ ys) u := by
  induction first with
  | nil => exact second
  | cons part _ ih => exact .cons part (ih second)

theorem split (both : Reaches feed whole s (xs ++ ys) u) :
    ∃ t, Reaches feed whole s xs t ∧ Reaches feed whole t ys u := by
  induction xs generalizing s with
  | nil => exact ⟨s, .nil s, both⟩
  | cons i xs ih =>
      rw [List.cons_append] at both
      cases both with
      | cons part rest =>
          obtain ⟨t, first, second⟩ := ih rest
          exact ⟨t, .cons part first, second⟩

theorem determined (first : Reaches feed whole s xs t) (second : Reaches feed whole s xs u) : t = u := by
  induction first with
  | nil =>
      cases second
      rfl
  | cons _ _ ih =>
      cases second with
      | cons _ rest => exact ih rest

theorem ends (reaches : Reaches feed whole s xs t) (done : whole s) : xs = [] := by
  cases reaches with
  | nil => rfl
  | cons part _ => exact absurd done part

theorem whole_prefix (first : Reaches feed whole s xs t) (done : whole t) (second : Reaches feed whole s ys u)
    (before : xs <+: ys) : xs = ys ∧ t = u := by
  obtain ⟨more, rfl⟩ := before
  obtain ⟨t', first', rest⟩ := second.split
  obtain rfl := first.determined first'
  have nothing := rest.ends done
  subst nothing
  rw [List.append_nil] at second
  exact ⟨by rw [List.append_nil], first.determined second⟩

/-- Two runs over one line of inputs that both make something whole are the same. -/
theorem whole_unique {line : List I} (first : Reaches feed whole s xs t) (done : whole t)
    (second : Reaches feed whole s ys u) (done' : whole u) (left : xs <+: line) (right : ys <+: line) :
    xs = ys ∧ t = u := by
  rcases List.prefix_or_prefix_of_prefix left right with before | before
  · exact first.whole_prefix done second before
  · obtain ⟨inputs, states⟩ := second.whole_prefix done' first before
    exact ⟨inputs.symm, states.symm⟩

end Reaches

end SerialTiming.Machines.Scanner
