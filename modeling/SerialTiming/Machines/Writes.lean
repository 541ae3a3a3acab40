/- module: SerialTiming/Machines/Writes
   digest: A variable that some of the inputs write: after a run it holds what was written last. -/

import Mathlib.Data.List.Basic

set_option autoImplicit false
set_option relaxedAutoImplicit false

namespace SerialTiming.Machines.Writes

universe u v
variable {I : Type u} {α : Type v} (writes : I → Option α)

/-- What was written last, or what the variable held before. -/
def latest (is : List I) (held : α) : α := (is.filterMap writes).getLast?.getD held

@[simp] theorem latest_nil (held : α) : latest writes [] held = held := rfl

theorem latest_cons (i : I) (is : List I) (held : α) :
    latest writes (i :: is) held = latest writes is ((writes i).getD held) := by
  unfold latest
  cases write : writes i with
  | none => rw [List.filterMap_cons_none write, Option.getD_none]
  | some a => rw [List.filterMap_cons_some write, List.getLast?_cons, Option.getD_some, Option.getD_some]

end SerialTiming.Machines.Writes
