/- module: SerialTiming/CLib/Outcomes
   digest: What a checked computation ensures of its result if it has one, with a rule for each construction. -/

import SerialTiming.CLib.Objects

set_option autoImplicit false
set_option relaxedAutoImplicit false

namespace SerialTiming.CLib.Outcomes

open Objects

variable {α β σ : Type} {p : α → Prop}

/-- If the computation ends without a fault, its result meets `p`. -/
def Ensures (p : α → Prop) (x : Checked α) : Prop := ∀ a, x = .ok a → p a

theorem Ensures.ok {a : α} (meets : p a) : Ensures p (.ok a) := by
  intro b same
  obtain rfl := Except.ok.inj same
  exact meets

theorem Ensures.all {x : Checked α} (meets : ∀ a, p a) : Ensures p x := fun a _ => meets a

theorem Ensures.bind {next : α → Checked β} {last : β → Prop} {x : Checked α} (first : Ensures p x)
    (rest : ∀ a, p a → Ensures last (next a)) : Ensures last (x >>= next) := by
  intro b result
  cases x with
  | error e => cases result
  | ok a => exact rest a (first a rfl) b result

theorem Ensures.next {next : α → Checked β} {last : β → Prop} {x : Checked α}
    (rest : ∀ a, Ensures last (next a)) : Ensures last (x >>= next) :=
  Ensures.bind (Ensures.all fun _ => trivial) fun a (_ : True) => rest a

theorem Ensures.ite {c : Prop} [Decidable c] {x y : Checked α} (yes : c → Ensures p x) (no : ¬ c → Ensures p y) :
    Ensures p (if c then x else y) := by
  split
  · exact yes ‹_›
  · exact no ‹_›

theorem Ensures.forCount {holds : σ → Prop} {body : Nat → σ → Checked σ}
    (round : ∀ k s, holds s → Ensures holds (body k s)) (count lo : Nat) {s : σ} (start : holds s) :
    Ensures holds (forCount count body lo s) := by
  induction count generalizing lo s with
  | zero => exact Ensures.ok start
  | succ count ih => exact (round lo s start).bind fun t held => ih (lo + 1) held

theorem Ensures.foldlM {ι : Type} {holds : σ → Prop} {body : σ → ι → Checked σ}
    (round : ∀ s i, holds s → Ensures holds (body s i)) (is : List ι) {s : σ} (start : holds s) :
    Ensures holds (is.foldlM body s) := by
  induction is generalizing s with
  | nil => exact Ensures.ok start
  | cons i is ih =>
      rw [List.foldlM_cons]
      exact (round s i start).bind fun t held => ih held

end SerialTiming.CLib.Outcomes
