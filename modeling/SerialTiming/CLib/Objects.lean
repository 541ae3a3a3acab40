/- module: SerialTiming/CLib/Objects
   digest: Checked access to fixed-size C arrays, and the loops that walk them. -/

import Mathlib

set_option autoImplicit false
set_option relaxedAutoImplicit false

namespace SerialTiming.CLib.Objects

/-- What an access that C leaves undefined runs into here. -/
inductive Fault where
  /-- the index lies at or past the end of the object -/
  | outside
  /-- the result would depend on a byte that was never written -/
  | unwritten
  deriving DecidableEq, Repr

/-- A computation that stops at the first access C leaves undefined. -/
abbrev Checked (α : Type) := Except Fault α

variable {α β σ : Type} {n : Nat}

@[simp] theorem ok_bind (a : α) (f : α → Checked β) : ((Except.ok a : Checked α) >>= f) = f a := rfl

@[simp] theorem error_bind (e : Fault) (f : α → Checked β) :
    ((Except.error e : Checked α) >>= f) = Except.error e := rfl

@[simp] theorem pure_ok (a : α) : (pure a : Checked α) = Except.ok a := rfl

/-- Reading `a[i]`. -/
def load (a : Vector α n) (i : Nat) : Checked α :=
  if h : i < n then .ok a[i] else .error .outside

def store (a : Vector α n) (i : Nat) (v : α) : Checked (Vector α n) :=
  if h : i < n then .ok (a.set i v) else .error .outside

theorem load_ok (a : Vector α n) {i : Nat} (h : i < n) : load a i = .ok a[i] := by
  simp [load, h]

theorem store_ok (a : Vector α n) {i : Nat} (v : α) (h : i < n) :
    store a i v = .ok (a.set i v) := by
  simp [store, h]

/-- The loop `for (j = lo; j < lo + count; j++) s = body(j, s)`. -/
def forCount (count : Nat) (body : Nat → σ → Checked σ) (lo : Nat) (s : σ) : Checked σ :=
  match count with
  | 0 => .ok s
  | count + 1 => do
      let s ← body lo s
      forCount count body (lo + 1) s

theorem forCount_invariant {body : Nat → σ → Checked σ} (holds : Nat → σ → Prop) {hi : Nat}
    (round : ∀ k s, k < hi → holds k s → ∃ t, body k s = .ok t ∧ holds (k + 1) t)
    (count lo : Nat) (s : σ) (bound : lo + count = hi) (start : holds lo s) :
    ∃ t, forCount count body lo s = .ok t ∧ holds hi t := by
  induction count generalizing lo s with
  | zero => exact ⟨s, rfl, by simpa [← bound] using start⟩
  | succ count ih =>
      obtain ⟨next, here, kept⟩ := round lo s (by omega) start
      obtain ⟨last, rest, done⟩ := ih (lo + 1) next (by omega) kept
      exact ⟨last, by simp only [forCount, here, ok_bind, rest], done⟩

/-- A loop whose body reads `a[j]` and keeps the array is the fold over the cells it walks. -/
theorem forCount_fold {body : Nat → σ → Checked σ} (view : σ → Vector α n) (f : σ → α → σ)
    (step : ∀ s j, (h : j < n) → body j s = .ok (f s (view s)[j]))
    (keeps : ∀ s x, view (f s x) = view s) (cells : List α) (lo : Nat) (s : σ)
    (holds : ∀ k, (h : k < cells.length) → ∃ h' : lo + k < n, (view s)[lo + k] = cells[k]) :
    forCount cells.length body lo s = .ok (cells.foldl f s) := by
  induction cells generalizing lo s with
  | nil => rfl
  | cons x cells ih =>
      obtain ⟨inside, first⟩ := holds 0 (by simp)
      have here : body lo s = .ok (f s x) := by
        rw [step s lo (by simpa using inside)]
        exact congrArg (fun cell => Except.ok (f s cell)) (by simpa using first)
      simp only [List.length_cons, forCount, here, ok_bind, List.foldl_cons]
      apply ih
      intro k hk
      obtain ⟨inside', later⟩ := holds (k + 1) (by simpa using hk)
      refine ⟨by omega, ?_⟩
      have shift : lo + 1 + k = lo + (k + 1) := by omega
      simp only [keeps, shift, later, List.getElem_cons_succ]

end SerialTiming.CLib.Objects
