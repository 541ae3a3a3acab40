/- module: SerialTiming/Receiver/Calls
   digest: What a receiver does with the bytes of the line, call by call. -/

import Mathlib.Data.List.Basic

set_option autoImplicit false
set_option relaxedAutoImplicit false

namespace SerialTiming.Receiver.Calls

/-- The calls of a receiver: one that reads from the line, with the bytes it stored, one that passes a byte
to putReadData, and one that writes bytes to the other port. -/
inductive Call where
  | read (bytes : List UInt8)
  | putReadData (byte : UInt8)
  | write (bytes : List UInt8)
  deriving DecidableEq, Repr

def stored (calls : List Call) : List UInt8 :=
  calls.flatMap fun
    | .read bytes => bytes
    | _ => []

def passed (calls : List Call) : List UInt8 :=
  calls.flatMap fun
    | .putReadData byte => [byte]
    | _ => []

def written (calls : List Call) : List UInt8 :=
  calls.flatMap fun
    | .write bytes => bytes
    | _ => []

def reads (calls : List Call) : List (List UInt8) :=
  calls.filterMap fun
    | .read bytes => some bytes
    | _ => none

def writes (calls : List Call) : List (List UInt8) :=
  calls.filterMap fun
    | .write bytes => some bytes
    | _ => none

variable (xs ys : List Call)

@[simp] theorem stored_append : stored (xs ++ ys) = stored xs ++ stored ys := List.flatMap_append

@[simp] theorem passed_append : passed (xs ++ ys) = passed xs ++ passed ys := List.flatMap_append

@[simp] theorem written_append : written (xs ++ ys) = written xs ++ written ys := List.flatMap_append

@[simp] theorem reads_append : reads (xs ++ ys) = reads xs ++ reads ys := List.filterMap_append

@[simp] theorem writes_append : writes (xs ++ ys) = writes xs ++ writes ys := List.filterMap_append

theorem stored_reads : stored xs = (reads xs).flatten := by
  induction xs with
  | nil => rfl
  | cons call xs ih => cases call <;> simp_all [stored, reads]

theorem written_writes : written xs = (writes xs).flatten := by
  induction xs with
  | nil => rfl
  | cons call xs ih => cases call <;> simp_all [written, writes]

section Passing

variable (bytes : List UInt8)

@[simp] theorem passed_map : passed (bytes.map .putReadData) = bytes := by
  induction bytes with
  | nil => rfl
  | cons byte bytes ih => exact congrArg (byte :: ·) ih

@[simp] theorem reads_map : reads (bytes.map .putReadData) = [] := by
  induction bytes with
  | nil => rfl
  | cons byte bytes ih => exact ih

@[simp] theorem writes_map : writes (bytes.map .putReadData) = [] := by
  induction bytes with
  | nil => rfl
  | cons byte bytes ih => exact ih

end Passing

/-- Whenever the line is read again, and at the end, the decoder has got exactly the bytes that came in so far. -/
def InStep (calls : List Call) : Prop :=
  passed calls = stored calls ∧
    ∀ (pre : List Call) (bytes : List UInt8) (post : List Call), calls = pre ++ .read bytes :: post →
      passed pre = stored pre

theorem inStep_nil : InStep [] := ⟨rfl, fun pre bytes post split => by simp at split⟩

theorem InStep.relay {calls : List Call} (inStep : InStep calls) (bytes : List UInt8) :
    InStep (calls ++ .read bytes :: bytes.map .putReadData) := by
  obtain ⟨same, before⟩ := inStep
  have got : passed (.read bytes :: bytes.map .putReadData) = bytes := passed_map bytes
  have came : stored (.read bytes :: bytes.map .putReadData) = bytes := by
    rw [stored_reads]
    show (bytes :: reads (bytes.map Call.putReadData)).flatten = bytes
    rw [reads_map, List.flatten_cons, List.flatten_nil, List.append_nil]
  refine ⟨by rw [passed_append, stored_append, got, came, same], ?_⟩
  intro pre others post split
  rcases List.append_eq_append_iff.mp split with ⟨more, rfl, rest⟩ | ⟨more, rfl, rest⟩
  · cases more with
    | nil =>
        rw [List.append_nil]
        exact same
    | cons call more =>
        have late : .read others ∈ bytes.map Call.putReadData := by
          simp only [List.cons_append, List.cons.injEq] at rest
          simp [rest.2]
        simp at late
  · cases more with
    | nil =>
        rw [List.append_nil] at same
        exact same
    | cons call more =>
        simp only [List.cons_append, List.cons.injEq] at rest
        obtain ⟨rfl, _⟩ := rest
        exact before pre others more rfl

/-- The decoder gets the bytes of the line, each once and in order, and so does the other port if there is one. -/
def Delivers (forward : Bool) (calls : List Call) : Prop :=
  passed calls = stored calls ∧ (forward = true → written calls = stored calls)

end SerialTiming.Receiver.Calls
