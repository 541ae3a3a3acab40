/- module: SerialTiming/Machines/Resources
   digest: Programs whose calls acquire, need and release resources: what may be called when. -/

import Mathlib.Data.List.Count

set_option autoImplicit false
set_option relaxedAutoImplicit false

namespace SerialTiming.Machines.Resources

universe u v

/-- How the calls of a program treat its resources. A call that releases one needs it as well. -/
structure Ledger (κ : Type u) (ι : Type v) where
  acquires : κ → Option ι
  needs : κ → Option ι
  releases : κ → Option ι

namespace Ledger

variable {κ : Type u} {ι : Type v} (L : Ledger κ ι)

def acquired (calls : List κ) : List ι := calls.filterMap L.acquires

def needed (calls : List κ) : List ι := calls.filterMap L.needs

def released (calls : List κ) : List ι := calls.filterMap L.releases

/-- Each call needs only what the program had at first or acquired in an earlier call. -/
def Grounded : List ι → List κ → Prop
  | _, [] => True
  | had, call :: calls =>
      (∀ i, L.needs call = some i → i ∈ had) ∧ Grounded (had ++ (L.acquires call).toList) calls

/-- Everything that was acquired is released exactly once. -/
def Settled [DecidableEq ι] (calls : List κ) : Prop := ∀ i ∈ L.acquired calls, (L.released calls).count i = 1

variable (xs ys : List κ) (had : List ι)

@[simp] theorem acquired_append : L.acquired (xs ++ ys) = L.acquired xs ++ L.acquired ys := List.filterMap_append

@[simp] theorem needed_append : L.needed (xs ++ ys) = L.needed xs ++ L.needed ys := List.filterMap_append

@[simp] theorem released_append : L.released (xs ++ ys) = L.released xs ++ L.released ys := List.filterMap_append

theorem acquired_cons (call : κ) : L.acquired (call :: xs) = (L.acquires call).toList ++ L.acquired xs := by
  unfold acquired
  cases acquires : L.acquires call with
  | none => rw [List.filterMap_cons_none acquires, Option.toList_none, List.nil_append]
  | some i => rw [List.filterMap_cons_some acquires, Option.toList_some, List.singleton_append]

theorem grounded_append :
    L.Grounded had (xs ++ ys) ↔ L.Grounded had xs ∧ L.Grounded (had ++ L.acquired xs) ys := by
  induction xs generalizing had with
  | nil => simp [Grounded, acquired]
  | cons call xs ih =>
      rw [List.cons_append, Grounded, Grounded, ih, acquired_cons, List.append_assoc, and_assoc]

variable {xs ys had}

theorem grounded_idle (idle : L.acquired xs = []) : L.Grounded had xs ↔ ∀ i ∈ L.needed xs, i ∈ had := by
  induction xs with
  | nil => simp [Grounded, needed]
  | cons call xs ih =>
      rw [acquired_cons, List.append_eq_nil_iff] at idle
      rw [Grounded, idle.1, List.append_nil, ih idle.2]
      constructor
      · intro grounded i among
        obtain ⟨c, member, needs⟩ := List.mem_filterMap.mp among
        rcases List.mem_cons.mp member with rfl | later
        · exact grounded.1 i needs
        · exact grounded.2 i (List.mem_filterMap.mpr ⟨c, later, needs⟩)
      · intro all
        constructor
        · intro i needs
          exact all i (List.mem_filterMap.mpr ⟨call, List.mem_cons_self, needs⟩)
        · intro i among
          obtain ⟨c, member, needs⟩ := List.mem_filterMap.mp among
          exact all i (List.mem_filterMap.mpr ⟨c, List.mem_cons_of_mem _ member, needs⟩)

theorem grounded_free (free : L.needed xs = []) : L.Grounded had xs := by
  induction xs generalizing had with
  | nil => trivial
  | cons call xs ih =>
      have none := List.filterMap_eq_nil_iff.mp free
      refine ⟨?_, ih (List.filterMap_eq_nil_iff.mpr fun c member => none c (List.mem_cons_of_mem _ member))⟩
      intro i needs
      have nothing := none call List.mem_cons_self
      rw [needs] at nothing
      cases nothing

theorem settled_unreleased [DecidableEq ι] (open_calls : L.released xs = []) : L.Settled xs ↔ L.acquired xs = [] := by
  constructor
  · intro settled
    apply List.eq_nil_iff_forall_not_mem.mpr
    intro i among
    have once := settled i among
    rw [open_calls] at once
    cases once
  · intro nothing i among
    rw [nothing] at among
    cases among

section Limits

variable (p : ι → Bool)

def held (calls : List κ) : Int := (L.acquired calls).countP p - (L.released calls).countP p

/-- At no time are more of these resources held than the limit. -/
def Limited (limit : Nat) (calls : List κ) : Prop := ∀ front, front <+: calls → L.held p front ≤ limit

theorem held_append (xs ys : List κ) : L.held p (xs ++ ys) = L.held p xs + L.held p ys := by
  simp only [held, acquired_append, released_append, List.countP_append]
  omega

variable {L p} {limit : Nat}

/-- Once all are held, calls that give none back get none. -/
theorem Limited.exhausted (limited : L.Limited p limit (xs ++ ys)) (all : limit ≤ L.held p xs)
    (keeps : L.released ys = []) : ∀ i ∈ L.acquired ys, p i = false := by
  have within := limited (xs ++ ys) List.prefix_rfl
  have later : L.held p ys = (L.acquired ys).countP p := by simp [held, keeps]
  rw [held_append, later] at within
  have none : (L.acquired ys).countP p = 0 := by omega
  intro i among
  simpa using List.countP_eq_zero.mp none i among

end Limits

end Ledger

end SerialTiming.Machines.Resources
