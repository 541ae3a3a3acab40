/- module: SerialTiming/Laws/CommandLine
   digest: What main does with the port names of its command line, and when it may free them. -/

import SerialTiming.Program.Main

set_option autoImplicit false
set_option relaxedAutoImplicit false

namespace SerialTiming.Laws.CommandLine

open Machines.Resources Program.Main

/-- dataInit gets two port names. -/
def Given (calls : List MainCall) : Prop :=
  ∀ s, .dataInit s ∈ calls → ¬ s.portname = .null ∧ ¬ s.destinationportname = .null

/-- No argument is both a value and an option. -/
def Values (calls : List MainCall) : Prop := ∀ n, .take n ∈ calls → .interpret n ∉ calls

/-- Each free call gets a block that malloc gave, and no block twice. -/
def Frees (calls : List MainCall) : Prop := heap.Grounded [] calls ∧ (heap.released calls).Nodup

structure Sound (calls : List MainCall) : Prop where
  given : Given calls
  values : Values calls
  frees : Frees calls

variable {args : List (List Char)}

theorem given_iff (accepted : .usage ∉ main args) :
    Given (main args) ↔ ∀ a, args.getLast? = some a → ¬ TakesValue a := by
  obtain ⟨s, calls, portname, destinationportname⟩ := main_accepts accepted
  have only : ∀ s', .dataInit s' ∈ main args ↔ s' = s := by
    intro s'
    rw [calls]
    constructor
    · intro among
      rcases List.mem_append.mp among with allocates | among
      · simp at allocates
      rcases List.mem_append.mp among with loops | ends
      · rcases loopCalls_quiet loops with ⟨k, same⟩ | ⟨k, same⟩ <;> cases same
      · simpa using ends
    · rintro rfl
      simp
  have size : args.length + 1 = 1 + args.length := Nat.add_comm _ _
  have source : s.portname = .null ↔ ∃ a, args.getLast? = some a ∧ Is 's' a := by
    rw [portname]
    exact moved_null size Pointer.noConfusion
  have destination : s.destinationportname = .null ↔ ∃ a, args.getLast? = some a ∧ Is 'd' a := by
    rw [destinationportname]
    exact moved_null size Pointer.noConfusion
  constructor
  · intro given a last takes
    obtain ⟨named, named'⟩ := given s ((only s).mpr rfl)
    rcases takes with is | is
    · exact named (source.mpr ⟨a, last, is⟩)
    · exact named' (destination.mpr ⟨a, last, is⟩)
  · intro none s' among
    obtain rfl := (only s').mp among
    constructor
    · intro missing
      obtain ⟨a, last, is⟩ := source.mp missing
      exact none a last (.inl is)
    · intro missing
      obtain ⟨a, last, is⟩ := destination.mp missing
      exact none a last (.inr is)

theorem values_iff (accepted : .usage ∉ main args) :
    Values (main args) ↔ ∀ (i : Nat) (a b : List Char), args[i]? = some a → args[i + 1]? = some b →
      TakesValue a → ¬ IsOption b := by
  obtain ⟨s, calls, _, _⟩ := main_accepts accepted
  have taken : ∀ n, .take n ∈ main args ↔
      ∃ (i : Nat) (a : List Char), args[i]? = some a ∧ n = 1 + i + 1 ∧ TakesValue a := by
    intro n
    simp only [← take_argumentCalls, ← mem_loopCalls]
    rw [calls]
    simp
  have interpreted : ∀ n, .interpret n ∈ main args ↔
      ∃ (i : Nat) (a : List Char), args[i]? = some a ∧ n = 1 + i ∧ IsOption a := by
    intro n
    simp only [← interpret_argumentCalls, ← mem_loopCalls]
    rw [calls]
    simp
  constructor
  · intro values i a b here next takes isOption
    apply values (1 + i + 1)
    · exact (taken _).mpr ⟨i, a, here, rfl, takes⟩
    · exact (interpreted _).mpr ⟨i + 1, b, next, by omega, isOption⟩
  · intro apart n takes interprets
    obtain ⟨i, a, here, place, takesValue⟩ := (taken n).mp takes
    obtain ⟨j, b, there, place', isOption⟩ := (interpreted n).mp interprets
    obtain rfl : j = i + 1 := by omega
    exact apart i a b here there takesValue isOption

def Owned (p : Pointer) : Prop := ∃ block, p = .malloc block

theorem argument_borrowed (argc k : Nat) : ¬ Owned (argument argc k) := by
  rintro ⟨block, same⟩
  unfold argument at same
  split at same <;> cases same

theorem owned_iff (p : Pointer) :
    p ∈ [Pointer.malloc .portname, .malloc .destinationportname, .malloc .destinationfile] ↔ Owned p := by
  constructor
  · intro among
    simp only [List.mem_cons, List.not_mem_nil, or_false] at among
    rcases among with rfl | rfl | rfl <;> exact ⟨_, rfl⟩
  · rintro ⟨block, rfl⟩
    cases block <;> simp

theorem loopCalls_idle (args : List (List Char)) :
    heap.acquired (loopCalls 1 args) = [] ∧ heap.needed (loopCalls 1 args) = [] ∧
      heap.released (loopCalls 1 args) = [] := by
  have quiet : ∀ view : MainCall → Option Pointer, (∀ k, view (.interpret k) = none) → (∀ k, view (.take k) = none) →
      (loopCalls 1 args).filterMap view = [] := by
    intro view interprets takes
    apply List.filterMap_eq_nil_iff.mpr
    intro call among
    rcases loopCalls_quiet among with ⟨k, rfl⟩ | ⟨k, rfl⟩
    · exact interprets k
    · exact takes k
  exact ⟨quiet heap.acquires (fun _ => rfl) fun _ => rfl, quiet heap.needs (fun _ => rfl) fun _ => rfl,
    quiet heap.releases (fun _ => rfl) fun _ => rfl⟩

theorem frees_pointers {s : Settings}
    (calls : main args = [MainCall.malloc .portname, MainCall.malloc .destinationportname,
        MainCall.malloc .destinationfile] ++
      (loopCalls 1 args ++ [MainCall.dataInit s, MainCall.dataClean, MainCall.free s.portname,
        MainCall.free s.destinationportname])) :
    Frees (main args) ↔
      (Owned s.portname ∧ Owned s.destinationportname) ∧ ¬ s.portname = s.destinationportname := by
  obtain ⟨acquired, needed, released⟩ := loopCalls_idle args
  have freed : heap.released (main args) = [s.portname, s.destinationportname] := by
    rw [calls, Ledger.released_append, Ledger.released_append, released]
    rfl
  have grounded : heap.Grounded [] (main args) ↔ ∀ p ∈ [s.portname, s.destinationportname], Owned p := by
    have blocks : heap.acquired [.malloc .portname, .malloc .destinationportname, .malloc .destinationfile] =
        [.malloc .portname, .malloc .destinationportname, .malloc .destinationfile] := rfl
    have first : heap.Grounded [] [.malloc .portname, .malloc .destinationportname, .malloc .destinationfile] :=
      Ledger.grounded_free _ rfl
    have last : ∀ had, heap.Grounded had [.dataInit s, .dataClean, .free s.portname, .free s.destinationportname] ↔
        ∀ p ∈ [s.portname, s.destinationportname], p ∈ had := fun had => Ledger.grounded_idle _ rfl
    rw [calls, Ledger.grounded_append, Ledger.grounded_append, acquired, List.append_nil, blocks, List.nil_append, last]
    simp only [owned_iff]
    exact ⟨fun both => both.2.2, fun own => ⟨first, Ledger.grounded_free _ needed, own⟩⟩
  rw [Frees, freed, grounded, List.nodup_cons]
  simp

theorem frees_iff (accepted : .usage ∉ main args) : Frees (main args) ↔ ∀ a ∈ args, ¬ TakesValue a := by
  obtain ⟨s, calls, portname, destinationportname⟩ := main_accepts accepted
  rw [frees_pointers calls]
  constructor
  · rintro ⟨⟨source, destination⟩, _⟩ a among (is | is)
    · obtain ⟨k, moves⟩ := moved_some ⟨a, among, is⟩
      rw [portname, moves] at source
      exact argument_borrowed _ k source
    · obtain ⟨k, moves⟩ := moved_some ⟨a, among, is⟩
      rw [destinationportname, moves] at destination
      exact argument_borrowed _ k destination
  · intro none
    rw [moved_none fun a among is => none a among (.inl is)] at portname
    rw [moved_none fun a among is => none a among (.inr is)] at destinationportname
    rw [portname, destinationportname]
    exact ⟨⟨⟨_, rfl⟩, ⟨_, rfl⟩⟩, by decide⟩

/-- The command line. Unless main answers with the usage text, it treats the port names soundly exactly if no argument
is an option that takes one. -/
theorem command_line (args : List (List Char)) (accepted : .usage ∉ main args) :
    Sound (main args) ↔ ∀ a ∈ args, ¬ TakesValue a := by
  constructor
  · intro sound
    exact (frees_iff accepted).mp sound.frees
  · intro none
    refine ⟨(given_iff accepted).mpr ?_, (values_iff accepted).mpr ?_, (frees_iff accepted).mpr none⟩
    · intro a last
      exact none a (List.mem_of_getLast? last)
    · intro i a b here _ takes
      exact absurd takes (none a (List.mem_of_getElem? here))

/-- The blocks of malloc are all that main without a port name frees. -/
theorem verbose_sound : .usage ∉ main ["-v".toList] ∧ Sound (main ["-v".toList]) :=
  ⟨by decide, (command_line ["-v".toList] (by decide)).mpr (by decide)⟩

/-- A source port name is freed, though it is an argument; and without one the option `-d` that follows is a value. -/
theorem source_unsound :
    .usage ∉ main ["-s".toList, "/dev/ttyUSB0".toList] ∧
      .free (.argv 2) ∈ main ["-s".toList, "/dev/ttyUSB0".toList] ∧
      ¬ Frees (main ["-s".toList, "/dev/ttyUSB0".toList]) ∧
      .usage ∉ main ["-s".toList, "-d".toList] ∧
      ¬ Values (main ["-s".toList, "-d".toList]) ∧
      ¬ Given (main ["-s".toList, "-d".toList]) := by
  have calls : main ["-s".toList, "-d".toList] =
      [.malloc .portname, .malloc .destinationportname, .malloc .destinationfile,
       .interpret 1, .take 2, .interpret 2, .take 3,
       .dataInit ⟨.argv 2, .null, false, false, false, false, false⟩, .dataClean, .free (.argv 2), .free .null] := by
    decide
  have once : main ["-s".toList, "/dev/ttyUSB0".toList] =
      [.malloc .portname, .malloc .destinationportname, .malloc .destinationfile, .interpret 1, .take 2,
       .dataInit ⟨.argv 2, .malloc .destinationportname, false, false, false, false, false⟩, .dataClean,
       .free (.argv 2), .free (.malloc .destinationportname)] := by
    decide
  refine ⟨by decide, by decide, ?_, by decide, ?_, ?_⟩
  · rw [once]
    rintro ⟨grounded, _⟩
    simp [Ledger.Grounded, heap] at grounded
  · rw [calls]
    intro values
    exact values 2 (by decide) (by decide)
  · rw [calls]
    intro given
    have named := given ⟨.argv 2, .null, false, false, false, false, false⟩ (by decide)
    exact named.2 rfl

end SerialTiming.Laws.CommandLine
