/- module: SerialTiming/Laws/Options
   digest: Which command lines main answers with the usage text, and what it hands to dataInit for the others. -/

import SerialTiming.Machines.Writes
import SerialTiming.Program.Main

set_option autoImplicit false
set_option relaxedAutoImplicit false

namespace SerialTiming.Laws.Options

open Machines.Writes Program.Main

/-- The options that main knows, but for the one that asks for help. -/
def Known (c : Char) : Prop := c ∈ ['s', 'f', 'x', 'z', 'd', 'o', 'v']

instance (c : Char) : Decidable (Known c) := by
  unfold Known
  infer_instance

section Writes

def writes {α : Type} (letters : Char → Option α) (a : List Char) : Option α :=
  if IsOption a then letters (charAt a 1) else none

def sendModes : Char → Option Bool
  | 'x' => some true
  | 'z' => some false
  | _ => none

def ftdiModes : Char → Option Bool
  | 'f' => some true
  | 's' | 'x' | 'd' => some false
  | _ => none

def cmdLineFailures : Char → Option Bool
  | 's' | 'x' | 'z' | 'd' => some false
  | _ => none

def cmdVerboseModes : Char → Option Bool
  | 'v' => some true
  | _ => none

def lograwdatas : Char → Option Bool
  | 'o' => some true
  | _ => none

def moves (letter : Char) (next : Pointer) (c : Char) : Option Pointer := if c = letter then some next else none

end Writes

/-- What some arguments from `n` on make of the settings: each holds what the last argument wrote that writes it. -/
def settledFrom (argc n : Nat) (args : List (List Char)) (s : Settings) : Settings where
  portname := latest (fun place => writes (moves 's' (argument argc (place.2 + 1))) place.1) (args.zipIdx n) s.portname
  destinationportname :=
    latest (fun place => writes (moves 'd' (argument argc (place.2 + 1))) place.1) (args.zipIdx n) s.destinationportname
  sendMode := latest (writes sendModes) args s.sendMode
  ftdiMode := latest (writes ftdiModes) args s.ftdiMode
  cmdLineFailure := latest (writes cmdLineFailures) args s.cmdLineFailure
  cmdVerboseMode := latest (writes cmdVerboseModes) args s.cmdVerboseMode
  lograwdata := latest (writes lograwdatas) args s.lograwdata

def settled (args : List (List Char)) : Settings := settledFrom (args.length + 1) 1 args Settings.start

/-- A text stands before every option that allows one. -/
def TextFirst (args : List (List Char)) : Prop :=
  ∃ front a back, args = front ++ a :: back ∧ ¬ IsOption a ∧ ∀ b ∈ front, writes cmdLineFailures b = none

/-- The command line has an unknown option, or a text where none is allowed yet. -/
def Refused (failure : Bool) (args : List (List Char)) : Prop :=
  (∃ a ∈ args, IsOption a ∧ ¬ Known (charAt a 1)) ∨ failure = true ∧ TextFirst args

variable {argc n : Nat} {args : List (List Char)} {s : Settings}

def written (argc n : Nat) (a : List Char) (s : Settings) : Settings where
  portname := (writes (moves 's' (argument argc (n + 1))) a).getD s.portname
  destinationportname := (writes (moves 'd' (argument argc (n + 1))) a).getD s.destinationportname
  sendMode := (writes sendModes a).getD s.sendMode
  ftdiMode := (writes ftdiModes a).getD s.ftdiMode
  cmdLineFailure := (writes cmdLineFailures a).getD s.cmdLineFailure
  cmdVerboseMode := (writes cmdVerboseModes a).getD s.cmdVerboseMode
  lograwdata := (writes lograwdatas a).getD s.lograwdata

theorem option_settles {a : List Char} (inside : argc > n) (isOption : IsOption a) :
    option argc n (charAt a 1) s = if Known (charAt a 1) then some (written argc n a s) else none := by
  have here {α : Type} (letters : Char → Option α) : writes letters a = letters (charAt a 1) := if_pos isOption
  simp only [written, here]
  generalize charAt a 1 = c
  unfold option
  split
  iterate 6 · simp [inside, Known, moves, sendModes, ftdiModes, cmdLineFailures, cmdVerboseModes, lograwdatas]
  · simp [Known, moves, sendModes, ftdiModes, cmdLineFailures, cmdVerboseModes, lograwdatas]
  · rename_i other
    rw [if_neg]
    intro known
    simp only [Known, List.mem_cons, List.not_mem_nil, or_false] at known
    simp_all

theorem written_text {a : List Char} (text : ¬ IsOption a) : written argc n a s = s := by
  simp only [written, writes, if_neg text, Option.getD_none]

theorem settledFrom_cons (a : List Char) :
    settledFrom argc n (a :: args) s = settledFrom argc (n + 1) args (written argc n a s) := by
  simp only [settledFrom, written, List.zipIdx_cons, latest_cons]

theorem textFirst_cons (a : List Char) :
    TextFirst (a :: args) ↔ ¬ IsOption a ∨ writes cmdLineFailures a = none ∧ TextFirst args := by
  constructor
  · rintro ⟨front, b, back, split, text, quiet⟩
    cases front with
    | nil =>
        obtain ⟨rfl, rfl⟩ := List.cons.inj split
        exact .inl text
    | cons c front =>
        obtain ⟨rfl, rfl⟩ := List.cons.inj split
        exact .inr ⟨quiet a List.mem_cons_self, front, b, back, rfl, text,
          fun d among => quiet d (List.mem_cons_of_mem _ among)⟩
  · rintro (text | ⟨quiet, front, b, back, rfl, text, others⟩)
    · exact ⟨[], a, args, rfl, text, fun b among => by cases among⟩
    · exact ⟨a :: front, b, back, rfl, text, List.forall_mem_cons.mpr ⟨quiet, others⟩⟩

theorem refused_cons (failure : Bool) (a : List Char) :
    Refused failure (a :: args) ↔
      (IsOption a ∧ ¬ Known (charAt a 1)) ∨ (¬ IsOption a ∧ failure = true) ∨
        Refused ((writes cmdLineFailures a).getD failure) args := by
  have written : ∀ b, writes cmdLineFailures a = some b → b = false := by
    intro b write
    unfold writes cmdLineFailures at write
    split at write
    · split at write <;> simp_all
    · cases write
  rw [Refused, Refused, textFirst_cons, List.exists_mem_cons_iff]
  cases write : writes cmdLineFailures a with
  | none =>
      simp only [Option.getD_none, true_and, and_or_left, and_comm (a := ¬ IsOption a)]
      exact or_assoc.trans (or_congr_right or_left_comm)
  | some b =>
      obtain rfl := written b write
      have isOption : IsOption a := by
        by_contra text
        rw [writes, if_neg text] at write
        cases write
      simp [isOption]

/-- The loop over the arguments stops at a refused one, and else it settles the settings. -/
theorem scan_settles (size : argc = n + args.length) :
    (Refused s.cmdLineFailure args → (scan argc n args s).2 = none) ∧
      (¬ Refused s.cmdLineFailure args → (scan argc n args s).2 = some (settledFrom argc n args s)) := by
  induction args generalizing n s with
  | nil =>
      refine ⟨?_, fun _ => rfl⟩
      rintro (⟨a, among, _⟩ | ⟨_, front, a, back, split, _⟩)
      · cases among
      · exact absurd (congrArg List.length split) (by simp)
  | cons a args ih =>
      rw [List.length_cons] at size
      have inside : argc > n := by omega
      rw [scan, refused_cons, settledFrom_cons]
      by_cases isOption : IsOption a
      · have dash : charAt a 0 = '-' := isOption
        rw [if_pos dash, option_settles inside isOption]
        by_cases known : Known (charAt a 1)
        · rw [if_pos known, or_iff_right fun both => both.2 known, or_iff_right fun both => both.1 isOption]
          exact ih (s := written argc n a s) (by omega)
        · rw [if_neg known]
          exact ⟨fun _ => rfl, fun fine => absurd (Or.inl ⟨isOption, known⟩) fine⟩
      · have text : ¬ charAt a 0 = '-' := isOption
        have nothing : writes cmdLineFailures a = none := if_neg isOption
        rw [if_neg text, written_text isOption, nothing, Option.getD_none]
        by_cases failure : s.cmdLineFailure = true
        · rw [if_pos failure]
          exact ⟨fun _ => rfl, fun fine => absurd (Or.inr (.inl ⟨isOption, failure⟩)) fine⟩
        · rw [if_neg failure]
          rw [or_iff_right fun both => isOption both.1, or_iff_right fun both => failure both.2]
          exact ih (by omega)

theorem scan_noInit (given : Settings) : .dataInit given ∉ (scan argc n args s).1 := by
  induction args generalizing n s with
  | nil => exact List.not_mem_nil
  | cons a args ih =>
      rw [scan]
      split
      · split
        · simp
        · intro among
          rcases List.mem_append.mp among with here | later
          · simp [taken] at here
          · exact ih later
      split
      · simp
      · exact ih

theorem options_settle (args : List (List Char)) :
    (.usage ∈ main args ↔ Refused true args) ∧
      (Refused true args → ∀ s, .dataInit s ∉ main args) ∧
      (¬ Refused true args → ∀ s, (main args).count (.dataInit s) = if s = settled args then 1 else 0) := by
  have size : args.length + 1 = 1 + args.length := Nat.add_comm _ _
  obtain ⟨stops, goes⟩ := scan_settles size (s := Settings.start)
  have unread {call : MainCall} (quiet : call ∉ (scan (args.length + 1) 1 args Settings.start).1)
      (allocates : ∀ block, ¬ call = .malloc block)
      (ends : call ∉ finish (scan (args.length + 1) 1 args Settings.start).2) :
      call ∉ main args := by
    simp [main, quiet, allocates, ends]
  by_cases refused : Refused true args
  · have none := stops refused
    refine ⟨⟨fun _ => refused, fun _ => ?_⟩, fun _ s => ?_, fun fine => absurd refused fine⟩
    · exact List.mem_append_right _ (List.mem_append_left _ (scan_usage none))
    · exact unread (scan_noInit s) (by simp) (by simp [none, finish])
  · have some := goes refused
    obtain ⟨calls, _, _⟩ := scan_accepts size some
    have quiet : .usage ∉ (scan (args.length + 1) 1 args Settings.start).1 := by
      rw [calls]
      intro among
      rcases loopCalls_quiet among with ⟨k, same⟩ | ⟨k, same⟩ <;> cases same
    refine ⟨⟨fun printed => absurd printed ?_, fun refused' => absurd refused' refused⟩,
      fun refused' => absurd refused' refused, fun _ s => ?_⟩
    · exact unread quiet (by simp) (by simp [some, finish])
    · have loop : (scan (args.length + 1) 1 args Settings.start).1.count (.dataInit s) = 0 :=
        List.count_eq_zero.mpr (scan_noInit s)
      have ends : finish (scan (args.length + 1) 1 args Settings.start).2 = [.dataInit (settled args), .dataClean,
          .free (settled args).portname, .free (settled args).destinationportname] := by
        rw [some]
        rfl
      rw [main, ends, List.count_append, List.count_append, loop]
      by_cases same : s = settled args
      · simp [same]
      · have other : ¬ settled args = s := fun equal => same equal.symm
        simp [same, other]

end SerialTiming.Laws.Options
