/- module: SerialTiming/Program/Main
   digest: main.cpp: the option loop, and the two port names that main hands over and frees. -/

import SerialTiming.CLib.Strings
import SerialTiming.Machines.Resources

set_option autoImplicit false
set_option relaxedAutoImplicit false

namespace SerialTiming.Program.Main

open CLib.Strings Machines.Resources

/-- The blocks that main gets from malloc. -/
inductive Block where
  | portname | destinationportname | destinationfile
  deriving DecidableEq, Repr

/-- What a `char *` of main points to: a block, an element of `argv`, or nothing. -/
inductive Pointer where
  | malloc (block : Block)
  | argv (n : Nat)
  | null
  deriving DecidableEq, Repr

/-- The variables of main that its options set. -/
structure Settings where
  portname : Pointer
  destinationportname : Pointer
  sendMode : Bool
  ftdiMode : Bool
  cmdLineFailure : Bool
  cmdVerboseMode : Bool
  lograwdata : Bool
  deriving DecidableEq, Repr

def Settings.start : Settings where
  portname := .malloc .portname
  destinationportname := .malloc .destinationportname
  sendMode := false
  ftdiMode := true
  cmdLineFailure := true
  cmdVerboseMode := false
  lograwdata := false

/-- What main does: it allocates, goes to the option switch with an argument, takes one as a value, prints the usage
text, hands the settings to dataInit, cleans up, and frees. -/
inductive MainCall where
  | malloc (block : Block)
  | interpret (n : Nat)
  | take (n : Nat)
  | usage
  | dataInit (settings : Settings)
  | dataClean
  | free (pointer : Pointer)
  deriving DecidableEq, Repr

/-- The blocks: malloc gives one, free needs one and gives it back. -/
def heap : Ledger MainCall Pointer where
  acquires
    | .malloc block => some (.malloc block)
    | _ => none
  needs
    | .free pointer => some pointer
    | _ => none
  releases
    | .free pointer => some pointer
    | _ => none

def charAt (a : List Char) (i : Nat) : Char := (a ++ [nul]).getD i nul

def argument (argc n : Nat) : Pointer := if n < argc then .argv n else .null

/-- The switch over the option char of argument `n`: nothing where main prints the usage text. -/
def option (argc n : Nat) (c : Char) (s : Settings) : Option Settings :=
  match c with
  | 's' => some (if argc > n then
      { s with portname := argument argc (n + 1), cmdLineFailure := false, ftdiMode := false } else s)
  | 'f' => some (if argc > n then { s with ftdiMode := true } else s)
  | 'x' => some (if argc > n then { s with sendMode := true, cmdLineFailure := false, ftdiMode := false } else s)
  | 'z' => some (if argc > n then { s with sendMode := false, cmdLineFailure := false } else s)
  | 'd' => some (if argc > n then
      { s with destinationportname := argument argc (n + 1), cmdLineFailure := false, ftdiMode := false } else s)
  | 'o' => some (if argc > n then { s with lograwdata := true } else s)
  | 'v' => some { s with cmdVerboseMode := true }
  | _ => none -- `-h` and unknown options

/-- The value that an option takes. -/
def taken (argc n : Nat) (c : Char) : List MainCall :=
  if (c = 's' ∨ c = 'd') ∧ argc > n then [.take (n + 1)] else []

/-- The loop over the arguments from `n` on. It goes on with the next one even if that was taken. -/
def scan (argc : Nat) : Nat → List (List Char) → Settings → List MainCall × Option Settings
  | _, [], s => ([], some s)
  | n, a :: args, s =>
      if charAt a 0 = '-' then
        match option argc n (charAt a 1) s with
        | none => ([.interpret n, .usage], none)
        | some s =>
            let r := scan argc (n + 1) args s
            (.interpret n :: taken argc n (charAt a 1) ++ r.1, r.2)
      else if s.cmdLineFailure then ([.usage], none)
      else scan argc (n + 1) args s

/-- What follows the loop if it has not printed the usage text. -/
def finish : Option Settings → List MainCall
  | none => []
  | some s => [.dataInit s, .dataClean, .free s.portname, .free s.destinationportname]

/-- main on the arguments behind the name of the program. -/
def main (args : List (List Char)) : List MainCall :=
  let r := scan (args.length + 1) 1 args Settings.start
  [.malloc .portname, .malloc .destinationportname, .malloc .destinationfile] ++ (r.1 ++ finish r.2)

def IsOption (a : List Char) : Prop := charAt a 0 = '-'

instance (a : List Char) : Decidable (IsOption a) := by
  unfold IsOption
  infer_instance

def Is (c : Char) (a : List Char) : Prop := IsOption a ∧ charAt a 1 = c

instance (c : Char) (a : List Char) : Decidable (Is c a) := by
  unfold Is
  infer_instance

/-- The argument is an option that takes a value. -/
def TakesValue (a : List Char) : Prop := Is 's' a ∨ Is 'd' a

instance (a : List Char) : Decidable (TakesValue a) := by
  unfold TakesValue
  infer_instance

def argumentCalls (n : Nat) (a : List Char) : List MainCall :=
  if IsOption a then .interpret n :: if TakesValue a then [.take (n + 1)] else [] else []

def loopCalls : Nat → List (List Char) → List MainCall
  | _, [] => []
  | n, a :: args => argumentCalls n a ++ loopCalls (n + 1) args

/-- Where a pointer points after the loop that the option `c` moves to the next argument. -/
def moved (c : Char) (argc : Nat) : Nat → List (List Char) → Pointer → Pointer
  | _, [], p => p
  | n, a :: args, p => moved c argc (n + 1) args (if Is c a then argument argc (n + 1) else p)

theorem option_pointers {argc n : Nat} {c : Char} {s s' : Settings} (inside : argc > n)
    (goes : option argc n c s = some s') :
    s'.portname = (if c = 's' then argument argc (n + 1) else s.portname) ∧
    s'.destinationportname = (if c = 'd' then argument argc (n + 1) else s.destinationportname) := by
  unfold option at goes
  split at goes
  all_goals first
    | (obtain rfl := Option.some.inj goes; simp [inside])
    | cases goes

theorem scan_usage {argc n : Nat} {args : List (List Char)} {s : Settings} (stops : (scan argc n args s).2 = none) :
    .usage ∈ (scan argc n args s).1 := by
  induction args generalizing n s with
  | nil => cases stops
  | cons a args ih =>
      rw [scan] at stops ⊢
      split at stops
      · rename_i dash
        rw [if_pos dash]
        split at stops
        · exact List.mem_cons_of_mem _ List.mem_cons_self
        · exact List.mem_append_right _ (ih stops)
      · rename_i text
        rw [if_neg text]
        split at stops
        · rename_i failure
          rw [if_pos failure]
          exact List.mem_cons_self
        · rename_i options
          rw [if_neg options]
          exact ih stops

/-- The loop that does not print the usage text. -/
theorem scan_accepts {argc n : Nat} {args : List (List Char)} {s s' : Settings} (size : argc = n + args.length)
    (goes : (scan argc n args s).2 = some s') :
    (scan argc n args s).1 = loopCalls n args ∧ s'.portname = moved 's' argc n args s.portname ∧
      s'.destinationportname = moved 'd' argc n args s.destinationportname := by
  induction args generalizing n s with
  | nil =>
      obtain rfl := Option.some.inj goes
      exact ⟨rfl, rfl, rfl⟩
  | cons a args ih =>
      rw [List.length_cons] at size
      have inside : argc > n := by omega
      rw [scan] at goes ⊢
      by_cases dash : charAt a 0 = '-'
      · rw [if_pos dash] at goes ⊢
        cases known : option argc n (charAt a 1) s with
        | none =>
            rw [known] at goes
            cases goes
        | some s₁ =>
            rw [known] at goes
            obtain ⟨source, destination⟩ := option_pointers inside known
            obtain ⟨calls, portname, destinationportname⟩ := ih (by omega) goes
            have isOption : IsOption a := dash
            refine ⟨?_, ?_, ?_⟩
            · have own : MainCall.interpret n :: taken argc n (charAt a 1) = argumentCalls n a := by
                simp [argumentCalls, taken, TakesValue, Is, isOption, inside]
              rw [loopCalls, ← own, ← calls]
            · rw [portname, source, moved]
              simp [Is, isOption]
            · rw [destinationportname, destination, moved]
              simp [Is, isOption]
      · rw [if_neg dash] at goes ⊢
        have noOption : ¬ IsOption a := dash
        split at goes
        · cases goes
        · rename_i options
          rw [if_neg options]
          obtain ⟨calls, portname, destinationportname⟩ := ih (by omega) goes
          refine ⟨?_, ?_, ?_⟩
          · rw [calls, loopCalls, argumentCalls, if_neg noOption, List.nil_append]
          · rw [portname, moved]
            simp [Is, noOption]
          · rw [destinationportname, moved]
            simp [Is, noOption]

theorem main_accepts {args : List (List Char)} (accepted : .usage ∉ main args) :
    ∃ s : Settings, main args = [MainCall.malloc .portname, MainCall.malloc .destinationportname,
          MainCall.malloc .destinationfile] ++
        (loopCalls 1 args ++ [MainCall.dataInit s, MainCall.dataClean, MainCall.free s.portname,
          MainCall.free s.destinationportname]) ∧
      s.portname = moved 's' (args.length + 1) 1 args (.malloc .portname) ∧
      s.destinationportname = moved 'd' (args.length + 1) 1 args (.malloc .destinationportname) := by
  cases result : (scan (args.length + 1) 1 args Settings.start).2 with
  | none =>
      refine absurd ?_ accepted
      rw [main]
      exact List.mem_append_right _ (List.mem_append_left _ (scan_usage result))
  | some s =>
      obtain ⟨calls, portname, destinationportname⟩ := scan_accepts (Nat.add_comm args.length 1) result
      refine ⟨s, ?_, portname, destinationportname⟩
      rw [main, calls, result]
      rfl

variable {c : Char} {argc n : Nat} {args : List (List Char)} {p : Pointer}

theorem moved_none (none : ∀ a ∈ args, ¬ Is c a) : moved c argc n args p = p := by
  induction args generalizing n with
  | nil => rfl
  | cons a args ih =>
      rw [moved, if_neg (none a List.mem_cons_self)]
      exact ih fun other among => none other (List.mem_cons_of_mem _ among)

theorem moved_some (some : ∃ a ∈ args, Is c a) : ∃ k, moved c argc n args p = argument argc k := by
  induction args generalizing n p with
  | nil =>
      obtain ⟨a, among, _⟩ := some
      cases among
  | cons a args ih =>
      by_cases later : ∃ b ∈ args, Is c b
      · exact ih later
      · have first : Is c a := by
          obtain ⟨b, among, is⟩ := some
          rcases List.mem_cons.mp among with rfl | among
          · exact is
          · exact absurd ⟨b, among, is⟩ later
        refine ⟨n + 1, ?_⟩
        rw [moved, if_pos first]
        exact moved_none fun b among is => later ⟨b, among, is⟩

/-- Only the last argument leaves nothing to point to. -/
theorem moved_null (size : argc = n + args.length) (given : ¬ p = .null) :
    moved c argc n args p = .null ↔ ∃ a, args.getLast? = some a ∧ Is c a := by
  induction args generalizing n p with
  | nil => simp [moved, given]
  | cons a args ih =>
      rw [List.length_cons] at size
      rw [moved]
      cases args with
      | nil =>
          have past : ¬ n + 1 < argc := by
            rw [List.length_nil] at size
            omega
          by_cases is : Is c a
          · rw [if_pos is, moved, argument, if_neg past]
            simp [is]
          · rw [if_neg is, moved]
            simp [is, given]
      | cons b args =>
          have inside : n + 1 < argc := by
            rw [List.length_cons] at size
            omega
          have stays : ¬ (if Is c a then argument argc (n + 1) else p) = .null := by
            split
            · rw [argument, if_pos inside]
              exact Pointer.noConfusion
            · exact given
          rw [List.getLast?_cons_cons]
          exact ih (by omega) stays

theorem mem_loopCalls {call : MainCall} :
    call ∈ loopCalls n args ↔ ∃ (i : Nat) (a : List Char), args[i]? = some a ∧ call ∈ argumentCalls (n + i) a := by
  induction args generalizing n with
  | nil => simp [loopCalls]
  | cons a args ih =>
      rw [loopCalls, List.mem_append, ih]
      constructor
      · rintro (here | ⟨i, b, there, made⟩)
        · exact ⟨0, a, rfl, here⟩
        · refine ⟨i + 1, b, there, ?_⟩
          rwa [Nat.add_right_comm] at made
      · rintro ⟨i, b, there, made⟩
        cases i with
        | zero =>
            obtain rfl := Option.some.inj there
            exact .inl made
        | succ i =>
            refine .inr ⟨i, b, there, ?_⟩
            rwa [Nat.add_right_comm]

theorem interpret_argumentCalls {k : Nat} {a : List Char} :
    .interpret k ∈ argumentCalls n a ↔ k = n ∧ IsOption a := by
  unfold argumentCalls
  split
  · rename_i isOption
    split <;> simp [isOption]
  · rename_i other
    simp [other]

theorem take_argumentCalls {k : Nat} {a : List Char} : .take k ∈ argumentCalls n a ↔ k = n + 1 ∧ TakesValue a := by
  unfold argumentCalls
  split
  · split <;> rename_i takes <;> simp [takes]
  · rename_i other
    have none : ¬ TakesValue a := fun takes => takes.elim (fun is => other is.1) fun is => other is.1
    simp [none]

theorem loopCalls_quiet {call : MainCall} (among : call ∈ loopCalls n args) :
    (∃ k, call = .interpret k) ∨ ∃ k, call = .take k := by
  obtain ⟨i, a, _, made⟩ := mem_loopCalls.mp among
  unfold argumentCalls at made
  split at made
  · split at made
    · simp only [List.mem_cons, List.not_mem_nil, or_false] at made
      exact made.imp (fun same => ⟨_, same⟩) fun same => ⟨_, same⟩
    · exact .inl ⟨_, List.mem_singleton.mp made⟩
  · cases made

end SerialTiming.Program.Main
