/- module: SerialTiming/Receiver/PortNames
   digest: readwin.cpp: how read picks its ports from a table of names, before it reads anything. -/

import SerialTiming.CLib.Buffers
import SerialTiming.CLib.Numbers

set_option autoImplicit false
set_option relaxedAutoImplicit false

namespace SerialTiming.Receiver.PortNames

open CLib.Objects CLib.Strings CLib.Buffers CLib.Numbers

def rs232Portnr : Nat := 32

/-- The port of a number, as CreateFileA takes it. -/
def comport (n : Nat) : List Char := "\\\\.\\COM".toList ++ decimal n

def comports : Vector (List Char) rs232Portnr := Vector.ofFn fun i => comport (i.val + 1)

/-- A string of at least four chars, as the command line gives it. -/
structure PortName where
  chars : List Char
  clean : nul ∉ chars
  long : 4 ≤ chars.length

/-- What atoi gets of a name: the two chars copied from offset 3, up to the terminator of the name. -/
def subbuff (name : List Char) : List Char := (((name ++ [nul]).drop 3).take 2).takeWhile (· != nul)

def comportNumber (name : List Char) : Int := atoi (subbuff name) - 1

/-- Whether the calls that set up the source port succeed. -/
structure SetUp where
  createFile : Bool
  getCommState : Bool
  setCommState : Bool
  getCommStateAgain : Bool
  setCommTimeouts : Bool
  setCommMask : Bool
  createEvent : Bool
  deriving DecidableEq, Repr

/-- How the set-up ends: read returns an error, an assertion fails, or the loop begins. -/
inductive Exit where
  | returned (code : Nat)
  | aborted
  | loops
  deriving DecidableEq, Repr

/-- The names that read took from the table. -/
structure Ports where
  source : List Char
  destination : Option (List Char)
  exit : Exit
  deriving DecidableEq, Repr

/-- The destination port is looked up only to forward. What setDestSerialPort returns is not looked at. -/
def forwardPort (forward : Bool) (comdstNumber : Int) (source : List Char) : Checked Ports :=
  if forward then do
    let destination ← loadAt comports comdstNumber
    .ok { source := source, destination := some destination, exit := .loops }
  else .ok { source := source, destination := none, exit := .loops }

/-- read up to its loop. A build with NDEBUG leaves the assertion out. -/
def read (ndebug : Bool) (portname dstname : List Char) (forward : Bool) (s : SetUp) : Checked Ports := do
  let source ← loadAt comports (comportNumber portname)
  if s.createFile = false then .ok { source := source, destination := none, exit := .returned 1 }
  else if s.getCommState = false then .ok { source := source, destination := none, exit := .returned 1 }
  else if s.setCommState = false then .ok { source := source, destination := none, exit := .returned 1 }
  else if s.getCommStateAgain = false then .ok { source := source, destination := none, exit := .returned 1 }
  else if s.setCommTimeouts = false then .ok { source := source, destination := none, exit := .returned 1 }
  else if s.setCommMask = false then .ok { source := source, destination := none, exit := .returned 1 }
  else if ndebug = false ∧ s.createEvent = false then
    .ok { source := source, destination := none, exit := .aborted }
  else forwardPort forward (comportNumber dstname) source

/-- All calls that set up the source port and are looked at succeed. -/
def SetUp.Succeeds (ndebug : Bool) (s : SetUp) : Prop :=
  s.createFile = true ∧ s.getCommState = true ∧ s.setCommState = true ∧ s.getCommStateAgain = true ∧
    s.setCommTimeouts = true ∧ s.setCommMask = true ∧ (ndebug = true ∨ s.createEvent = true)

/-- The name tells a port of the table. -/
def Names (name : List Char) (n : Nat) : Prop := 1 ≤ n ∧ n ≤ rs232Portnr ∧ Spells (subbuff name) n

theorem loadAt_names {name : List Char} {n : Nat} (names : Names name n) :
    loadAt comports (comportNumber name) = .ok (comport n) := by
  obtain ⟨low, high, spells⟩ := names
  have value : atoi (subbuff name) = n := (atoi_positive (by omega)).mpr spells
  have index : comportNumber name = ((n - 1 : Nat) : Int) := by
    unfold comportNumber
    omega
  have below : n - 1 < rs232Portnr := by omega
  have cell : comports[n - 1] = comport n := by
    rw [comports, Vector.getElem_ofFn]
    exact congrArg comport (Nat.sub_add_cancel low)
  rw [index, loadAt_ok comports below, cell]

theorem loadAt_nameless {name : List Char} (nameless : ¬ ∃ n, Names name n) :
    loadAt comports (comportNumber name) = .error .outside := by
  apply loadAt_outside
  rintro ⟨sign, below⟩
  obtain ⟨n, value⟩ := Int.eq_ofNat_of_zero_le sign
  have read : atoi (subbuff name) = ((n + 1 : Nat) : Int) := by
    unfold comportNumber at value
    omega
  have spells := (atoi_positive (Nat.succ_pos n)).mp read
  exact nameless ⟨n + 1, by omega, by omega, spells⟩

theorem read_named (ndebug : Bool) {portname : List Char} (dstname : List Char) (forward : Bool) (s : SetUp) {n : Nat}
    (names : Names portname n) :
    (s.Succeeds ndebug ∧
      read ndebug portname dstname forward s = forwardPort forward (comportNumber dstname) (comport n)) ∨
    (¬ s.Succeeds ndebug ∧ ∃ exit, read ndebug portname dstname forward s = .ok ⟨comport n, none, exit⟩) := by
  unfold read SetUp.Succeeds
  rw [loadAt_names names, ok_bind]
  obtain ⟨a, b, c, d, e, f, g⟩ := s
  cases a
  · exact .inr ⟨by simp, _, rfl⟩
  cases b
  · exact .inr ⟨by simp, _, rfl⟩
  cases c
  · exact .inr ⟨by simp, _, rfl⟩
  cases d
  · exact .inr ⟨by simp, _, rfl⟩
  cases e
  · exact .inr ⟨by simp, _, rfl⟩
  cases f
  · exact .inr ⟨by simp, _, rfl⟩
  cases ndebug
  · cases g
    · exact .inr ⟨by simp, _, rfl⟩
    · exact .inl ⟨by simp, rfl⟩
  · exact .inl ⟨by simp, rfl⟩

def comName (n : Nat) : List Char := "com".toList ++ decimal n

/-- Of a usual name atoi gets the number. -/
theorem subbuff_comName {n : Nat} (two : n < 100) : subbuff (comName n) = decimal n := by
  have short : (decimal n).length ≤ 2 := decimal_length_le (by decide) two
  have digits : ∀ c ∈ decimal n, (c != nul) = true := by
    intro c among
    have digit : c.isDigit = true := Nat.isDigit_of_mem_toDigits (by decide) (by decide) among
    rw [bne_iff_ne]
    rintro rfl
    exact absurd digit (by decide)
  have cut : (comName n ++ [nul]).drop 3 = decimal n ++ [nul] := rfl
  rw [subbuff, cut]
  rcases Nat.lt_or_ge (decimal n).length 2 with one | both
  · have whole : (decimal n ++ [nul]).take 2 = decimal n ++ [nul] :=
      List.take_of_length_le (by simpa using one)
    rw [whole, List.takeWhile_append_of_pos digits]
    exact List.append_nil _
  · have front : (decimal n ++ [nul]).take 2 = decimal n := by
      rw [List.take_append_of_le_length both]
      exact List.take_of_length_le short
    rw [front, List.takeWhile_eq_self_iff]
    exact digits

theorem names_comName {n : Nat} (low : 1 ≤ n) (high : n ≤ rs232Portnr) : Names (comName n) n := by
  refine ⟨low, high, ?_⟩
  rw [subbuff_comName (Nat.lt_of_le_of_lt high (by decide))]
  exact spells_decimal n

end SerialTiming.Receiver.PortNames
