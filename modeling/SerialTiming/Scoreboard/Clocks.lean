/- module: SerialTiming/Scoreboard/Clocks
   digest: The two machines that watch the clock row: the send gate and the start/stop detector. -/

import SerialTiming.Scoreboard.Display

set_option autoImplicit false
set_option relaxedAutoImplicit false

namespace SerialTiming.Scoreboard.Clocks

open Display

/-- The globals of analyseRunningTime.cpp. -/
structure RunningTime where
  loopcount : Nat
  sendActiveState : Bool
  headerChange : Bool
  deriving DecidableEq, Repr

def inactiveTimeAfterStart : Nat := 200

def sendTimeEveryCounts : Nat := 20

def initRunninTime : RunningTime := ⟨0, false, false⟩

/-- The clock of a row in hundredths of a second. -/
def clockValue (data : Row) : Nat :=
  let minutes := (checkBitValue (data.get 4)).toNat * 10 + (checkBitValue (data.get 6)).toNat
  let seconds := (checkBitValue (data.get 8)).toNat * 10 + (checkBitValue (data.get 10)).toNat
  let decent := (checkBitValue (data.get 12)).toNat
  (minutes * 60 + seconds) * 100 + decent * 10

/-- Opens the gate above the limit and closes it below; at the limit it stays as it is. -/
def timehundredth (data : Row) (c : RunningTime) : Nat × RunningTime :=
  let timehundredth := clockValue data
  let sendActiveState := if timehundredth > inactiveTimeAfterStart then true else c.sendActiveState
  let sendActiveState := if timehundredth < inactiveTimeAfterStart then false else sendActiveState
  (timehundredth, { c with sendActiveState := sendActiveState })

def setsendActiveStateOff (c : RunningTime) : RunningTime :=
  { c with sendActiveState := false, headerChange := true }

/-- The globals of analyseStartStop.cpp. -/
structure StartStop where
  noworking : Nat
  pending : Bool
  bRunning : Bool
  bStopping : Bool
  deriving DecidableEq, Repr

/-- Static storage: nothing initialises these globals but the loader. -/
def initStartStop : StartStop := ⟨0, false, false, false⟩

/-- The loop of checknotnull over cells 12, 10, 8 and 6. Cell 4 is not among them. -/
def rowNotNull (data : Row) : Bool :=
  [data.get 12, data.get 10, data.get 8, data.get 6].any fun cell => cell != 0x0F && decide (cell > 0)

/-- Looks at the row on every sixth call while pending and on every call otherwise. -/
def checknotnull (data : Row) (s : StartStop) : Bool × StartStop :=
  let noworking := s.noworking + 1
  if noworking > 5 ∨ s.pending = false then
    (rowNotNull data, { s with noworking := 0, pending := rowNotNull data })
  else (s.pending, { s with noworking := noworking })

def StartStop.watch (data : Row) (s : StartStop) : StartStop :=
  { (checknotnull data s).2 with bRunning := (checknotnull data s).1 }

def StartStop.settle (s : StartStop) : StartStop := { s with bStopping := s.bRunning }

@[simp] theorem watch_bStopping (data : Row) (s : StartStop) : (s.watch data).bStopping = s.bStopping := by
  simp only [StartStop.watch, checknotnull]
  split <;> rfl

@[simp] theorem settle_bStopping (s : StartStop) : s.settle.bStopping = s.bRunning := rfl

/-- When checknotnull looks at the row at all. -/
def StartStop.Looks (s : StartStop) : Prop := s.noworking + 1 > 5 ∨ s.pending = false

instance (s : StartStop) : Decidable s.Looks := inferInstanceAs (Decidable (_ ∨ _))

theorem watch_bRunning (data : Row) (s : StartStop) :
    (s.watch data).bRunning = if s.Looks then rowNotNull data else s.pending := by
  by_cases looks : s.Looks
  · have now : s.noworking + 1 > 5 ∨ s.pending = false := looks
    simp only [StartStop.watch, checknotnull, if_pos now, if_pos looks]
  · have later : ¬ (s.noworking + 1 > 5 ∨ s.pending = false) := looks
    simp only [StartStop.watch, checknotnull, if_neg later, if_neg looks]

def displayedClock (row : Row) : List UInt8 :=
  [checkBitValue (row.get 4), checkBitValue (row.get 6), checkBitValue (row.get 8), checkBitValue (row.get 10),
    checkBitValue (row.get 12)]

def ShowsZero (row : Row) : Prop := ∀ d ∈ displayedClock row, d = 0

instance (row : Row) : Decidable (ShowsZero row) := inferInstanceAs (Decidable (∀ _ ∈ _, _))

theorem showsZero_iff (row : Row) : ShowsZero row ↔ clockValue row = 0 := by
  simp only [ShowsZero, displayedClock, List.mem_cons, List.not_mem_nil, or_false, forall_eq_or_imp, forall_eq]
  simp only [← UInt8.toNat_inj, UInt8.toNat_zero, clockValue]
  omega

/-- The cells that checknotnull goes through hold zeros and blanks only. -/
def NullCells (row : Row) : Prop :=
  ∀ cell ∈ [row.get 6, row.get 8, row.get 10, row.get 12], cell = 0x00 ∨ cell = 0x0F

instance (row : Row) : Decidable (NullCells row) := inferInstanceAs (Decidable (∀ _ ∈ _, _))

theorem rowNotNull_false (row : Row) : rowNotNull row = false ↔ NullCells row := by
  have skipped (cell : UInt8) :
      (cell != 0x0F && decide (cell > 0)) = false ↔ cell = 0x00 ∨ cell = 0x0F := by
    simp only [Bool.and_eq_false_iff, bne_eq_false_iff_eq, decide_eq_false_iff_not, gt_iff_lt,
      UInt8.lt_iff_toNat_lt, ← UInt8.toNat_inj, UInt8.toNat_zero]
    omega
  simp only [rowNotNull, NullCells, List.any_cons, List.any_nil, Bool.or_false, Bool.or_eq_false_iff, skipped,
    List.mem_cons, List.not_mem_nil, or_false, forall_eq_or_imp, forall_eq]
  constructor
  · rintro ⟨c12, c10, c8, c6⟩
    exact ⟨c6, c8, c10, c12⟩
  · rintro ⟨c6, c8, c10, c12⟩
    exact ⟨c12, c10, c8, c6⟩

/-- Zeros and blanks leave only the digit of cell 4, which checknotnull leaves out. -/
theorem NullCells.clockValue {row : Row} (null : NullCells row) :
    clockValue row = (checkBitValue (row.get 4)).toNat * 60000 := by
  have blank (cell : UInt8) (null : cell = 0x00 ∨ cell = 0x0F) : (checkBitValue cell).toNat = 0 := by
    rcases null with rfl | rfl <;> rfl
  simp only [NullCells, List.mem_cons, List.not_mem_nil, or_false, forall_eq_or_imp, forall_eq] at null
  obtain ⟨c6, c8, c10, c12⟩ := null
  simp only [Clocks.clockValue, blank _ c6, blank _ c8, blank _ c10, blank _ c12]
  omega

theorem NullCells.showsZero {row : Row} (null : NullCells row) :
    ShowsZero row ↔ checkBitValue (row.get 4) = 0 := by
  have digit : checkBitValue (row.get 4) = 0 ↔ (checkBitValue (row.get 4)).toNat = 0 := by
    rw [← UInt8.toNat_inj]
    rfl
  rw [showsZero_iff, null.clockValue, digit]
  omega

/-- The gate opens exactly on a reading above the limit, or stays open at the limit. -/
theorem timehundredth_open (row : Row) (c : RunningTime) :
    (timehundredth row c).2.sendActiveState = true ↔
      200 < clockValue row ∨ (clockValue row = 200 ∧ c.sendActiveState = true) := by
  simp only [timehundredth, inactiveTimeAfterStart]
  rcases Nat.lt_trichotomy (clockValue row) 200 with below | equal | above
  · have first : ¬ 200 < clockValue row := by omega
    have second : clockValue row ≠ 200 := by omega
    simp [below, first, second]
  · simp [equal]
  · have first : ¬ clockValue row < 200 := by omega
    simp [above, first]

end SerialTiming.Scoreboard.Clocks
