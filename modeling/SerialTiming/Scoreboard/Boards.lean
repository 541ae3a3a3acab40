/- module: SerialTiming/Scoreboard/Boards
   digest: What the decoder is for: the board it remembers and what it reports for each frame. -/

import SerialTiming.Scoreboard.Clocks
import SerialTiming.Line.Segments
import SerialTiming.Machines.Transducer

set_option autoImplicit false
set_option relaxedAutoImplicit false

namespace SerialTiming.Scoreboard.Boards

open CLib.Strings Line.Segments Display Clocks Machines

/-- What the decoder does in the order it does it: frames it stores, handlers it calls with the row
they read, lane messages it hands to sendLaneData and messages it hands to mqtt_send. -/
inductive Event where
  | accept (frame : Segment)
  | analyseActiveData (lane : UInt8) (row : Row)
  | checkStartStop (row : Row)
  | getTime (row : Row)
  | getHeader (row : Row)
  | storeRounds (row : Row)
  | sendLaneData (mydata : List Char)
  | mqttSend (message : List Char)
  deriving DecidableEq, Repr

/-- A lane number the decoder serves. -/
@[ext] structure Lane where
  number : UInt8
  inRange : 1 ≤ number.toNat ∧ number.toNat ≤ 10

namespace Lane

def index (lane : Lane) : Fin 10 := ⟨lane.number.toNat - 1, by have := lane.inRange; omega⟩

theorem index_inj {a b : Lane} : a.index = b.index ↔ a.number = b.number := by
  have ha := a.inRange
  have hb := b.inRange
  simp only [index, Fin.mk.injEq, ← UInt8.toNat_inj]
  omega

theorem number_ne (lane : Lane) : lane.number ≠ 0x00 := by
  intro zero
  have range := lane.inRange
  simp [zero] at range

end Lane

/-- The board as the decoder remembers it, with texts in place of C arrays. -/
structure Board where
  cells : Vector Row 32
  heat : Vector (List Char) 10
  place : Vector (List Char) 10
  header : Option (List Char)
  rounds : Option (List Char)
  pRound : Int
  clock : RunningTime
  startStop : StartStop
  deriving DecidableEq, Repr

def initCells : Vector Row 32 := Vector.replicate 32 (Vector.replicate 16 0x01)

def Board.start : Board where
  cells := initCells
  heat := Vector.replicate 10 zeroTime
  place := Vector.replicate 10 zeroPlace
  header := none
  rounds := none
  pRound := 0
  clock := initRunninTime
  startStop := initStartStop

theorem cell_lt {digit bit : UInt8} (small : digit.toNat ≤ 7) (one : bit.toNat ≤ 1) :
    ((digit <<< 1) + bit).toNat < 16 := by
  rw [cell_index small one]
  omega

def storeDigit (f : Segment) (cells : Vector Row 32) (x : UInt8) : Vector Row 32 :=
  have inside : f.channel.toNat < 32 := f.channel_lt
  cells.set f.channel.toNat
    (cells[f.channel.toNat].set ((digitNo x <<< 1) + f.controlBit).toNat (digitOf x)
      (cell_lt (digitNo_le x) (controlBitOf_le f.address)))

def storeFrame (cells : Vector Row 32) (f : Segment) : Vector Row 32 :=
  f.data.foldl (storeDigit f) cells

def rowOf (cells : Vector Row 32) (f : Segment) : Row :=
  have inside : f.channel.toNat < 32 := f.channel_lt
  cells[f.channel.toNat]

/-- A lane row is announced when its time is new and not zero, or when the time stays and it shows a
place that is new and not zero. -/
def announces (heat place : List Char) (row : Row) : Bool :=
  if shortText row = heat then decide (placeText row ≠ place ∧ placeText row ≠ zeroPlace)
  else decide (shortText row ≠ zeroTime)

/-- The lane record keeps eight chars of the time. -/
def recordedTime (row : Row) : List Char := (shortText row).take 8

namespace Board

variable (b : Board)

def clearLanes : Board :=
  { b with heat := Vector.replicate 10 zeroTime, place := Vector.replicate 10 zeroPlace }

def setLane (lane : Lane) (heat place : List Char) : Board :=
  { b with heat := b.heat.set lane.index heat, place := b.place.set lane.index place }

/-- Hand a lane message to sendLaneData, which passes it on while the gate is open. -/
def laneEvents (message : List Char) : List Event :=
  .sendLaneData message :: if b.clock.sendActiveState then [.mqttSend message] else []

def onLane (lane : Lane) (row : Row) : Board × List Event :=
  if announces (b.heat.get lane.index) (b.place.get lane.index) row then
    (b.setLane lane (recordedTime row) (placeText row), b.laneEvents (laneText lane.number row))
  else if shortText row = b.heat.get lane.index then (b, [])
  else (b.setLane lane zeroTime zeroPlace, [])

def onStartStop (row : Row) : Board × List Event :=
  let watched := b.startStop.watch row
  if watched.bStopping ≠ watched.bRunning then
    ({ b.clearLanes with startStop := watched.settle },
      [.mqttSend (if watched.bRunning then startText else stopText)])
  else ({ b with startStop := watched.settle }, [])

def onTime (row : Row) : Board × List Event :=
  if b.clock.loopcount > sendTimeEveryCounts then
    let clock := if b.clock.headerChange then b.clock else (timehundredth row b.clock).2
    ({ b with clock := { clock with headerChange := false, loopcount := 1 } }, [.mqttSend (timeText row)])
  else ({ b with clock := { b.clock with loopcount := b.clock.loopcount + 1 } }, [])

/-- A new header goes out twice, closes the gate and clears the lanes. -/
def onHeader (row : Row) : Board × List Event :=
  if headerText row = blankHeader ∨ b.header = some (headerText row) then (b, [])
  else
    ({ b.clearLanes with clock := setsendActiveStateOff b.clock, header := some (headerText row) },
      [.mqttSend (headerText row), .mqttSend (headerText row)])

def nextRound (round : Int) : Int := Int.bmod (round + 1) (2 ^ 32)

def onRounds (row : Row) : Board × List Event :=
  let pRound := if roundsText row = zeroRounds then 0
    else if b.rounds = some (roundsText row) then b.pRound else nextRound b.pRound
  ({ b with rounds := some (roundsText row), pRound := pRound },
    if b.rounds = some (roundsText row) then [] else [.mqttSend (roundText pRound)])

def dispatch (channel : UInt8) (row : Row) : Board × List Event :=
  if lane : 1 ≤ channel.toNat ∧ channel.toNat ≤ 10 then
    let r := b.onLane ⟨channel, lane⟩ row
    (r.1, .analyseActiveData channel row :: r.2)
  else if channel = 0x00 then
    let r := b.onStartStop row
    let t := r.1.onTime row
    (t.1, .checkStartStop row :: r.2 ++ .getTime row :: t.2)
  else if channel = 0x0C then
    let r := b.onHeader row
    (r.1, .getHeader row :: r.2)
  else if channel = 0x12 then
    let r := b.onRounds row
    (r.1, .storeRounds row :: r.2)
  else (b, [])

/-- The board when a frame's digits are stored and no handler has run yet. -/
def stored (f : Segment) : Board := { b with cells := storeFrame b.cells f }

def read (f : Segment) : Row := rowOf (storeFrame b.cells f) f

/-- One frame: store its digits, then let its channel's handlers read the row. -/
def frame (f : Segment) : Board × List Event :=
  let r := (b.stored f).dispatch f.channel (b.read f)
  (r.1, .accept f :: r.2)

end Board

/-- The board and its events after a list of frames. -/
def after (frames : List Segment) : Board × List Event := Transducer.run Board.frame Board.start frames

theorem after_snoc (frames : List Segment) (f : Segment) :
    after (frames ++ [f]) =
      (((after frames).1.frame f).1, (after frames).2 ++ ((after frames).1.frame f).2) :=
  Transducer.run_snoc _ _ _ _

theorem after_split (before : List Segment) (f : Segment) (later : List Segment) :
    (after (before ++ f :: later)).2 =
      (after before).2 ++ ((after before).1.frame f).2 ++
        (Transducer.run Board.frame ((after before).1.frame f).1 later).2 :=
  Transducer.step_outputs _ _ _ _ _

end SerialTiming.Scoreboard.Boards
