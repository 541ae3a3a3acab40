/- module: SerialTiming/Laws/Masking
   digest: Which digits of a frame can ever be told from the messages, and that all others cannot. -/

import SerialTiming.Laws.DigitMemory
import SerialTiming.Machines.Convergence

set_option autoImplicit false
set_option relaxedAutoImplicit false

namespace SerialTiming.Laws.Masking

open CLib.Strings Line.Segments Scoreboard.Display Scoreboard.Clocks Scoreboard.Boards Scoreboard.Answers
open Decoder.State Decoder.ReadData Framing DigitMemory Machines Machines.Convergence

instance digitNumbers : NeZero 8 := ⟨by decide⟩

instance bitNumbers : NeZero 2 := ⟨by decide⟩

instance channelNumbers : NeZero 32 := ⟨by decide⟩

/-- The digits of a row that the handlers of its channel look at. -/
def shownDigits (channel : UInt8) : List (Fin 8) :=
  if 1 ≤ channel.toNat ∧ channel.toNat ≤ 10 then [1, 2, 3, 4, 5, 6, 7]
  else if channel = 0x00 then [2, 3, 4, 5, 6]
  else if channel = 0x0C then [0, 1, 2, 5, 6, 7]
  else if channel = 0x12 then [0, 1, 2, 3, 4, 5, 6, 7]
  else []

theorem digitCell_lt (d : Fin 8) : 2 * d.val < 16 := by omega

def digitCell (d : Fin 8) : Fin 16 := ⟨2 * d.val, digitCell_lt d⟩

def SameRow (channel : UInt8) (r r' : Row) : Prop :=
  ∀ d ∈ shownDigits channel, r.get (digitCell d) = r'.get (digitCell d)

def SameCells (cells cells' : Vector Row 32) : Prop :=
  ∀ c : Fin 32, ∀ d ∈ shownDigits (UInt8.ofNat c.val), cell cells c d 0 = cell cells' c d 0

/-- Segments that write the same to all cells that are read. -/
structure SameShown (f f' : Segment) : Prop where
  address : f.address = f'.address
  length : f.data.length = f'.data.length
  digits : f.controlBit = 0 → ∀ d ∈ shownDigits f.channel, lastDigit d.val f.data = lastDigit d.val f'.data

/-- Boards that are the same but for cells that no handler reads. -/
def Masked (b c : Board) : Prop := ∃ cells, c = { b with cells := cells } ∧ SameCells b.cells cells

namespace SameShown

variable {f f' : Segment} (same : SameShown f f')
include same

theorem channel : f'.channel = f.channel := congrArg channelOf same.address.symm

theorem controlBit : f'.controlBit = f.controlBit := congrArg controlBitOf same.address.symm

theorem counts : f.Counts ↔ f'.Counts := by
  have channels : f'.channel.toNat = f.channel.toNat := congrArg UInt8.toNat same.channel
  have frames : f'.frameLength = f.frameLength := by simp only [Segment.frameLength, channels]
  rw [Segment.Counts, Segment.Counts, same.length, frames]

end SameShown

theorem SameCells.row {cells cells' : Vector Row 32} (same : SameCells cells cells') (f : Segment) :
    SameRow f.channel (rowOf cells f) (rowOf cells' f) := by
  have own : UInt8.ofNat f.channel.toNat = f.channel := UInt8.ofNat_toNat
  intro d shown
  have here := same ⟨f.channel.toNat, f.channel_lt⟩ d (by rwa [own])
  exact here

theorem SameCells.stored {cells cells' : Vector Row 32} (same : SameCells cells cells') {f f' : Segment}
    (written : SameShown f f') : SameCells (storeFrame cells f) (storeFrame cells' f') := by
  intro c d shown
  rw [storeFrame_cell, storeFrame_cell, written.channel, written.controlBit, same c d shown]
  by_cases own : f.channel.toNat = c.val ∧ f.controlBit.toNat = (0 : Fin 2).val
  · have bit : f.controlBit = 0 := UInt8.toNat_inj.mp own.2
    have channel : f.channel = UInt8.ofNat c.val := by rw [← own.1, UInt8.ofNat_toNat]
    rw [if_pos own, if_pos own, written.digits bit d (channel ▸ shown)]
  · rw [if_neg own, if_neg own]

section Rows
variable {r r' : Row}

private theorem SameRow.cells {channel : UInt8} {digits : List (Fin 8)} (same : SameRow channel r r')
    (shown : shownDigits channel = digits) : ∀ d ∈ digits, r.get (digitCell d) = r'.get (digitCell d) :=
  shown ▸ same

theorem SameRow.laneTexts {lane : Lane} (same : SameRow lane.number r r') :
    shortText r' = shortText r ∧ placeText r' = placeText r ∧ laneText lane.number r' = laneText lane.number r := by
  have read := same.cells (if_pos lane.inRange)
  have c2 : r.get 2 = r'.get 2 := read 1 (by decide)
  have c4 : r.get 4 = r'.get 4 := read 2 (by decide)
  have c6 : r.get 6 = r'.get 6 := read 3 (by decide)
  have c8 : r.get 8 = r'.get 8 := read 4 (by decide)
  have c10 : r.get 10 = r'.get 10 := read 5 (by decide)
  have c12 : r.get 12 = r'.get 12 := read 6 (by decide)
  have c14 : r.get 14 = r'.get 14 := read 7 (by decide)
  simp only [shortText, placeText, laneText, c2, c4, c6, c8, c10, c12, c14, and_self]

theorem SameRow.clockTexts (same : SameRow 0x00 r r') :
    timeText r' = timeText r ∧ clockValue r' = clockValue r ∧ rowNotNull r' = rowNotNull r := by
  have digits : shownDigits 0x00 = [2, 3, 4, 5, 6] := by decide
  have read := same.cells digits
  have c4 : r.get 4 = r'.get 4 := read 2 (by decide)
  have c6 : r.get 6 = r'.get 6 := read 3 (by decide)
  have c8 : r.get 8 = r'.get 8 := read 4 (by decide)
  have c10 : r.get 10 = r'.get 10 := read 5 (by decide)
  have c12 : r.get 12 = r'.get 12 := read 6 (by decide)
  simp only [timeText, clockValue, rowNotNull, c4, c6, c8, c10, c12, and_self]

theorem SameRow.headerTexts (same : SameRow 0x0C r r') : headerText r' = headerText r := by
  have digits : shownDigits 0x0C = [0, 1, 2, 5, 6, 7] := by decide
  have read := same.cells digits
  have c0 : r.get 0 = r'.get 0 := read 0 (by decide)
  have c2 : r.get 2 = r'.get 2 := read 1 (by decide)
  have c4 : r.get 4 = r'.get 4 := read 2 (by decide)
  have c10 : r.get 10 = r'.get 10 := read 5 (by decide)
  have c12 : r.get 12 = r'.get 12 := read 6 (by decide)
  have c14 : r.get 14 = r'.get 14 := read 7 (by decide)
  simp only [headerText, c0, c2, c4, c10, c12, c14]

theorem SameRow.roundsTexts (same : SameRow 0x12 r r') : roundsText r' = roundsText r := by
  have digits : shownDigits 0x12 = [0, 1, 2, 3, 4, 5, 6, 7] := by decide
  have read := same.cells digits
  have c0 : r.get 0 = r'.get 0 := read 0 (by decide)
  have c2 : r.get 2 = r'.get 2 := read 1 (by decide)
  have c4 : r.get 4 = r'.get 4 := read 2 (by decide)
  have c6 : r.get 6 = r'.get 6 := read 3 (by decide)
  have c8 : r.get 8 = r'.get 8 := read 4 (by decide)
  have c10 : r.get 10 = r'.get 10 := read 5 (by decide)
  have c12 : r.get 12 = r'.get 12 := read 6 (by decide)
  have c14 : r.get 14 = r'.get 14 := read 7 (by decide)
  simp only [roundsText, c0, c2, c4, c6, c8, c10, c12, c14]

end Rows

/-- What a handler does on a board that is the same but for its cells: the same, but for the cells. -/
private def Mirrors (cells : Vector Row 32) (answer answer' : Board × List Event) : Prop :=
  answer'.1 = { answer.1 with cells := cells } ∧ answer'.2.filter isReport = answer.2.filter isReport

section Handlers
variable (b : Board) (cells : Vector Row 32) {r r' : Row}

private theorem onLane_mirrors {lane : Lane} (same : SameRow lane.number r r') :
    Mirrors cells (b.onLane lane r) (Board.onLane { b with cells := cells } lane r') := by
  obtain ⟨short, place, text⟩ := same.laneTexts
  have told (heat p : List Char) : announces heat p r' = announces heat p r := by
    simp only [announces, short, place]
  simp only [Mirrors, Board.onLane, told, recordedTime, short, place, text]
  split
  · exact ⟨rfl, rfl⟩
  · split <;> exact ⟨rfl, rfl⟩

private theorem onStartStop_mirrors (same : SameRow 0x00 r r') :
    Mirrors cells (b.onStartStop r) (Board.onStartStop { b with cells := cells } r') := by
  obtain ⟨_, _, null⟩ := same.clockTexts
  have watched (s : StartStop) : s.watch r' = s.watch r := by
    simp only [StartStop.watch, checknotnull, null]
  simp only [Mirrors, Board.onStartStop, watched]
  split <;> exact ⟨rfl, rfl⟩

private theorem onTime_mirrors (same : SameRow 0x00 r r') :
    Mirrors cells (b.onTime r) (Board.onTime { b with cells := cells } r') := by
  obtain ⟨text, value, _⟩ := same.clockTexts
  have sampled (c : RunningTime) : timehundredth r' c = timehundredth r c := by
    simp only [timehundredth, value]
  simp only [Mirrors, Board.onTime, text, sampled]
  split <;> exact ⟨rfl, rfl⟩

private theorem onHeader_mirrors (same : SameRow 0x0C r r') :
    Mirrors cells (b.onHeader r) (Board.onHeader { b with cells := cells } r') := by
  simp only [Mirrors, Board.onHeader, same.headerTexts]
  split <;> exact ⟨rfl, rfl⟩

private theorem onRounds_mirrors (same : SameRow 0x12 r r') :
    Mirrors cells (b.onRounds r) (Board.onRounds { b with cells := cells } r') := by
  simp only [Mirrors, Board.onRounds, same.roundsTexts, and_self]

end Handlers

private theorem dispatch_mirrors (b : Board) (cells : Vector Row 32) {channel : UInt8} {r r' : Row}
    (same : SameRow channel r r') :
    Mirrors cells (b.dispatch channel r) (Board.dispatch { b with cells := cells } channel r') := by
  simp only [Board.dispatch]
  split
  · rename_i lane
    have row : SameRow (Lane.mk channel lane).number r r' := same
    exact onLane_mirrors b cells row
  · split
    · rename_i clock
      subst clock
      obtain ⟨board, switch⟩ := onStartStop_mirrors b cells same
      obtain ⟨board', time⟩ := onTime_mirrors (b.onStartStop r).1 cells same
      rw [board]
      refine ⟨board', ?_⟩
      simp only [List.cons_append, List.filter_cons, List.filter_append, isReport, switch, time,
        Bool.false_eq_true, ↓reduceIte]
    · split
      · rename_i header
        subst header
        exact onHeader_mirrors b cells same
      · split
        · rename_i rounds
          subst rounds
          exact onRounds_mirrors b cells same
        · exact ⟨rfl, rfl⟩

/-- Digits that no handler reads reach no message. -/
theorem frame_masks : Lockstep Board.frame Masked SameShown isReport := by
  have step (b c : Board) (f f' : Segment) (masked : Masked b c) (same : SameShown f f') :
      ∃ cells, Mirrors cells (b.frame f) (c.frame f') ∧ SameCells (b.frame f).1.cells cells := by
    obtain ⟨cells, rfl, alike⟩ := masked
    have stored := alike.stored same
    have row := stored.row f
    have read : Board.read { b with cells := cells } f' = rowOf (storeFrame cells f') f := by
      simp only [Board.read, rowOf, same.channel]
    have answers := dispatch_mirrors (b.stored f) (storeFrame cells f') row
    refine ⟨storeFrame cells f', ?_, by rwa [frame_cells]⟩
    simp only [Board.frame, same.channel, read]
    exact answers
  constructor
  · intro b c f f' masked same
    obtain ⟨cells, ⟨board, _⟩, alike⟩ := step b c f f' masked same
    exact ⟨cells, board, alike⟩
  · intro b c f f' masked same
    obtain ⟨cells, ⟨_, reports⟩, _⟩ := step b c f f' masked same
    exact reports.symm

theorem countingFrames_shown {xs ys : List UInt8} (same : List.Forall₂ SameShown (segments xs) (segments ys)) :
    List.Forall₂ SameShown (countingFrames xs) (countingFrames ys) := by
  have closed : List.Forall₂ SameShown (closedSegments xs) (closedSegments ys) := by
    simp only [closedSegments, List.dropLast_eq_take, same.length_eq]
    exact List.forall₂_take _ same
  refine List.rel_filter ?_ closed
  intro f f' shown
  simp [shown.counts]

theorem hidden_digits_unsent (host host' : Host) (xs ys : List UInt8)
    (same : List.Forall₂ SameShown (segments xs) (segments ys)) :
    ∃ g g', run host xs = .ok g ∧ run host' ys = .ok g' ∧ g.trace.filter isReport = g'.trace.filter isReport := by
  obtain ⟨g, ran, tracks⟩ := run_tracks host xs
  obtain ⟨g', ran', tracks'⟩ := run_tracks host' ys
  refine ⟨g, g', ran, ran', ?_⟩
  have start : Masked Board.start Board.start := ⟨_, rfl, fun _ _ _ => rfl⟩
  rw [tracks.trace, tracks'.trace, List.filter_cons, List.filter_cons]
  rw [after, after, frame_masks.run_same start (countingFrames_shown same)]

def twoLanes (hidden unread : UInt8) : List UInt8 :=
  [0xBD, 0x0F, hidden, 0x2F, 0x3F, 0x4F, 0x5F, 0x6F, 0x7F] ++
    [0xBC, unread, 0x1E, 0x2F, 0x3F, 0x4C, 0x5E, 0x6D, 0x7A, 0xBE]

theorem hidden_digits_unsent_lanes :
    List.Forall₂ SameShown (segments (twoLanes 0x1A 0x05)) (segments (twoLanes 0x13 0x0E)) ∧
    ∃ g g', run Host.reliable (twoLanes 0x1A 0x05) = .ok g ∧ run Host.reliable (twoLanes 0x13 0x0E) = .ok g' ∧
      g.trace.filter isReport = g'.trace.filter isReport := by
  have first : segments (twoLanes 0x1A 0x05) =
      [⟨0xBD, [0x0F, 0x1A, 0x2F, 0x3F, 0x4F, 0x5F, 0x6F, 0x7F]⟩,
        ⟨0xBC, [0x05, 0x1E, 0x2F, 0x3F, 0x4C, 0x5E, 0x6D, 0x7A]⟩, ⟨0xBE, []⟩] := by decide
  have second : segments (twoLanes 0x13 0x0E) =
      [⟨0xBD, [0x0F, 0x13, 0x2F, 0x3F, 0x4F, 0x5F, 0x6F, 0x7F]⟩,
        ⟨0xBC, [0x0E, 0x1E, 0x2F, 0x3F, 0x4C, 0x5E, 0x6D, 0x7A]⟩, ⟨0xBE, []⟩] := by decide
  have same : List.Forall₂ SameShown (segments (twoLanes 0x1A 0x05)) (segments (twoLanes 0x13 0x0E)) := by
    rw [first, second]
    refine .cons ⟨rfl, rfl, ?_⟩ (.cons ⟨rfl, rfl, ?_⟩ (.cons ⟨rfl, rfl, ?_⟩ .nil))
    · exact fun bit => absurd bit (by decide)
    · exact fun _ => by decide
    · exact fun _ => by decide
  exact ⟨same, hidden_digits_unsent Host.reliable Host.reliable _ _ same⟩

end SerialTiming.Laws.Masking
