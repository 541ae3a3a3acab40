/- module: SerialTiming/Laws/LaneOrder
   digest: Frames of different lanes may change places: each lane's messages and all later ones stay the same. -/

import Mathlib
import SerialTiming.Laws.DigitMemory
import SerialTiming.Machines.TwoRuns
import SerialTiming.Scoreboard.Spelling

set_option autoImplicit false
set_option relaxedAutoImplicit false

namespace SerialTiming.Laws.LaneOrder

open CLib.Strings Line.Segments Scoreboard.Display Scoreboard.Clocks Scoreboard.Boards Scoreboard.Answers
open Scoreboard.Spelling Decoder.State Decoder.ReadData Framing DigitMemory Machines Machines.TwoRuns

/-- A complete segment of a lane: an address byte and eight data bytes. -/
structure LaneSegment extends Segment where
  addressed : isAddress address = true
  plain : ∀ x ∈ data, isAddress x = false
  complete : data.length = 8
  lane : 1 ≤ (channelOf address).toNat ∧ (channelOf address).toNat ≤ 10

namespace LaneSegment

def toLane (s : LaneSegment) : Lane := ⟨s.channel, s.lane⟩

theorem counts (s : LaneSegment) : s.Counts := by
  have table : ∀ i : Fin 32, 1 ≤ i.val ∧ i.val ≤ 10 → coloradoChannelLength[i].toNat = 9 := by decide
  have nine : s.frameLength = 9 := table ⟨s.channel.toNat, s.channel_lt⟩ s.lane
  rw [Segment.Counts, nine, s.complete]

theorem cut_bytes (s : LaneSegment) {ys : List UInt8} (addressed : (cut ys).1 = []) :
    cut (s.bytes ++ ys) = ([], s.toSegment :: segments ys) := by
  simp [Segment.bytes, cut, s.addressed, cut_data s.plain, addressed, segments]

end LaneSegment

def publishedFor (k : UInt8) (trace : List Event) : List (List Char) :=
  (trace.filterMap sentText).filter fun m => ("lane ".toList ++ (decimal (arg k) ++ [' '])).isPrefixOf m

theorem publishedFor_append (k : UInt8) (xs ys : List Event) :
    publishedFor k (xs ++ ys) = publishedFor k xs ++ publishedFor k ys := by
  simp [publishedFor]

/-- What a lane's handler leaves in a record. -/
private def record (heat place : List Char) (row : Row) : List Char × List Char :=
  if announces heat place row then (recordedTime row, placeText row)
  else if shortText row = heat then (heat, place) else (zeroTime, zeroPlace)

private theorem setLane_self (b : Board) (lane : Lane) :
    b.setLane lane (b.heat.get lane.index) (b.place.get lane.index) = b := by
  simp [Board.setLane, Vector.get_eq_getElem]

private theorem onLane_record (b : Board) (lane : Lane) (row : Row) :
    (b.onLane lane row).1 = b.setLane lane (record (b.heat.get lane.index) (b.place.get lane.index) row).1
      (record (b.heat.get lane.index) (b.place.get lane.index) row).2 := by
  rcases onLane_cases b lane row with ⟨told, gives⟩ | ⟨told, _, quiet⟩
  · rw [gives, record, if_pos told]
  · have silent : ¬ announces (b.heat.get lane.index) (b.place.get lane.index) row = true := by simp [told]
    rw [quiet, record, if_neg silent]
    by_cases same : shortText row = b.heat.get lane.index
    · rw [if_pos same, if_pos same]
      exact (setLane_self b lane).symm
    · rw [if_neg same, if_neg same]

private theorem onLane_events (b : Board) (lane : Lane) (row : Row) :
    (b.onLane lane row).2 = if announces (b.heat.get lane.index) (b.place.get lane.index) row then
      b.laneEvents (laneText lane.number row) else [] := by
  rcases onLane_cases b lane row with ⟨told, gives⟩ | ⟨told, silent, _⟩
  · rw [gives, if_pos told]
  · rw [silent, if_neg (by simp [told])]

private theorem frame_local (b : Board) {f g : Segment} {lane at_ : Lane} (own : lane.number = f.channel)
    (others : at_.number = g.channel) (apart : lane.number ≠ at_.number) :
    (b.frame g).1.read f = b.read f ∧ (b.frame g).1.heat.get lane.index = b.heat.get lane.index ∧
      (b.frame g).1.place.get lane.index = b.place.get lane.index ∧ (b.frame g).1.clock = b.clock := by
  have channels : g.channel ≠ f.channel := fun same => apart (own.trans (same.symm.trans others.symm))
  have index : ¬ at_.index = lane.index := fun same => apart (Lane.index_inj.mp same).symm
  have row : g.channel.toNat ≠ f.channel.toNat := fun same => channels (UInt8.toNat_inj.mp same)
  refine ⟨?_, ?_⟩
  · rw [Board.read, Board.read, frame_cells, storeFrame_comm _ channels]
    exact storeFrame_row g (storeFrame b.cells f) (c := ⟨f.channel.toNat, f.channel_lt⟩) row
  · rw [frame_lane b others, onLane_record]
    have kept := setLane_record (b.stored g) at_ lane
    simp only [kept, if_neg index]
    exact ⟨rfl, rfl, rfl⟩

private theorem setLane_comm (b : Board) {lane at_ : Lane} (apart : lane.index ≠ at_.index) (h p h' p' : List Char) :
    (b.setLane lane h p).setLane at_ h' p' = (b.setLane at_ h' p').setLane lane h p := by
  have index : lane.index.val ≠ at_.index.val := fun same => apart (Fin.ext same)
  simp only [Board.setLane, Vector.set_comm _ _ index]

private theorem frame_board (b : Board) {f : Segment} {lane : Lane} (own : lane.number = f.channel) :
    (b.frame f).1 = (b.stored f).setLane lane
      (record (b.heat.get lane.index) (b.place.get lane.index) (b.read f)).1
      (record (b.heat.get lane.index) (b.place.get lane.index) (b.read f)).2 := by
  rw [frame_lane b own]
  exact onLane_record (b.stored f) lane (b.read f)

/-- A lane frame gives the same events wherever it reads the same row, meets the same record and finds the
same gate. -/
private theorem frame_events {b c : Board} {f : Segment} {lane : Lane} (own : lane.number = f.channel)
    (row : c.read f = b.read f) (heat : c.heat.get lane.index = b.heat.get lane.index)
    (place : c.place.get lane.index = b.place.get lane.index) (clock : c.clock = b.clock) :
    (c.frame f).2 = (b.frame f).2 := by
  have first := onLane_events (c.stored f) lane (b.read f)
  have second := onLane_events (b.stored f) lane (b.read f)
  have heats : (c.stored f).heat.get lane.index = (b.stored f).heat.get lane.index := heat
  have places : (c.stored f).place.get lane.index = (b.stored f).place.get lane.index := place
  have gates : (c.stored f).clock = (b.stored f).clock := clock
  rw [heats, places, Board.laneEvents, gates, ← Board.laneEvents, ← second] at first
  rw [frame_lane b own, frame_lane c own, row, first]

/-- Frames of two lanes commute on every board. -/
theorem lanes_commute (b : Board) {f g : Segment} {lane at_ : Lane} (own : lane.number = f.channel)
    (others : at_.number = g.channel) (apart : lane.number ≠ at_.number) : Commutes Board.frame b f g := by
  obtain ⟨rowF, heatF, placeF, clockF⟩ := frame_local b own others apart
  obtain ⟨rowG, heatG, placeG, clockG⟩ := frame_local b others own (Ne.symm apart)
  have channels : f.channel ≠ g.channel := fun same => apart (own.trans (same.trans others.symm))
  have index : lane.index ≠ at_.index := fun same => apart (Lane.index_inj.mp same)
  refine ⟨?_, frame_events own rowF heatF placeF clockF, frame_events others rowG heatG placeG clockG⟩
  rw [frame_board (b.frame f).1 others, frame_board (b.frame g).1 own, rowF, heatF, placeF, rowG, heatG, placeG,
    frame_board b own, frame_board b others]
  have stored : storeFrame (storeFrame b.cells f) g = storeFrame (storeFrame b.cells g) f :=
    storeFrame_comm b.cells channels
  have parts (h p h' p' : List Char) :
      (((b.stored f).setLane lane h p).stored g).setLane at_ h' p' =
        { (b.setLane lane h p).setLane at_ h' p' with cells := storeFrame (storeFrame b.cells f) g } := rfl
  have parts' (h p h' p' : List Char) :
      (((b.stored g).setLane at_ h' p').stored f).setLane lane h p =
        { (b.setLane at_ h' p').setLane lane h p with cells := storeFrame (storeFrame b.cells g) f } := rfl
  rw [parts, parts', setLane_comm b index, stored]

private theorem publishedFor_lane {k j : UInt8} {row : Row}
    (told : ("lane ".toList ++ (decimal (arg k) ++ [' '])).isPrefixOf (laneText j row) = true) : k = j := by
  obtain ⟨rest, split⟩ := List.isPrefixOf_iff_prefix.mp told
  rw [laneText_spelled, List.append_assoc, List.append_assoc] at split
  have words : decimal (arg k) ++ ' ' :: rest = decimal (arg j) ++ ' ' :: (timeWord row ++ ' ' :: placeText row) :=
    List.append_cancel_left split
  exact (numbered_inj words).1

private theorem frame_publishes {b : Board} {f : Segment} {lane : Lane} (own : lane.number = f.channel) {k : UInt8}
    (other : k ≠ lane.number) : publishedFor k (b.frame f).2 = [] := by
  rw [publishedFor, List.filter_eq_nil_iff]
  intro m member told
  obtain ⟨e, inside, sent⟩ := List.mem_filterMap.mp member
  cases e with
  | mqttSend message =>
      obtain rfl : message = m := Option.some.inj sent
      rw [frame_lane b own] at inside
      simp only [List.mem_cons, reduceCtorEq, false_or] at inside
      obtain ⟨rfl, _⟩ := onLane_message inside
      exact other (publishedFor_lane told)
  | _ => simp [sentText] at sent

private theorem publishedFor_swap {b : Board} {f g : Segment} {lane at_ : Lane} (own : lane.number = f.channel)
    (others : at_.number = g.channel) (apart : lane.number ≠ at_.number) (k : UInt8) :
    publishedFor k ((b.frame f).2 ++ (b.frame g).2) = publishedFor k ((b.frame g).2 ++ (b.frame f).2) := by
  rw [publishedFor_append, publishedFor_append]
  by_cases first : k = lane.number
  · rw [frame_publishes others (first ▸ apart), List.append_nil, List.nil_append]
  · rw [frame_publishes own first, List.append_nil, List.nil_append]

private theorem countingFrames_two (past : List UInt8) (s t : LaneSegment) {a : UInt8} (address : isAddress a = true) :
    countingFrames (past ++ (s.bytes ++ (t.bytes ++ [a]))) =
      countingFrames past ++ closing (pendingSegment past) [] ++ [s.toSegment, t.toSegment] := by
  have last : cut [a] = ([], [⟨a, []⟩]) := by simp [cut, address]
  have second : cut (t.bytes ++ [a]) = ([], t.toSegment :: segments [a]) := t.cut_bytes (by rw [last])
  have first : cut (s.bytes ++ (t.bytes ++ [a])) = ([], s.toSegment :: segments (t.bytes ++ [a])) :=
    s.cut_bytes (by rw [second])
  have segs : segments (s.bytes ++ (t.bytes ++ [a])) = [s.toSegment, t.toSegment, ⟨a, []⟩] := by
    rw [segments, first, segments, second, segments, last]
  have frames : countingFrames (s.bytes ++ (t.bytes ++ [a])) = [s.toSegment, t.toSegment] := by
    simp [countingFrames, closedSegments, segs, s.counts, t.counts]
  rw [countingFrames_append, completed, segs, if_neg (by simp), first, frames, List.append_assoc]

private theorem pendingSegment_address (before : List UInt8) {a : UInt8} (address : isAddress a = true) :
    pendingSegment (before ++ [a]) = some ⟨a, []⟩ := by
  rw [pendingSegment, segments_snoc_address before address, List.getLast?_concat]

private theorem countingFrames_rest (past : List UInt8) (s t : LaneSegment) {a : UInt8} (address : isAddress a = true)
    {rest : List UInt8} {frames : List Segment}
    (more : countingFrames (past ++ (s.bytes ++ (t.bytes ++ [a])) ++ rest) =
      countingFrames (past ++ (s.bytes ++ (t.bytes ++ [a]))) ++ frames) :
    frames = completed (some ⟨a, []⟩) rest := by
  have behind : past ++ (s.bytes ++ (t.bytes ++ [a])) = (past ++ (s.bytes ++ t.bytes)) ++ [a] := by simp
  have opened : pendingSegment (past ++ (s.bytes ++ (t.bytes ++ [a]))) = some ⟨a, []⟩ := by
    rw [behind, pendingSegment_address _ address]
  rw [countingFrames_append, opened] at more
  exact (List.append_cancel_left more).symm

private theorem after_two {before : List Segment} {f g : Segment}
    (commutes : Commutes Board.frame (after before).1 f g) :
    (after (before ++ [f, g])).2 =
        (after before).2 ++ (((after before).1.frame f).2 ++ ((after before).1.frame g).2) ∧
      (after (before ++ [g, f])).2 =
        (after before).2 ++ (((after before).1.frame g).2 ++ ((after before).1.frame f).2) ∧
      (after (before ++ [f, g])).1 = (after (before ++ [g, f])).1 :=
  commutes.run_swap

/-- Lane frames swap. Two complete segments of different lanes may change places on the line: each lane's
messages stay the same, and so does everything after the address byte behind them. -/
theorem lane_frames_swap (host : Host) (past : List UInt8) (s t : LaneSegment) (apart : s.channel ≠ t.channel)
    {a : UInt8} (address : isAddress a = true) (rest : List UInt8) :
    ∃ h h' g g' es,
      run host (past ++ (s.bytes ++ (t.bytes ++ [a]))) = .ok h ∧
      run host (past ++ (t.bytes ++ (s.bytes ++ [a]))) = .ok h' ∧
      receive host rest h = .ok g ∧ receive host rest h' = .ok g' ∧
      g.trace = h.trace ++ es ∧ g'.trace = h'.trace ++ es ∧
      ∀ lane : Lane, publishedFor lane.number g.trace = publishedFor lane.number g'.trace := by
  obtain ⟨h, ran, tracks⟩ := run_tracks host (past ++ (s.bytes ++ (t.bytes ++ [a])))
  obtain ⟨h', ran', tracks'⟩ := run_tracks host (past ++ (t.bytes ++ (s.bytes ++ [a])))
  obtain ⟨g, frames, received, _, more, trace⟩ := receive_extends host tracks rest
  obtain ⟨g', frames', received', _, more', trace'⟩ := receive_extends host tracks' rest
  obtain rfl := countingFrames_rest past s t address more
  obtain rfl := countingFrames_rest past t s address more'
  have others : s.toLane.number ≠ t.toLane.number := apart
  have commutes : Commutes Board.frame (after (countingFrames past ++ closing (pendingSegment past) [])).1
      s.toSegment t.toSegment := lanes_commute _ rfl rfl others
  obtain ⟨events, events', board⟩ := after_two commutes
  have first := tracks.trace
  have second := tracks'.trace
  rw [countingFrames_two past s t address] at trace first
  rw [countingFrames_two past t s address, ← board] at trace'
  rw [countingFrames_two past t s address] at second
  refine ⟨h, h', g, g', _, ran, ran', received, received', trace, trace', fun lane => ?_⟩
  have own : s.toLane.number = s.toSegment.channel := rfl
  have own' : t.toLane.number = t.toSegment.channel := rfl
  have swapped := publishedFor_swap (b := (after (countingFrames past ++ closing (pendingSegment past) [])).1) own own'
    others lane.number
  rw [trace, trace', first, second, events, events', ← List.cons_append, ← List.cons_append]
  simp only [publishedFor_append] at swapped ⊢
  rw [swapped]

def laneOne : LaneSegment where
  address := 0xBC
  data := [0x0E, 0x1E, 0x2F, 0x3F, 0x4C, 0x5E, 0x6D, 0x7A]
  addressed := by decide
  plain := by decide +kernel
  complete := rfl
  lane := by decide

def laneTwo : LaneSegment where
  address := 0xBA
  data := [0x0E, 0x1D, 0x2F, 0x3F, 0x4C, 0x5D, 0x6D, 0x7A]
  addressed := by decide
  plain := by decide +kernel
  complete := rfl
  lane := by decide

/-- Two lanes that finish at the same moment while the clock runs: both lanes' messages go out in either order. -/
theorem lane_frames_swap_two : laneOne.channel ≠ laneTwo.channel ∧ isAddress 0xBE = true ∧
    ∃ h h' g g' es,
      run Host.reliable (openGate ++ (laneOne.bytes ++ (laneTwo.bytes ++ [0xBE]))) = .ok h ∧
      run Host.reliable (openGate ++ (laneTwo.bytes ++ (laneOne.bytes ++ [0xBE]))) = .ok h' ∧
      receive Host.reliable [0x0F] h = .ok g ∧ receive Host.reliable [0x0F] h' = .ok g' ∧
      g.trace = h.trace ++ es ∧ g'.trace = h'.trace ++ es ∧
      publishedFor 1 h.trace = ["lane 1 00:31,25 1".toList] ∧ publishedFor 2 h.trace = ["lane 2 00:32,25 2".toList] ∧
      ∀ lane : Lane, publishedFor lane.number g.trace = publishedFor lane.number g'.trace := by
  have apart : laneOne.channel ≠ laneTwo.channel := by decide
  have address : isAddress 0xBE = true := by decide
  obtain ⟨h, h', g, g', es, ran, ran', received, received', trace, trace', same⟩ :=
    lane_frames_swap Host.reliable openGate laneOne laneTwo apart address [0x0F]
  obtain ⟨h₀, ran₀, tracks⟩ := run_tracks Host.reliable (openGate ++ (laneOne.bytes ++ (laneTwo.bytes ++ [0xBE])))
  obtain rfl : h₀ = h := Except.ok.inj (ran₀.symm.trans ran)
  refine ⟨apart, address, h₀, h', g, g', es, ran, ran', received, received', trace, trace', ?_, ?_, same⟩
  · rw [tracks.trace]
    decide +kernel
  · rw [tracks.trace]
    decide +kernel

end SerialTiming.Laws.LaneOrder
