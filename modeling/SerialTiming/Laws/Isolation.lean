/- module: SerialTiming/Laws/Isolation
   digest: Lane records reach nothing but lane messages, and no lane's frames reach another lane. -/

import Mathlib
import SerialTiming.Laws.LaneUpdates
import SerialTiming.Machines.TwoRuns

set_option autoImplicit false
set_option relaxedAutoImplicit false

namespace SerialTiming.Laws.Isolation

open CLib.Strings Line.Segments Scoreboard.Display Scoreboard.Clocks Scoreboard.Boards Scoreboard.Answers
open Decoder.State Decoder.ReadData Framing LaneUpdates Machines Machines.TwoRuns

def noLane : Event → Bool
  | .sendLaneData _ => false
  | .mqttSend message => kindOf message != .lane
  | _ => true

/-- Memories that agree on everything the decoder remembers except the lane records. -/
structure Agree (g g' : Globals) : Prop where
  input : g.input = g'.input
  cells : g.coloradoData = g'.coloradoData
  header : g.coloradoHeaderData = g'.coloradoHeaderData
  rounds : g.storeRoundsData = g'.storeRoundsData
  pRound : g.pRound = g'.pRound
  clock : g.clock = g'.clock
  startStop : g.startStop = g'.startStop

def Alike (b c : Board) : Prop := b.clearLanes = c.clearLanes

theorem clears_noLane (e : Event) (clear : clears e = true) : noLane e = true := by
  cases e with
  | mqttSend m =>
      simp only [noLane, bne_iff_ne, ne_eq]
      intro lane
      simp [clears, sends, lane] at clear
  | sendLaneData m => simp [clears, sends] at clear
  | _ => rfl

private theorem onLane_noLane (b : Board) (lane : Lane) (row : Row) : (b.onLane lane row).2.filter noLane = [] := by
  rcases onLane_cases b lane row with ⟨_, told⟩ | ⟨_, silent, _⟩
  · simp only [told, Board.laneEvents]
    split <;> simp [noLane]
  · simp [silent]

private theorem onTime_alike (b : Board) (row : Row) :
    (b.onTime row).1.clearLanes = (b.clearLanes.onTime row).1.clearLanes ∧
      (b.onTime row).2 = (b.clearLanes.onTime row).2 := by
  rcases onTime_cases b row with ⟨early, counts⟩ | ⟨due, samples⟩
  · rcases onTime_cases b.clearLanes row with ⟨_, counts'⟩ | ⟨due', _⟩
    · rw [counts, counts']
      exact ⟨rfl, rfl⟩
    · exact absurd due' (Nat.not_lt.mpr early)
  · rcases onTime_cases b.clearLanes row with ⟨early', _⟩ | ⟨_, samples'⟩
    · exact absurd due (Nat.not_lt.mpr early')
    · rw [samples, samples']
      exact ⟨rfl, rfl⟩

/-- What a frame does with the cleared board. -/
private structure Same (b : Board) (f : Segment) : Prop where
  alike : Alike (b.frame f).1 (b.clearLanes.frame f).1
  seen : (b.frame f).2.filter noLane = (b.clearLanes.frame f).2.filter noLane
  clear : ∀ e ∈ (b.frame f).2, clears e = true → b.frame f = b.clearLanes.frame f

private theorem Same.quiet {b : Board} {f : Segment} (alike : Alike (b.frame f).1 (b.clearLanes.frame f).1)
    (seen : (b.frame f).2.filter noLane = (b.clearLanes.frame f).2.filter noLane)
    (quiet : ∀ e ∈ (b.frame f).2, clears e = false) : Same b f :=
  ⟨alike, seen, fun e member clear => absurd clear (by simp [quiet e member])⟩

private theorem Same.equal {b : Board} {f : Segment} (equal : b.frame f = b.clearLanes.frame f) : Same b f :=
  ⟨by rw [equal]; rfl, by rw [equal], fun _ _ _ => equal⟩

private theorem lane_same (b : Board) {f : Segment} {lane : Lane} (number : lane.number = f.channel) : Same b f := by
  obtain ⟨heat, place, rest⟩ := onLane_frame (b.stored f) lane (b.read f)
  obtain ⟨heat', place', rest'⟩ := onLane_frame (b.clearLanes.stored f) lane (b.read f)
  have read : b.clearLanes.read f = b.read f := rfl
  apply Same.quiet
  · rw [frame_lane b number, frame_lane b.clearLanes number, read, Alike, rest, rest']
    rfl
  · rw [frame_lane b number, frame_lane b.clearLanes number, read]
    simp only [List.filter_cons, onLane_noLane]
  · rw [frame_lane b number]
    simpa [clears, sends] using (onLane_quiet (b.stored f) lane (b.read f)).1

private theorem clock_same (b : Board) {f : Segment} (channel : f.channel = 0x00) : Same b f := by
  have read : b.clearLanes.read f = b.read f := rfl
  rcases onStartStop_cases (b.stored f) (b.read f) with ⟨same, stays⟩ | ⟨other, switches⟩
  · rcases onStartStop_cases (b.clearLanes.stored f) (b.read f) with ⟨_, stays'⟩ | ⟨other, _⟩
    · obtain ⟨alike, seen⟩ := onTime_alike
        { b.stored f with startStop := ((b.stored f).startStop.watch (b.read f)).settle } (b.read f)
      apply Same.quiet
      · rw [frame_detector b channel, frame_detector b.clearLanes channel, read, stays, stays']
        exact alike
      · rw [frame_detector b channel, frame_detector b.clearLanes channel, read, stays, stays']
        exact congrArg (fun es => List.filter noLane
          (.accept f :: .checkStartStop (b.read f) :: .getTime (b.read f) :: es)) seen
      · rw [frame_detector b channel, stays]
        simpa [clears, sends] using (onTime_quiet _ (b.read f)).1
    · exact absurd same other
  · rcases onStartStop_cases (b.clearLanes.stored f) (b.read f) with ⟨same, _⟩ | ⟨_, switches'⟩
    · exact absurd same other
    · apply Same.equal
      rw [frame_detector b channel, frame_detector b.clearLanes channel, read, switches, switches']
      rfl

private theorem header_same (b : Board) {f : Segment} (channel : f.channel = 0x0C) : Same b f := by
  have read : b.clearLanes.read f = b.read f := rfl
  rcases onHeader_cases (b.stored f) (b.read f) with ⟨known, stays⟩ | ⟨new, sent⟩
  · rcases onHeader_cases (b.clearLanes.stored f) (b.read f) with ⟨_, stays'⟩ | ⟨new, _⟩
    · apply Same.quiet
      · rw [frame_header b channel, frame_header b.clearLanes channel, read, stays, stays']
        rfl
      · rw [frame_header b channel, frame_header b.clearLanes channel, read, stays, stays']
      · rw [frame_header b channel, stays]
        simp [clears, sends]
    · exact absurd known new
  · rcases onHeader_cases (b.clearLanes.stored f) (b.read f) with ⟨known, _⟩ | ⟨_, sent'⟩
    · exact absurd known new
    · apply Same.equal
      rw [frame_header b channel, frame_header b.clearLanes channel, read, sent, sent']
      rfl

private theorem rounds_same (b : Board) {f : Segment} (channel : f.channel = 0x12) : Same b f := by
  have read : b.clearLanes.read f = b.read f := rfl
  apply Same.quiet
  · rw [frame_rounds b channel, frame_rounds b.clearLanes channel, read]
    rfl
  · rw [frame_rounds b channel, frame_rounds b.clearLanes channel, read]
    rfl
  · rw [frame_rounds b channel]
    simpa [clears, sends] using (onRounds_quiet (b.stored f) (b.read f)).1

/-- A frame does the same to a board and to the board with its lanes cleared, up to the lane records and the
lane messages; and entirely the same if it clears the lanes itself. -/
private theorem frame_same (b : Board) (f : Segment) : Same b f := by
  by_cases lane : 1 ≤ f.channel.toNat ∧ f.channel.toNat ≤ 10
  · have number : (⟨f.channel, lane⟩ : Lane).number = f.channel := rfl
    exact lane_same b number
  · by_cases clock : f.channel = 0x00
    · exact clock_same b clock
    · by_cases header : f.channel = 0x0C
      · exact header_same b header
      · by_cases rounds : f.channel = 0x12
        · exact rounds_same b rounds
        · apply Same.quiet
          · rw [frame_stored b lane clock header rounds, frame_stored b.clearLanes lane clock header rounds]
            rfl
          · rw [frame_stored b lane clock header rounds, frame_stored b.clearLanes lane clock header rounds]
          · rw [frame_stored b lane clock header rounds]
            simp [clears, sends]

/-- Boards that differ in the lane records only stay so until a clearing, and are equal from there on. -/
theorem frame_isolates : Isolates Board.frame Alike noLane clears where
  keeps := fun b c f alike => by
    have first := (frame_same b f).alike
    have second := (frame_same c f).alike
    rw [alike] at first
    exact first.trans second.symm
  same := fun b c f alike => by
    rw [(frame_same b f).seen, (frame_same c f).seen, alike]
  joined := fun b c f e alike member clear => by
    have equal := (frame_same b f).clear e member clear
    have there : e ∈ (c.frame f).2 := by
      have shown : e ∈ (c.frame f).2.filter noLane := by
        rw [(frame_same c f).seen, ← alike, ← (frame_same b f).seen]
        exact List.mem_filter.mpr ⟨member, clears_noLane e clear⟩
      exact List.mem_of_mem_filter shown
    rw [equal, alike, ← (frame_same c f).clear e there clear]
  seen := clears_noLane

private theorem agree_alike {g g' : Globals} {b c : Board} (agree : Agree g g') (shows : Shows g b)
    (shows' : Shows g' c) : Alike b c := by
  have cells : b.cells = c.cells := shows.cells.symm.trans (agree.cells.trans shows'.cells)
  have header : b.header = c.header := (agree.header ▸ shows.header).unique shows'.header
  have rounds : b.rounds = c.rounds := (agree.rounds ▸ shows.rounds).unique shows'.rounds
  have pRound : b.pRound = c.pRound := shows.pRound.symm.trans (agree.pRound.trans shows'.pRound)
  have clock : b.clock = c.clock := shows.clock.symm.trans (agree.clock.trans shows'.clock)
  have startStop : b.startStop = c.startStop := shows.startStop.symm.trans (agree.startStop.trans shows'.startStop)
  simp only [Alike, Board.clearLanes, cells, header, rounds, pRound, clock, startStop]

private theorem agree_frames {past past' : List UInt8} {g g' : Globals} (agree : Agree g g') (tracks : Tracks past g)
    (tracks' : Tracks past' g') {bytes : List UInt8} {frames frames' : List Segment}
    (more : countingFrames (past ++ bytes) = countingFrames past ++ frames)
    (more' : countingFrames (past' ++ bytes) = countingFrames past' ++ frames') : frames = frames' := by
  rw [countingFrames_append] at more more'
  have same := parses_completed tracks.parses (agree.input ▸ tracks'.parses) bytes
  rw [← List.append_cancel_left more, ← List.append_cancel_left more', same]

/-- Heat isolation. Two reachable memories that agree on everything but the lane records get the same bytes.
All that happens is the same except for lane messages, and from the first header, start or stop message on
it is the same with them. -/
theorem heat_isolation (host host' : Host) (past past' : List UInt8) :
    ∃ g g', run host past = .ok g ∧ run host' past' = .ok g' ∧
      (Agree g g' → ∀ bytes, ∃ h h' es es', receive host bytes g = .ok h ∧ receive host' bytes g' = .ok h' ∧
        h.trace = g.trace ++ es ∧ h'.trace = g'.trace ++ es' ∧
        es.filter noLane = es'.filter noLane ∧
        es.dropWhile (!clears ·) = es'.dropWhile (!clears ·)) := by
  obtain ⟨g, ran, tracks⟩ := run_tracks host past
  obtain ⟨g', ran', tracks'⟩ := run_tracks host' past'
  refine ⟨g, g', ran, ran', ?_⟩
  intro agree bytes
  obtain ⟨h, frames, received, _, more, trace⟩ := receive_extends host tracks bytes
  obtain ⟨h', frames', received', _, more', trace'⟩ := receive_extends host' tracks' bytes
  obtain rfl := agree_frames agree tracks tracks' more more'
  have alike := agree_alike agree tracks.shows tracks'.shows
  exact ⟨h, h', _, _, received, received', trace, trace', frame_isolates.run_seen alike frames,
    frame_isolates.run_joined alike frames⟩

def withPlace : List UInt8 := [0xBC, 0x0E, 0x1C, 0x2F, 0x3F, 0x4C, 0x5E, 0x6D, 0x7A]

def withoutPlace : List UInt8 := [0xBC, 0x0E, 0x1F, 0x2F, 0x3F, 0x4C, 0x5E, 0x6D, 0x7A]

private def unrecorded (g : Globals) : Globals :=
  { g with coloradoHeatData := Vector.replicate 10 [], coloradoPlaceData := Vector.replicate 10 [], trace := [] }

/-- Two decoders show lane 1 alike, and only the one that saw its place recorded it. -/
theorem heat_isolation_place :
    ∃ g g', run Host.reliable (withPlace ++ withoutPlace ++ [0xBE]) = .ok g ∧
      run Host.reliable (withoutPlace ++ withoutPlace ++ [0xBE]) = .ok g' ∧
      Agree g g' ∧ g.coloradoPlaceData ≠ g'.coloradoPlaceData ∧
      ∀ bytes, ∃ h h' es es', receive Host.reliable bytes g = .ok h ∧ receive Host.reliable bytes g' = .ok h' ∧
        h.trace = g.trace ++ es ∧ h'.trace = g'.trace ++ es' ∧
        es.filter noLane = es'.filter noLane ∧
        es.dropWhile (!clears ·) = es'.dropWhile (!clears ·) := by
  obtain ⟨g, g', ran, ran', isolates⟩ := heat_isolation Host.reliable Host.reliable
    (withPlace ++ withoutPlace ++ [0xBE]) (withoutPlace ++ withoutPlace ++ [0xBE])
  have parts : (run Host.reliable (withPlace ++ withoutPlace ++ [0xBE])).map unrecorded =
      (run Host.reliable (withoutPlace ++ withoutPlace ++ [0xBE])).map unrecorded := by
    decide +kernel
  have places : (run Host.reliable (withPlace ++ withoutPlace ++ [0xBE])).map Globals.coloradoPlaceData ≠
      (run Host.reliable (withoutPlace ++ withoutPlace ++ [0xBE])).map Globals.coloradoPlaceData := by
    decide +kernel
  rw [ran, ran'] at parts places
  have same : unrecorded g = unrecorded g' := Except.ok.inj parts
  simp only [unrecorded, Globals.mk.injEq, and_true, true_and] at same
  obtain ⟨input, cells, header, rounds, pRound, clock, startStop, _⟩ := same
  have agree : Agree g g' := ⟨input, cells, header, rounds, pRound, clock, startStop⟩
  refine ⟨g, g', ran, ran', agree, ?_, isolates agree⟩
  intro equal
  apply places
  show Except.ok _ = Except.ok _
  rw [equal]

end SerialTiming.Laws.Isolation
