/- module: SerialTiming/Laws/Sampling
   digest: Start and stop alternate and clear the lanes, and how soon the detector sees the clock change. -/

import Mathlib
import SerialTiming.Laws.LaneUpdates
import SerialTiming.Laws.Records
import SerialTiming.Scoreboard.Sampler

set_option autoImplicit false
set_option relaxedAutoImplicit false

namespace SerialTiming.Laws.Sampling

open CLib.Strings Line.Segments Scoreboard.Display Scoreboard.Clocks Scoreboard.Boards Scoreboard.Answers
open Scoreboard.Sampler Decoder.State Decoder.ReadData Framing LaneUpdates Reactions

private theorem tracks_observe {bytes : List UInt8} {g : Globals} (tracks : Tracks bytes g) :
    g.startStop = (clockRows g.trace).foldl observe initStartStop ∧
      switches g.trace = told initStartStop (clockRows g.trace) ∧ Settled g.startStop := by
  have rows : clockRows g.trace = clockRows (after (countingFrames bytes)).2 := by
    rw [tracks.trace]
    rfl
  have messages : switches g.trace = switches (after (countingFrames bytes)).2 := by
    rw [tracks.trace]
    rfl
  rw [rows, messages, tracks.shows.startStop]
  exact ⟨after_observe _, after_switches _, settled_after _⟩

private theorem extends_observe {past more : List UInt8} {g g' : Globals} {es : List Event}
    (tracks : Tracks past g) (tracks' : Tracks more g') (trace : g'.trace = g.trace ++ es) :
    g'.startStop = (clockRows es).foldl observe g.startStop ∧ switches es = told g.startStop (clockRows es) := by
  obtain ⟨before, sent, _⟩ := tracks_observe tracks
  obtain ⟨now, all, _⟩ := tracks_observe tracks'
  rw [trace, clockRows_append] at now all
  rw [List.foldl_append, ← before] at now
  rw [switches_append, told_append, sent, ← before] at all
  exact ⟨now, List.append_cancel_left all⟩

private theorem after_clockRows (frames : List Segment) :
    rowsOf 0x00 [] (.mqttSend greeting :: (after frames).2) = clockRows (.mqttSend greeting :: (after frames).2) := by
  have both : (after frames).1.cells = cellsOf (.mqttSend greeting :: (after frames).2) ∧
      rowsOf 0x00 [] (.mqttSend greeting :: (after frames).2) =
        clockRows (.mqttSend greeting :: (after frames).2) := by
    refine after_invariant (fun b out => b.cells = cellsOf (.mqttSend greeting :: out) ∧
      rowsOf 0x00 [] (.mqttSend greeting :: out) = clockRows (.mqttSend greeting :: out)) ⟨rfl, rfl⟩ ?_ frames
    rintro b out f ⟨stores, same⟩
    refine ⟨frame_cellsOf f stores, ?_⟩
    rw [← List.cons_append, rowsOf_append, clockRows_append, same, List.nil_append, frame_rowsOf f stores,
      frame_clockRows]
  exact both.2

private theorem tracks_clockRows {bytes : List UInt8} {g : Globals} (tracks : Tracks bytes g) :
    rowsOf 0x00 [] g.trace = clockRows g.trace := by
  rw [tracks.trace]
  exact after_clockRows _

private theorem extends_clockRows {past es : List Event} (before : rowsOf 0x00 [] past = clockRows past)
    (now : rowsOf 0x00 [] (past ++ es) = clockRows (past ++ es)) : rowsOf 0x00 past es = clockRows es := by
  rw [rowsOf_append, clockRows_append, before] at now
  exact List.append_cancel_left now

/-- Sampling. A stopped detector sends start at the next clock frame whose row is not null. A running one sends one
stop within six clock frames whose rows are null, and is stopped after them. A stopped detector lets the row of
every clock frame decide. A running one lets a row decide when it has counted five clock frames, whose rows change
neither its state nor its messages. -/
theorem samples_clock (host : Host) (past : List UInt8) :
    ∃ g, run host past = .ok g ∧ g.startStop.noworking ≤ 5 ∧
      ∀ bytes, ∃ g' es, receive host bytes g = .ok g' ∧ g'.trace = g.trace ++ es ∧
        accepted g'.trace = countingFrames (past ++ bytes) ∧
        (g.startStop.bStopping = false →
          (∀ pre f post, es = pre ++ .accept f :: post → f.channel = 0x00 →
            (∀ r ∈ rowsOf 0x00 g.trace pre, NullCells r) → ¬ NullCells (rowAt (g.trace ++ pre) f) →
              switches (reaction post) = [.start]) ∧
          (∀ row, rowsOf 0x00 g.trace es = [row] → Decided g'.startStop row)) ∧
        (g.startStop.bStopping = true →
          ((rowsOf 0x00 g.trace es).length = 6 → (∀ r ∈ rowsOf 0x00 g.trace es, NullCells r) →
            switches es = [.stop] ∧ g'.startStop.bStopping = false) ∧
          (g.startStop.noworking + (rowsOf 0x00 g.trace es).length ≤ 5 →
            switches es = [] ∧ g'.startStop =
              { g.startStop with noworking := g.startStop.noworking + (rowsOf 0x00 g.trace es).length }) ∧
          (∀ rows row, rowsOf 0x00 g.trace es = rows ++ [row] → g.startStop.noworking + rows.length = 5 →
            switches es = (if NullCells row then [.stop] else []) ∧ Decided g'.startStop row)) := by
  obtain ⟨g, ran, tracks⟩ := run_tracks host past
  obtain ⟨_, _, settled⟩ := tracks_observe tracks
  refine ⟨g, ran, settled.bounded, ?_⟩
  intro bytes
  obtain ⟨g', frames, received, tracks', _, trace⟩ := receive_extends host tracks bytes
  obtain ⟨now, sent⟩ := extends_observe tracks tracks' trace
  have all := tracks_clockRows tracks'
  rw [trace] at all
  have rows := extends_clockRows (tracks_clockRows tracks) all
  refine ⟨g', _, received, trace, tracks_accepted tracks', ?_, ?_⟩
  · intro stopped
    refine ⟨?_, ?_⟩
    · intro pre f post split channel null shown
      rw [split, ← List.append_assoc] at trace
      obtain ⟨before, later, _, earlier, events, reads⟩ := tracks_reaction tracks' trace
      -- up to here the detector saw null rows only and is still stopped
      have seen := after_clockRows before
      rw [← earlier] at seen
      have passed : clockRows g.trace ++ clockRows pre = clockRows (after before).2 := by
        rw [← clockRows_append, earlier]
        rfl
      rw [extends_clockRows (tracks_clockRows tracks) seen] at null
      have still : (after before).1.startStop.bStopping = false := by
        rw [after_observe, ← passed, List.foldl_append, ← (tracks_observe tracks).1]
        exact (stopped_null settled stopped null).2
      have tells := frame_switches (after before).1 f
      rw [frame_clockRows, if_pos channel, events, reads,
        (stopped_decides (settled_after before) still _).1, if_neg shown] at tells
      exact tells
    · intro row only
      rw [rows] at only
      rw [now, only]
      exact (stopped_decides settled stopped row).2
  · intro running
    rw [rows, sent, now]
    refine ⟨?_, running_waits settled running, ?_⟩
    · intro six null
      exact running_null settled running null (by omega)
    · rintro front row split due
      rw [split]
      exact running_decides settled running due row

def runningClock : Segment := ⟨0xBE, [0x10, 0x20, 0x30, 0x40, 0x5A, 0x6F]⟩

def standingClock : Segment := ⟨0xBE, [0x10, 0x20, 0x30, 0x40, 0x5F, 0x6F]⟩

def sixStanding : List UInt8 := (List.replicate 6 standingClock).flatMap Segment.bytes ++ [0xBC]

/-- Six standing clock frames bring one stop. -/
theorem samples_clock_stop :
    ∃ g, run Host.reliable (runningClock.bytes ++ [0xBC]) = .ok g ∧
      ∃ g' es, receive Host.reliable sixStanding g = .ok g' ∧ g'.trace = g.trace ++ es ∧
        (rowsOf 0x00 g.trace es).length = 6 ∧ (∀ r ∈ rowsOf 0x00 g.trace es, NullCells r) ∧
        switches es = [.stop] ∧ g'.startStop.bStopping = false := by
  obtain ⟨g, ran, _, samples⟩ := samples_clock Host.reliable (runningClock.bytes ++ [0xBC])
  obtain ⟨g₀, ran₀, tracks⟩ := run_tracks Host.reliable (runningClock.bytes ++ [0xBC])
  obtain rfl : g₀ = g := Except.ok.inj (ran₀.symm.trans ran)
  obtain ⟨g', es, received, trace, _, _, running⟩ := samples sixStanding
  obtain ⟨g₁, received₁, tracks'⟩ := receive_tracks Host.reliable tracks sixStanding
  obtain rfl : g₁ = g' := Except.ok.inj (received₁.symm.trans received)
  have runs : g₀.startStop.bStopping = true := by
    rw [tracks.shows.startStop]
    decide +kernel
  let row : Row := rowAt [] standingClock
  let pass : List Event := [.accept standingClock, .checkStartStop row, .getTime row]
  let last : List Event := [.accept standingClock, .checkStartStop row, .mqttSend "stop".toList, .getTime row]
  have before : g₀.trace = [.mqttSend greeting, .accept runningClock, .checkStartStop (rowAt [] runningClock),
      .mqttSend "start".toList, .getTime (rowAt [] runningClock)] := by
    rw [tracks.trace]
    decide +kernel
  have events : es = (List.replicate 5 pass).flatten ++ last := by
    have now : g₁.trace = g₀.trace ++ ((List.replicate 5 pass).flatten ++ last) := by
      rw [tracks'.trace, before]
      decide +kernel
    exact List.append_cancel_left (trace.symm.trans now)
  have rows : rowsOf 0x00 g₀.trace es = List.replicate 6 row := by
    rw [events, before]
    decide +kernel
  have stands : NullCells row := (rowNotNull_false row).mp (by decide +kernel)
  have six : (rowsOf 0x00 g₀.trace es).length = 6 := by rw [rows, List.length_replicate]
  have null : ∀ r ∈ rowsOf 0x00 g₀.trace es, NullCells r := by
    intro r among
    rw [rows] at among
    obtain rfl := List.eq_of_mem_replicate among
    exact stands
  exact ⟨g₀, ran, g₁, es, received, trace, six, null, (running runs).1 six null⟩

private theorem switch_clears {m : List Char} (switch : kindOf m = .start ∨ kindOf m = .stop) :
    clears (.mqttSend m) = true := by
  rcases switch with kind | kind <;> simp [clears, sends, kind]

private theorem switches_quiet {es : List Event} (quiet : ∀ e ∈ es, clears e = false) : switches es = [] := by
  apply switches_none
  intro m sent
  have kept := quiet _ sent
  constructor
  · intro start
    simp [switch_clears (.inl start)] at kept
  · intro stop
    simp [switch_clears (.inr stop)] at kept

private theorem frame_cleared {b : Board} {f : Segment} (switched : switches (b.frame f).2 ≠ []) :
    (b.frame f).1.heat = Vector.replicate 10 zeroTime ∧ (b.frame f).1.place = Vector.replicate 10 zeroPlace := by
  have effect := frame_laneEffect b f
  generalize b.frame f = answer at effect switched
  cases effect with
  | none c es heat place quiet noRow => exact absurd (switches_quiet quiet) switched
  | clear c front back e heat place clear quiet noRow => exact ⟨heat, place⟩
  | row c es lane row heat place quiet given => exact absurd (switches_quiet quiet) switched

/-- The record of a lane holds the zero time from a start or stop on, for as long as its frames are blank. -/
private structure StaysZero (b : Board) (trace : List Event) : Prop where
  stores : b.cells = cellsOf trace
  zero : ∀ (lane : Lane) pre m mid, trace = pre ++ .mqttSend m :: mid → kindOf m = .start ∨ kindOf m = .stop →
    (∀ row ∈ rowsOf lane.number (pre ++ [.mqttSend m]) mid, Blank row) → b.heat.get lane.index = zeroTime

private theorem switches_sent {es : List Event} {m : List Char} (sent : .mqttSend m ∈ es)
    (switch : kindOf m = .start ∨ kindOf m = .stop) : switches es ≠ [] := by
  intro none
  have kind : kindOf m ∈ switches es := by
    simp only [switches, List.mem_filter, List.mem_filterMap, decide_eq_true_eq]
    exact ⟨⟨.mqttSend m, sent, rfl⟩, switch⟩
  simp [none] at kind

private theorem onLane_blank {b : Board} {lane : Lane} {row : Row} (zero : b.heat.get lane.index = zeroTime)
    (blank : Blank row) : (b.onLane lane row).1.heat.get lane.index = zeroTime := by
  have text : shortText row = zeroTime := (shortText_zero row).mpr blank
  have recorded : recordedTime row = zeroTime := by
    rw [recordedTime, text]
    rfl
  rw [(onLane_own b lane row).1, recorded, zero, text]
  simp

private theorem staysZero_frame {b : Board} {trace : List Event} (f : Segment) (stays : StaysZero b trace) :
    StaysZero (b.frame f).1 (trace ++ (b.frame f).2) := by
  obtain ⟨stores, zero⟩ := stays
  refine ⟨frame_cellsOf f stores, ?_⟩
  intro lane pre m mid split switch blank
  have cleared (sent : .mqttSend m ∈ (b.frame f).2) : (b.frame f).1.heat.get lane.index = zeroTime := by
    rw [(frame_cleared (switches_sent sent switch)).1, Vector.get_replicate]
  rcases List.append_eq_append_iff.mp split with ⟨front, _, inside⟩ | ⟨back, earlier, rest⟩
  · exact cleared (by simp [inside])
  · cases back with
    | nil =>
        rw [List.nil_append] at rest
        exact cleared (by simp [← rest])
    | cons e back =>
        simp only [List.cons_append, List.cons.injEq] at rest
        obtain ⟨rfl, rfl⟩ := rest
        rw [rowsOf_append] at blank
        have before := zero lane pre m back earlier switch fun row member => blank row (List.mem_append_left _ member)
        have past : pre ++ [.mqttSend m] ++ back = trace := by simp [earlier]
        rw [past, frame_rowsOf f stores] at blank
        by_cases own : f.channel = lane.number
        · rw [if_pos own] at blank
          rw [frame_lane b own.symm]
          exact onLane_blank (b := b.stored f) before (blank (b.read f) (by simp))
        · have effect := frame_laneEffect b f
          have rows := frame_laneRow b f lane
          rw [if_neg own] at rows
          generalize b.frame f = answer at effect rows
          cases effect with
          | none c es heat place quiet noRow =>
              simp only [heat]
              exact before
          | clear c front back e heat place clear quiet noRow =>
              simp only [heat, Board.clearLanes, Vector.get_replicate]
          | row c es at_ row heat place quiet given =>
              have other : at_.number ≠ lane.number := by
                intro same
                rw [given, if_pos same] at rows
                cases rows
              simp only [heat]
              rw [(onLane_other (b.stored f) other row).1]
              exact before

private theorem staysZero_after (frames : List Segment) :
    StaysZero (after frames).1 (.mqttSend greeting :: (after frames).2) := by
  refine after_invariant (fun b out => StaysZero b (.mqttSend greeting :: out)) ?_ ?_ frames
  · refine ⟨rfl, ?_⟩
    intro lane pre m mid split switch blank
    simp [Board.start, Vector.get_replicate]
  · intro b out f stays
    exact staysZero_frame f stays

private theorem switched_records {b : Board} {f : Segment} {g : Globals} (shows : Shows g (b.frame f).1)
    (switched : switches (b.frame f).2 ≠ []) (lane : Fin 10) :
    text (g.coloradoHeatData.get lane) = .ok zeroTime ∧ text (g.coloradoPlaceData.get lane) = .ok zeroPlace := by
  obtain ⟨heat, place⟩ := frame_cleared switched
  have times : (b.frame f).1.heat.get lane = zeroTime := by
    rw [heat, Vector.get_replicate]
  have places : (b.frame f).1.place.get lane = zeroPlace := by
    rw [place, Vector.get_replicate]
  rw [← times, ← places]
  exact ⟨text_holds (shows.heat lane lane.isLt).1.holds, text_holds (shows.place lane lane.isLt).1.holds⟩

private theorem zero_announces {heat place : List Char} {row : Row} (zero : heat = zeroTime) (shown : ¬ Blank row) :
    announces heat place row = true := by
  have time : ¬ shortText row = zeroTime := fun text => shown ((shortText_zero row).mp text)
  simp only [announces, zero, if_neg time, decide_eq_true_eq]
  exact time

/-- Start and stop. On every line they alternate and start comes first. Right after each of them all lane records hold
zero, so each lane's next accepted frame that shows a time is handed to sendLaneData. -/
theorem switches_alternate (host : Host) (bytes : List UInt8) :
    ∃ g, run host bytes = .ok g ∧ accepted g.trace = countingFrames bytes ∧
      (∀ i k, (switches g.trace)[i]? = some k → k = if i % 2 = 0 then .start else .stop) ∧
      (∀ x, ∃ g' es, run host (bytes ++ [x]) = .ok g' ∧ g'.trace = g.trace ++ es ∧
        (switches es ≠ [] → ∀ lane : Fin 10,
          text (g'.coloradoHeatData.get lane) = .ok zeroTime ∧
            text (g'.coloradoPlaceData.get lane) = .ok zeroPlace)) ∧
      ∀ (pre : List Event) (m : List Char) (mid : List Event) (lane : Lane) (f : Segment) (post : List Event),
        g.trace = pre ++ .mqttSend m :: mid ++ .accept f :: post → kindOf m = .start ∨ kindOf m = .stop →
        f.channel = lane.number → (∀ row ∈ rowsOf lane.number (pre ++ [.mqttSend m]) mid, Blank row) →
        ¬ Blank (rowAt (pre ++ .mqttSend m :: mid) f) →
          handed (reaction post) = [laneText lane.number (rowAt (pre ++ .mqttSend m :: mid) f)] := by
  obtain ⟨g, ran, tracks⟩ := run_tracks host bytes
  refine ⟨g, ran, tracks_accepted tracks, ?_, ?_, ?_⟩
  · intro i k there
    rw [(tracks_observe tracks).2.1] at there
    have turn := told_alternates _ _ i there
    simpa [initStartStop] using turn
  · intro x
    obtain ⟨g', ran', tracks'⟩ := run_tracks host (bytes ++ [x])
    have trace := tracks'.trace
    have shows := tracks'.shows
    rcases countingFrames_snoc bytes x with same | ⟨f, _, _, _, more⟩
    · rw [same, ← tracks.trace] at trace
      exact ⟨g', [], ran', by rw [trace, List.append_nil], fun switched => absurd rfl switched⟩
    · rw [more, after_snoc] at trace shows
      refine ⟨g', ((after (countingFrames bytes)).1.frame f).2, ran', by rw [trace, tracks.trace]; rfl, ?_⟩
      exact switched_records shows
  · intro pre m mid lane f post split switch channel blank shown
    obtain ⟨before, later, _, earlier, events, reads⟩ := tracks_reaction tracks split
    -- between the switch and this frame the lane showed blank rows only
    have zero : (after before).1.heat.get lane.index = zeroTime :=
      (staysZero_after before).zero lane pre m mid earlier.symm switch blank
    have hands := frame_handed (after before).1 channel
    rw [reads, if_pos (zero_announces zero shown), events] at hands
    exact hands

/-- The detector starts, and lane 1 hands over the first time that it shows. -/
theorem switches_alternate_first :
    ∃ g pre mid post, run Host.reliable (runningClock.bytes ++ shownFrame.bytes ++ [0xBE]) = .ok g ∧
      g.trace = pre ++ .mqttSend "start".toList :: mid ++ .accept shownFrame :: post ∧
      kindOf "start".toList = .start ∧ handed (reaction post) = ["lane 1 00:31,25 3".toList] := by
  obtain ⟨g, ran, _, _, _, hands⟩ :=
    switches_alternate Host.reliable (runningClock.bytes ++ shownFrame.bytes ++ [0xBE])
  obtain ⟨g₀, ran₀, tracks⟩ := run_tracks Host.reliable (runningClock.bytes ++ shownFrame.bytes ++ [0xBE])
  obtain rfl : g₀ = g := Except.ok.inj (ran₀.symm.trans ran)
  let clock : Row := rowAt [] runningClock
  let pre : List Event := [.mqttSend greeting, .accept runningClock, .checkStartStop clock]
  let mid : List Event := [.getTime clock]
  let past : List Event := pre ++ .mqttSend "start".toList :: mid
  let row : Row := rowAt past shownFrame
  let post : List Event := [.analyseActiveData 1 row, .sendLaneData "lane 1 00:31,25 3".toList]
  have trace : g₀.trace = past ++ .accept shownFrame :: post := by
    rw [tracks.trace]
    decide +kernel
  have shows : ¬ Blank row := by decide +kernel
  have starts : kindOf "start".toList = .start := by decide +kernel
  have told := hands pre "start".toList mid ⟨1, by decide⟩ shownFrame post trace (.inl starts) rfl
    (fun r among => by cases among) shows
  exact ⟨g₀, pre, mid, post, ran, trace, starts, told.trans (by decide +kernel)⟩

end SerialTiming.Laws.Sampling
