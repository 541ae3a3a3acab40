/- module: SerialTiming/Laws/LaneMessages
   digest: Which frames the digits of a lane message come from, and when a cleared lane is announced. -/

import Mathlib
import SerialTiming.Laws.DigitMemory
import SerialTiming.Laws.LaneUpdates
import SerialTiming.Scoreboard.Spelling

set_option autoImplicit false
set_option relaxedAutoImplicit false

namespace SerialTiming.Laws.LaneMessages

open CLib.Strings Line.Segments Scoreboard.Display Scoreboard.Clocks Scoreboard.Boards Scoreboard.Answers
open Scoreboard.Spelling Decoder.State Decoder.ReadData Framing DigitMemory LaneUpdates Machines

def Gives (f : Segment) (d : Fin 8) (v : UInt8) : Prop := ∃ x ∈ f.data, (digitNo x).toNat = d.val ∧ digitOf x = v

def Carries (f : Segment) (d : Fin 8) : Prop := ∃ x ∈ f.data, (digitNo x).toNat = d.val

def Full (f : Segment) : Prop := ∀ d, Carries f d

theorem shown_lt (d : Fin 8) : 2 * d.val < 16 := by omega

def shownCell (row : Row) (d : Fin 8) : UInt8 := row.get ⟨2 * d.val, shown_lt d⟩

/-- A message of lane `k` whose place and time digits are those of one frame. -/
def ShowsFrame (k : UInt8) (f : Segment) (m : List Char) : Prop :=
  ∃ row, m = laneText k row ∧ ∀ d : Fin 8, 1 ≤ d.val → Gives f d (shownCell row d)

private theorem lastDigit_gives {f : Segment} {d : Fin 8} {v : UInt8} (last : lastDigit d f.data = some v) :
    Gives f d v := by
  obtain ⟨x, found, digit⟩ := Option.map_eq_some_iff.mp last
  have member := List.mem_filter.mp (List.mem_of_getLast? found)
  exact ⟨x, member.1, by simpa using member.2, digit⟩

private theorem carries_lastDigit {f : Segment} {d : Fin 8} (carries : Carries f d) :
    ∃ v, lastDigit d f.data = some v := by
  obtain ⟨x, inside, index⟩ := carries
  have some : (f.data.filter fun x => (digitNo x).toNat = d.val) ≠ [] :=
    List.ne_nil_of_mem (List.mem_filter.mpr ⟨inside, by simpa using index⟩)
  exact ⟨digitOf (_ : UInt8), by rw [lastDigit, List.getLast?_eq_some_getLast some]; rfl⟩

private theorem remembered_gives {frames : List Segment} {c b : Nat} {d : Fin 8} {v : UInt8}
    (kept : remembered frames c d b = some v) : ∃ f ∈ writers frames c b, Gives f d v := by
  obtain ⟨f, writer, last⟩ := List.mem_filterMap.mp (List.mem_of_getLast? kept)
  exact ⟨f, writer, lastDigit_gives last⟩

private theorem remembered_some {frames : List Segment} {c b : Nat} {d : Fin 8} {f : Segment}
    (writer : f ∈ writers frames c b) (carries : Carries f d) : ∃ v, remembered frames c d b = some v := by
  obtain ⟨v, last⟩ := carries_lastDigit carries
  have some : ((writers frames c b).filterMap fun f => lastDigit d f.data) ≠ [] :=
    List.ne_nil_of_mem (List.mem_filterMap.mpr ⟨f, writer, last⟩)
  exact ⟨_, List.getLast?_eq_some_getLast some⟩

private theorem remembered_last {frames : List Segment} {c b : Nat} {d : Fin 8} {f : Segment} {v : UInt8}
    (newest : (writers frames c b).getLast? = some f) (carries : Carries f d)
    (kept : remembered frames c d b = some v) : Gives f d v := by
  obtain ⟨w, last⟩ := carries_lastDigit carries
  obtain ⟨older, split⟩ := List.getLast?_eq_some_iff.mp newest
  have one : [f].filterMap (fun f => lastDigit d f.data) = [w] := List.filterMap_cons_some last
  have own : remembered frames c d b = some w := by
    rw [remembered, split, List.filterMap_append, one, List.getLast?_concat]
  obtain rfl : w = v := Option.some.inj (own.symm.trans kept)
  exact lastDigit_gives last

/-- Once a lane has accepted a frame with all indices, each digit of its messages is the last one accepted
frames of the lane had for that index, and all are the last frame's when that carries the seven shown. -/
theorem lane_messages_latest (host : Host) (bytes : List UInt8) :
    ∃ g, run host bytes = .ok g ∧
      ∀ (lane : Lane) (pre : List Event) (m : List Char) (post : List Event),
        g.trace = pre ++ .mqttSend m :: post → (∃ row, m = laneText lane.number row) →
        (∃ f ∈ writers (accepted pre) lane.number.toNat 0, Full f) →
        ∃ row, m = laneText lane.number row ∧
          (∀ d : Fin 8, 1 ≤ d.val → remembered (accepted pre) lane.number.toNat d 0 = some (shownCell row d) ∧
            ∃ f ∈ writers (accepted pre) lane.number.toNat 0, Gives f d (shownCell row d)) ∧
          ∀ f, (writers (accepted pre) lane.number.toNat 0).getLast? = some f →
            (∀ d : Fin 8, 1 ≤ d.val → Carries f d) → ∀ d : Fin 8, 1 ≤ d.val → Gives f d (shownCell row d) := by
  obtain ⟨g, ran, tracks⟩ := run_tracks host bytes
  refine ⟨g, ran, ?_⟩
  rintro lane pre m post split ⟨shownRow, rfl⟩ ⟨full, writer, complete⟩
  obtain ⟨f, row, _, renders, cells⟩ := message_row tracks split (.inl rfl)
  have own : f.channel = lane.number ∧ laneText lane.number shownRow = laneText lane.number row := by
    rcases renders with ⟨_, _, same⟩ | ⟨_, same⟩ | ⟨_, same⟩
    · have number := laneText_lane same
      exact ⟨number.symm, number ▸ same⟩
    · have kinds := congrArg kindOf same
      simp at kinds
    · have kinds := congrArg kindOf same
      simp at kinds
  obtain ⟨number, same⟩ := own
  have kept (d : Fin 8) : remembered (accepted pre) lane.number.toNat d 0 = some (shownCell row d) := by
    obtain ⟨v, known⟩ := remembered_some writer (complete d)
    have cell : shownCell row d = (remembered (accepted pre) f.channel.toNat d 0).getD 0x01 := cells d
    rw [number, known] at cell
    rw [known, cell]
    rfl
  refine ⟨row, same, ?_, ?_⟩
  · intro d _
    exact ⟨kept d, remembered_gives (kept d)⟩
  · intro newest last carries d shown
    exact remembered_last last (carries d shown) (kept d)

def wholeFrame : Segment := ⟨0xBC, [0x0E, 0x1E, 0x2F, 0x3F, 0x4C, 0x5E, 0x6D, 0x7A]⟩

/-- A frame of lane 1 of the same length in which index 6 stands twice and index 7 is missing. -/
def brokenFrame : Segment := ⟨0xBC, [0x0E, 0x1E, 0x2F, 0x3F, 0x4B, 0x5E, 0x6D, 0x6C]⟩

/-- The two frames one after the other: the second message takes its last digit from the first frame. -/
theorem lane_message_mixed :
    ∃ g pre, run Host.reliable (openGate ++ wholeFrame.bytes ++ brokenFrame.bytes ++ [0xBE]) = .ok g ∧
      g.trace = pre ++ [.mqttSend "lane 1 00:41,35 1".toList] ∧
      (∃ row, "lane 1 00:41,35 1".toList = laneText 1 row) ∧ (∃ f ∈ writers (accepted pre) 1 0, Full f) ∧
      ¬ ∃ f ∈ writers (accepted pre) 1 0, ShowsFrame 1 f "lane 1 00:41,35 1".toList := by
  obtain ⟨g, ran, tracks⟩ :=
    run_tracks Host.reliable (openGate ++ wholeFrame.bytes ++ brokenFrame.bytes ++ [0xBE])
  have message : (Event.mqttSend greeting :: (after (countingFrames
      (openGate ++ wholeFrame.bytes ++ brokenFrame.bytes ++ [0xBE]))).2).drop 76 =
      [.mqttSend "lane 1 00:41,35 1".toList] := by
    decide +kernel
  have frames : writers (accepted ((Event.mqttSend greeting :: (after (countingFrames
      (openGate ++ wholeFrame.bytes ++ brokenFrame.bytes ++ [0xBE]))).2).take 76)) 1 0 =
      [wholeFrame, brokenFrame] := by
    decide +kernel
  rw [← tracks.trace] at message frames
  let shown : Row := #v[0, 0, 1, 0, 0, 0, 0, 0, 4, 0, 1, 0, 3, 0, 5, 0]
  have spelled : "lane 1 00:41,35 1".toList = laneText 1 shown := by decide
  have time : displayedTime shown = [0, 0, 4, 1, 3, 5] := by decide
  refine ⟨g, g.trace.take 76, ran, ?_, ⟨shown, spelled⟩, ?_, ?_⟩
  · exact (List.take_append_drop 76 g.trace).symm.trans (congrArg _ message)
  · rw [frames]
    exact ⟨wholeFrame, by simp, by unfold Full Carries; decide⟩
  · rw [frames]
    rintro ⟨f, writer, row, same, digits⟩
    have told := laneText_digits (by rw [time]; decide) (spelled.symm.trans same)
    rw [time] at told
    have seconds : checkBitValue (row.get 8) = 4 := (congrArg (fun ds => ds.getD 2 0) told.1).symm
    rcases List.mem_cons.mp writer with rfl | broken
    · -- the whole frame has another ten of seconds
      obtain ⟨x, inside, index, digit⟩ := digits 4 (by decide)
      have other : ∀ x ∈ wholeFrame.data, (digitNo x).toNat = 4 → checkBitValue (digitOf x) ≠ 4 := by decide +kernel
      apply other x inside index
      rw [digit]
      exact seconds
    · -- and the broken one no hundredth
      obtain rfl := List.mem_singleton.mp broken
      obtain ⟨x, inside, index, _⟩ := digits 7 (by decide)
      have none : ∀ x ∈ brokenFrame.data, (digitNo x).toNat ≠ 7 := by decide +kernel
      exact none x inside index

/-- With the gate open a blank row meets the record of a zero time, and shows a place that is neither zero
nor the recorded one. -/
def RepeatsZero (g : Globals) (lane : Lane) (row : Row) : Prop :=
  g.clock.sendActiveState = true ∧ Blank row ∧ text (g.coloradoHeatData.get lane.index) = .ok zeroTime ∧
    displayedPlace row ≠ 0 ∧ text (g.coloradoPlaceData.get lane.index) ≠ .ok (placeText row)

private theorem announces_blank (heat place : List Char) {row : Row} (blank : Blank row) :
    announces heat place row = true ↔ heat = zeroTime ∧ displayedPlace row ≠ 0 ∧ place ≠ placeText row := by
  have zero : shortText row = zeroTime := (shortText_zero row).mpr blank
  unfold announces
  rw [zero]
  by_cases same : zeroTime = heat
  · rw [if_pos same, decide_eq_true_eq, ne_eq, ne_eq, placeText_zero]
    constructor
    · rintro ⟨other, shown⟩
      exact ⟨same.symm, shown, Ne.symm other⟩
    · rintro ⟨_, shown, other⟩
      exact ⟨Ne.symm other, shown⟩
  · rw [if_neg same]
    constructor
    · intro none
      simp at none
    · rintro ⟨known, _⟩
      exact absurd known.symm same

private theorem frame_sends_lane {b : Board} {f : Segment} {m : List Char} :
    .mqttSend m ∈ (b.frame f).2 ∧ kindOf m = .lane ↔
      ∃ lane : Lane, lane.number = f.channel ∧ b.clock.sendActiveState = true ∧
        announces (b.heat.get lane.index) (b.place.get lane.index) (b.read f) = true ∧
        m = laneText lane.number (b.read f) := by
  constructor
  · rintro ⟨sent, kind⟩
    rcases frame_message sent with ⟨lane, number, rfl, isOpen⟩ | ⟨_, rfl | rfl | rfl⟩ | ⟨_, rfl⟩ | ⟨_, round, rfl⟩
    · refine ⟨lane, number, isOpen, ?_, rfl⟩
      rw [frame_lane b number] at sent
      rcases onLane_cases (b.stored f) lane (b.read f) with ⟨told, _⟩ | ⟨_, silent, _⟩
      · exact told
      · simp [silent] at sent
    · simp at kind
    · simp at kind
    · simp at kind
    · simp at kind
    · simp at kind
  · rintro ⟨lane, number, isOpen, told, rfl⟩
    refine ⟨?_, rfl⟩
    rcases onLane_cases (b.stored f) lane (b.read f) with ⟨_, gives⟩ | ⟨silent, _⟩
    · have opened : (b.stored f).clock.sendActiveState = true := isOpen
      rw [frame_lane b number, gives]
      simp [Board.laneEvents, opened]
    · exact absurd (told.symm.trans silent) (by decide)

private theorem repeatsZero_iff {g : Globals} {b : Board} (shows : Shows g b) (lane : Lane) (row : Row) :
    RepeatsZero g lane row ↔ b.clock.sendActiveState = true ∧ Blank row ∧
      announces (b.heat.get lane.index) (b.place.get lane.index) row = true := by
  have heat : text (g.coloradoHeatData.get lane.index) = .ok (b.heat.get lane.index) :=
    text_holds (shows.heat lane.index lane.index.isLt).1.holds
  have place : text (g.coloradoPlaceData.get lane.index) = .ok (b.place.get lane.index) :=
    text_holds (shows.place lane.index lane.index.isLt).1.holds
  unfold RepeatsZero
  rw [heat, place, shows.clock, Except.ok.injEq, ne_eq (Except.ok _), Except.ok.injEq]
  constructor
  · rintro ⟨isOpen, blank, told⟩
    exact ⟨isOpen, blank, (announces_blank _ _ blank).mpr told⟩
  · rintro ⟨isOpen, blank, told⟩
    exact ⟨isOpen, blank, (announces_blank _ _ blank).mp told⟩

/-- Cleared lanes. On every line no lane message shows 00:00,00 exactly when no lane frame repeats a zero time
with a new place while the gate is open. -/
theorem zero_times_unsent (host : Host) (bytes : List UInt8) :
    ∃ g, run host bytes = .ok g ∧
      ((∀ m, .mqttSend m ∈ g.trace → kindOf m = .lane → thirdWord m ≠ "00:00,00".toList) ↔
        ∀ g₁ f (lane : Lane), Meets host bytes g₁ f → lane.number = f.channel →
          ¬ RepeatsZero g₁ lane (rowOf (storeFrame g₁.coloradoData f) f)) := by
  obtain ⟨g, ran, tracks⟩ := run_tracks host bytes
  refine ⟨g, ran, ?_, ?_⟩
  · intro unsent g₁ f lane meets number repeated
    obtain ⟨before, later, frames, shows⟩ := meets_split meets
    rw [shows_read shows, repeatsZero_iff shows] at repeated
    obtain ⟨isOpen, blank, told⟩ := repeated
    obtain ⟨sent, kind⟩ := frame_sends_lane.mpr ⟨lane, number, isOpen, told, rfl⟩
    have member : .mqttSend (laneText lane.number ((after before).1.read f)) ∈ g.trace := by
      rw [tracks.trace, frames, after_split]
      simp [sent]
    apply unsent _ member kind
    rw [thirdWord_lane]
    exact (timeWord_zero _).mpr blank
  · intro never m member kind zero
    obtain ⟨pre, post, split⟩ := List.append_of_mem member
    obtain ⟨before, f, later, front, back, frames, place, _, _, _⟩ := tracks_sent tracks split (by simp [kind])
    obtain ⟨g₁, meets, shows⟩ := split_meets host frames
    have sent : .mqttSend m ∈ ((after before).1.frame f).2 := by simp [place]
    obtain ⟨lane, number, isOpen, told, rfl⟩ := frame_sends_lane.mp ⟨sent, kind⟩
    rw [thirdWord_lane] at zero
    apply never g₁ f lane meets number
    rw [shows_read shows, repeatsZero_iff shows]
    exact ⟨isOpen, (timeWord_zero _).mp zero, told⟩

/-- Lane 1 shows no time yet and place 3: its zero time goes out. -/
theorem zero_time_sent :
    ∃ g m, run Host.reliable (openGate ++ [0xBC, 0x0F, 0x1C, 0x2F, 0x3F, 0x4F, 0x5F, 0x6F, 0x7F, 0xBE]) = .ok g ∧
      .mqttSend m ∈ g.trace ∧ m = "lane 1 00:00,00 3".toList ∧ kindOf m = .lane ∧
      thirdWord m = "00:00,00".toList := by
  obtain ⟨g, ran, tracks⟩ :=
    run_tracks Host.reliable (openGate ++ [0xBC, 0x0F, 0x1C, 0x2F, 0x3F, 0x4F, 0x5F, 0x6F, 0x7F, 0xBE])
  refine ⟨g, "lane 1 00:00,00 3".toList, ran, ?_, rfl, by decide, by decide⟩
  rw [tracks.trace]
  decide +kernel

end SerialTiming.Laws.LaneMessages
