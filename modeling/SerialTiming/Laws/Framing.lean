/- module: SerialTiming/Laws/Framing
   digest: Which frames the decoder stores and dispatches, on one connection and over several. -/

import SerialTiming.Decoder.ReadData
import SerialTiming.Scoreboard.Answers

set_option autoImplicit false
set_option relaxedAutoImplicit false

namespace SerialTiming.Laws.Framing

open Line.Segments Scoreboard.Display Scoreboard.Boards Scoreboard.Answers Machines
open Decoder.State Decoder.ReadData

/-- The reference decoder on one frame: store its digits and call its channel's handlers with the row. -/
def referenceFrame (cells : Vector Row 32) (f : Segment) : Vector Row 32 × List Event :=
  (storeFrame cells f, .accept f :: handlers f (rowOf (storeFrame cells f) f))

def reference (frames : List Segment) : Vector Row 32 × List Event :=
  Transducer.run referenceFrame initCells frames

/-- The board stores and dispatches as the reference does, whatever its handlers do besides. -/
theorem after_reference (frames : List Segment) :
    (after frames).1.cells = (reference frames).1 ∧ calls (after frames).2 = (reference frames).2 := by
  induction frames using List.reverseRecOn with
  | nil => exact ⟨rfl, rfl⟩
  | append_singleton frames f ih =>
      obtain ⟨cells, called⟩ := ih
      have stored : ((after frames).1.frame f).1.cells = storeFrame (after frames).1.cells f :=
        frame_cells _ f
      rw [after_snoc, reference, Transducer.run_snoc, ← reference, ← cells, ← called, calls_append,
        calls_frame]
      exact ⟨stored, rfl⟩

/-- The frames stored and dispatched are the segments that count, each once, in stream order, and each
goes to its channel's handlers. -/
theorem dispatches_countingFrames (host : Host) (bytes : List UInt8) :
    ∃ g, run host bytes = .ok g ∧ calls g.trace = (reference (countingFrames bytes)).2 ∧
      g.coloradoData = (reference (countingFrames bytes)).1 := by
  obtain ⟨g, ran, tracks⟩ := run_tracks host bytes
  obtain ⟨cells, called⟩ := after_reference (countingFrames bytes)
  refine ⟨g, ran, ?_, tracks.shows.cells.trans cells⟩
  rw [tracks.trace, ← called]
  rfl

theorem tracks_accepted {bytes : List UInt8} {g : Globals} (tracks : Tracks bytes g) :
    accepted g.trace = countingFrames bytes := by
  rw [tracks.trace]
  exact accepted_after (countingFrames bytes)

theorem tracks_place {bytes : List UInt8} {g : Globals} (tracks : Tracks bytes g) {pre post : List Event}
    {e : Event} (split : g.trace = pre ++ e :: post) (noFrame : accepts e = none)
    (noGreeting : e ≠ .mqttSend greeting) :
    ∃ before f later front back,
      countingFrames bytes = before ++ f :: later ∧
      ((after before).1.frame f).2 = .accept f :: front ++ e :: back ∧
      pre = .mqttSend greeting :: (after before).2 ++ .accept f :: front ∧
      post = back ++ (Transducer.run Board.frame ((after before).1.frame f).1 later).2 ∧
      accepted pre = before ++ [f] := by
  rw [tracks.trace] at split
  cases pre with
  | nil =>
      simp only [List.nil_append, List.cons.injEq] at split
      exact absurd split.1.symm noGreeting
  | cons first pre =>
      simp only [List.cons_append, List.cons.injEq] at split
      obtain ⟨rfl, out⟩ := split
      obtain ⟨before, f, later, front, back, frames, place, rfl, rfl, taken⟩ := after_place out noFrame
      exact ⟨before, f, later, front, back, frames, place, rfl, rfl, taken⟩

theorem tracks_sent {bytes : List UInt8} {g : Globals} (tracks : Tracks bytes g) {pre post : List Event}
    {m : List Char} (split : g.trace = pre ++ .mqttSend m :: post) (told : kindOf m ≠ .other) :
    ∃ before f later front back,
      countingFrames bytes = before ++ f :: later ∧
      ((after before).1.frame f).2 = Event.accept f :: front ++ Event.mqttSend m :: back ∧
      pre = Event.mqttSend greeting :: (after before).2 ++ Event.accept f :: front ∧
      post = back ++ (Transducer.run Board.frame ((after before).1.frame f).1 later).2 ∧
      accepted pre = before ++ [f] := by
  apply tracks_place tracks split rfl
  intro same
  obtain rfl := Event.mqttSend.inj same
  exact told (by decide)

theorem tracks_accept {bytes : List UInt8} {g : Globals} (tracks : Tracks bytes g) {pre post : List Event}
    {f : Segment} (split : g.trace = pre ++ .accept f :: post) :
    ∃ before later, countingFrames bytes = before ++ f :: later ∧
      pre = .mqttSend greeting :: (after before).2 ∧
      .accept f :: post = ((after before).1.frame f).2 ++
        (Transducer.run Board.frame ((after before).1.frame f).1 later).2 := by
  rw [tracks.trace] at split
  cases pre with
  | nil => cases split
  | cons first pre =>
      simp only [List.cons_append, List.cons.injEq] at split
      obtain ⟨rfl, out⟩ := split
      obtain ⟨before, later, frames, rfl, rest⟩ := after_accept out
      exact ⟨before, later, frames, rfl, rest⟩

/-- Among the bytes of the line is one that completes the frame `f` when the program's memory is `g`. -/
def Meets (host : Host) (bytes : List UInt8) (g : Globals) (f : Segment) : Prop :=
  ∃ received a, received ++ [a] <+: bytes ∧ run host received = .ok g ∧
    countingFrames (received ++ [a]) = countingFrames received ++ [f]

theorem shows_read {g : Globals} {b : Board} (shows : Shows g b) (f : Segment) :
    rowOf (storeFrame g.coloradoData f) f = b.read f := by
  rw [shows.cells, Board.read]

theorem split_meets (host : Host) {bytes : List UInt8} {before later : List Segment} {f : Segment}
    (frames : countingFrames bytes = before ++ f :: later) :
    ∃ g, Meets host bytes g f ∧ Shows g (after before).1 := by
  obtain ⟨received, a, shorter, rfl, completed⟩ := countingFrames_split frames
  obtain ⟨g, ran, tracks⟩ := run_tracks host received
  exact ⟨g, ⟨received, a, shorter, ran, completed⟩, tracks.shows⟩

theorem meets_split {host : Host} {bytes : List UInt8} {g : Globals} {f : Segment}
    (meets : Meets host bytes g f) :
    ∃ before later, countingFrames bytes = before ++ f :: later ∧ Shows g (after before).1 := by
  obtain ⟨received, a, shorter, ran, completed⟩ := meets
  obtain ⟨g', ran', tracks⟩ := run_tracks host received
  obtain rfl : g' = g := Except.ok.inj (ran'.symm.trans ran)
  obtain ⟨later, frames⟩ := countingFrames_prefix shorter
  exact ⟨countingFrames received, later, by simp [← frames, completed], tracks.shows⟩

theorem called_iff (host : Host) {bytes : List UInt8} {g : Globals} (tracks : Tracks bytes g) {e : Event}
    (noReport : isReport e = false) (noFrame : accepts e = none) :
    e ∈ g.trace ↔
      ∃ g₁ f, Meets host bytes g₁ f ∧ e ∈ handlers f (rowOf (storeFrame g₁.coloradoData f) f) := by
  have noGreeting : e ≠ .mqttSend greeting := by
    rintro rfl
    simp [isReport] at noReport
  constructor
  · intro member
    obtain ⟨pre, post, split⟩ := List.append_of_mem member
    obtain ⟨before, f, later, front, back, frames, place, -, -, -⟩ := tracks_place tracks split noFrame noGreeting
    obtain ⟨g₁, meets, shows⟩ := split_meets host frames
    have given : e ∈ ((after before).1.frame f).2 := by simp [place]
    rcases frame_call given noReport with rfl | called
    · simp [accepts] at noFrame
    · exact ⟨g₁, f, meets, by rwa [shows_read shows]⟩
  · rintro ⟨g₁, f, meets, called⟩
    obtain ⟨before, later, frames, shows⟩ := meets_split meets
    have given : e ∈ calls ((after before).1.frame f).2 := by
      rw [calls_frame, ← shows_read shows]
      exact List.mem_cons_of_mem _ called
    rw [tracks.trace, frames, after_split]
    simp [List.mem_of_mem_filter given]

theorem receive_extends (host : Host) {past : List UInt8} {g : Globals} (tracks : Tracks past g)
    (bytes : List UInt8) :
    ∃ g' frames, receive host bytes g = .ok g' ∧ Tracks (past ++ bytes) g' ∧
      countingFrames (past ++ bytes) = countingFrames past ++ frames ∧
      g'.trace = g.trace ++ (Transducer.run Board.frame (after (countingFrames past)).1 frames).2 := by
  obtain ⟨g', received, tracks'⟩ := receive_tracks host tracks bytes
  obtain ⟨frames, more⟩ := countingFrames_prefix (List.prefix_append past bytes)
  refine ⟨g', frames, received, tracks', more.symm, ?_⟩
  rw [tracks'.trace, tracks.trace, ← more, after, Transducer.run_append]
  rfl

/-- Twenty-two clock frames of 00:05,0, which open the gate. -/
def openGate : List UInt8 := (List.replicate 22 [0xBE, 0x10, 0x20, 0x30, 0x40, 0x5A, 0x6F]).flatten

/-- Over several connections the accepted frames are those of the joined segments, so a segment that is
open when a connection ends goes on with the leading data bytes of the next. It takes nothing along when
every connection starts with an address byte. -/
theorem accepts_joinedFrames (host : Host) (sessions : List (List UInt8)) :
    ∃ g, startListen host sessions = .ok g ∧
      accepted g.trace = (joined sessions).dropLast.filter (·.Counts) ∧
      ((∀ bytes ∈ sessions, (cut bytes).1 = []) →
        accepted g.trace = (sessions.flatMap segments).dropLast.filter (·.Counts)) := by
  obtain ⟨g, ran, tracks⟩ := run_tracks host sessions.flatten
  have frames : accepted g.trace = (joined sessions).dropLast.filter (·.Counts) := by
    rw [tracks_accepted tracks, countingFrames, closedSegments, segments_flatten]
  exact ⟨g, by rw [startListen_flatten, ran], frames, fun addressed => by
    rw [frames, joined_eq_flatMap addressed]⟩

/-- Two connections that both start with an address byte: the second one's frame is its own. -/
theorem accepts_joinedFrames_addressed :
    (∀ bytes ∈ [[0xBE, 0x0F], [0xBE, 0x0F, 0x1F, 0x2F, 0x3F, 0x4F, 0x5F, 0xBE]], (cut bytes).1 = []) ∧
    ∃ g, startListen Host.reliable [[0xBE, 0x0F], [0xBE, 0x0F, 0x1F, 0x2F, 0x3F, 0x4F, 0x5F, 0xBE]] = .ok g ∧
      accepted g.trace = [⟨0xBE, [0x0F, 0x1F, 0x2F, 0x3F, 0x4F, 0x5F]⟩] := by
  have addressed : ∀ bytes ∈ [[0xBE, 0x0F], [0xBE, 0x0F, 0x1F, 0x2F, 0x3F, 0x4F, 0x5F, 0xBE]],
      (cut bytes).1 = [] := by decide
  obtain ⟨g, ran, _, frames⟩ := accepts_joinedFrames Host.reliable
    [[0xBE, 0x0F], [0xBE, 0x0F, 0x1F, 0x2F, 0x3F, 0x4F, 0x5F, 0xBE]]
  exact ⟨addressed, g, ran, by rw [frames addressed]; decide⟩

/-- A clock frame cut after four data bytes and finished by the bytes of the next connection is accepted
although neither connection carried it. -/
theorem frame_across_sessions :
    ∃ g f, startListen Host.reliable [[0xBE, 0x0F, 0x1F, 0x2F, 0x3F], [0x4F, 0x5F, 0xBE]] = .ok g ∧
      f ∈ accepted g.trace ∧
      ∀ session ∈ [[0xBE, 0x0F, 0x1F, 0x2F, 0x3F], [0x4F, 0x5F, 0xBE]], ¬ f.bytes <:+: session := by
  obtain ⟨g, ran, tracks⟩ := run_tracks Host.reliable [0xBE, 0x0F, 0x1F, 0x2F, 0x3F, 0x4F, 0x5F, 0xBE]
  refine ⟨g, ⟨0xBE, [0x0F, 0x1F, 0x2F, 0x3F, 0x4F, 0x5F]⟩, ?_, ?_, by decide⟩
  · rw [startListen_flatten]
    exact ran
  · rw [tracks_accepted tracks]
    decide

end SerialTiming.Laws.Framing
