/- module: SerialTiming/Laws/Restart
   digest: A decoder that joins late, or comes out of a disturbance, soon reports what every other one does. -/

import SerialTiming.Laws.Refresh
import SerialTiming.Line.Transmission

set_option autoImplicit false
set_option relaxedAutoImplicit false

namespace SerialTiming.Laws.Restart

open CLib.Strings Line.Segments Line.Transmission Scoreboard.Display Scoreboard.Clocks Scoreboard.Boards
open Scoreboard.Answers Decoder.State Decoder.ReadData Framing LaneUpdates SendGate Cadence Masking Refresh Machines Machines.Convergence

def since (g h : Globals) : List Event := h.trace.drop g.trace.length

/-- Two decoders get the same bytes and, as far as it is seen, do the same with them. -/
structure Concur (seen : Event → Bool) (bytes : List UInt8) (host host' : Host) (g g' h h' : Globals) : Prop where
  first : receive host bytes g = .ok h ∧ g.trace <+: h.trace
  second : receive host' bytes g' = .ok h' ∧ g'.trace <+: h'.trace
  same : (since g h).filter seen = (since g' h').filter seen

/-- Two decoders behind the same open segment with related boards. -/
structure Shared (related : Board → Board → Prop) (past past' : List UInt8) (g g' : Globals) : Prop where
  tracks : Tracks past g
  tracks' : Tracks past' g'
  pending : pendingSegment past = pendingSegment past'
  boards : related (after (countingFrames past)).1 (after (countingFrames past')).1

theorem goes_on (host : Host) {past : List UInt8} {g : Globals} (tracks : Tracks past g) (bytes : List UInt8) :
    ∃ h, receive host bytes g = .ok h ∧ Tracks (past ++ bytes) h ∧ g.trace <+: h.trace ∧
      since g h = (Transducer.run Board.frame (after (countingFrames past)).1
        (completed (pendingSegment past) bytes)).2 ∧
      (after (countingFrames (past ++ bytes))).1 = (Transducer.run Board.frame (after (countingFrames past)).1
        (completed (pendingSegment past) bytes)).1 := by
  obtain ⟨h, frames, received, tracks', more, trace⟩ := receive_extends host tracks bytes
  have own : frames = completed (pendingSegment past) bytes :=
    List.append_cancel_left (more.symm.trans (countingFrames_append past bytes))
  subst own
  refine ⟨h, received, tracks', ⟨_, trace.symm⟩, ?_, ?_⟩
  · rw [since, trace, List.drop_left]
  · rw [more, after, Transducer.run_append]
    rfl

/-- Decoders whose boards go in lock step do so on all further bytes. Where a marked event makes boards alike in
a finer way, the decoders' boards are so once they told one. -/
theorem Shared.receives {related : Board → Board → Prop} {past past' : List UInt8} {g g' : Globals}
    (shared : Shared related past past' g g') (finer : Board → Board → Prop) (marks : Event → Bool)
    {seen : Event → Bool} (lockstep : Lockstep Board.frame related Eq seen)
    (joins : ∀ {b b'}, related b b' → ∀ {frames}, (∃ e ∈ (Transducer.run Board.frame b frames).2, marks e = true) →
      finer (Transducer.run Board.frame b frames).1 (Transducer.run Board.frame b' frames).1)
    (host host' : Host) (bytes : List UInt8) :
    ∃ h h', Concur seen bytes host host' g g' h h' ∧
      ((∃ e ∈ since g h, marks e = true) → Shared finer (past ++ bytes) (past' ++ bytes) h h') := by
  obtain ⟨h, received, tracks, grown, did, board⟩ := goes_on host shared.tracks bytes
  obtain ⟨h', received', tracks', grown', did', board'⟩ := goes_on host' shared.tracks' bytes
  rw [← shared.pending] at did' board'
  refine ⟨h, h', ⟨⟨received, grown⟩, ⟨received', grown'⟩, ?_⟩, ?_⟩
  · rw [did, did']
    exact lockstep.run_same shared.boards (matching_self _)
  · intro told
    rw [did] at told
    refine ⟨tracks, tracks', ?_, ?_⟩
    · rw [pendingSegment_append, pendingSegment_append, shared.pending]
    · rw [board, board']
      exact joins shared.boards told

private theorem refreshing_addressed {w : List UInt8} (refreshing : Refreshing (countingFrames w)) :
    segments w ≠ [] := by
  intro none
  obtain ⟨f, member, -⟩ := refreshing.header
  simp [countingFrames, closedSegments, none] at member

/-- A window of bytes with refreshing frames leaves any two decoders synced. -/
theorem window_synced (host host' : Host) (past past' : List UInt8) {w : List UInt8}
    (refreshing : Refreshing (countingFrames w)) :
    ∃ g g', run host (past ++ w) = .ok g ∧ run host' (past' ++ w) = .ok g' ∧
      Shared Synced (past ++ w) (past' ++ w) g g' := by
  obtain ⟨g, ran, tracks⟩ := run_tracks host (past ++ w)
  obtain ⟨g', ran', tracks'⟩ := run_tracks host' (past' ++ w)
  have addressed := refreshing_addressed refreshing
  have window (past : List UInt8) : ∃ c, (after (countingFrames (past ++ w))).1 =
      (Transducer.run Board.frame c (countingFrames w)).1 := by
    rw [countingFrames_append, completed, if_neg addressed, ← List.append_assoc, after, Transducer.run_append]
    exact ⟨_, rfl⟩
  refine ⟨g, g', ran, ran', tracks, tracks', ?_, ?_⟩
  · rw [pendingSegment_append, pendingSegment_append, if_neg addressed, if_neg addressed]
  · obtain ⟨b, board⟩ := window past
    obtain ⟨b', board'⟩ := window past'
    rw [board, board']
    exact refreshing.synced b b'

theorem restarts_agree (host host' : Host) (past past' w : List UInt8) (refreshing : Refreshing (countingFrames w)) :
    ∃ g g', run host (past ++ w) = .ok g ∧ run host' (past' ++ w) = .ok g' ∧
      ∀ bytes, ∃ h h', Concur announced bytes host host' g g' h h' ∧
        ((∃ e ∈ since g h, clears e = true) → ∀ more, ∃ k k', Concur ungated more host host' h h' k k') := by
  obtain ⟨g, g', ran, ran', shared⟩ := window_synced host host' past past' refreshing
  refine ⟨g, g', ran, ran', ?_⟩
  intro bytes
  obtain ⟨h, h', concur, later⟩ := shared.receives SameLanes clears synced_announces Synced.joins host host' bytes
  refine ⟨h, h', concur, ?_⟩
  intro told more
  obtain ⟨k, k', concur', _⟩ := (later told).receives SameLanes clears lanes_announce
    (fun same _ told => same.1.joins told) host host' more
  exact ⟨k, k', concur'⟩

private theorem even_complete (channel : Fin 32) (value : Fin 16)
    (eight : (coloradoChannelLength.get channel).toNat = 9) :
    ((List.finRange 8).map fun number => Digit.mk number value).length + 1 =
      (coloradoChannelLength.get channel).toNat := by
  rw [List.length_map, List.length_finRange, eight]

def evenFrame (channel : Fin 32) (value : Fin 16) (eight : (coloradoChannelLength.get channel).toNat = 9) : Frame :=
  ⟨⟨channel, 0, 0⟩, (List.finRange 8).map fun number => ⟨number, value⟩,
    even_complete channel value eight⟩

def zeroClock : Frame :=
  ⟨⟨0, 0, 0⟩, [⟨2, 0⟩, ⟨3, 0⟩, ⟨4, 0⟩, ⟨5, 0⟩, ⟨6, 0⟩, ⟨7, 0⟩], rfl⟩

/-- Blank lanes, a header of ones, zero rounds and the standing clock. -/
def lineUp : List Frame :=
  [evenFrame 1 15 rfl, evenFrame 2 15 rfl, evenFrame 3 15 rfl, evenFrame 4 15 rfl, evenFrame 5 15 rfl,
    evenFrame 6 15 rfl, evenFrame 7 15 rfl, evenFrame 8 15 rfl, evenFrame 9 15 rfl, evenFrame 10 15 rfl,
    evenFrame 12 1 rfl, evenFrame 18 0 rfl] ++ List.replicate 6 zeroClock

def lineUpBytes : List UInt8 := lineUp.flatMap Frame.bytes ++ [0xBE]

theorem lineUp_refreshing : Refreshing (countingFrames lineUpBytes) := by
  have frames : countingFrames lineUpBytes = lineUp.map Frame.segment := by decide +kernel
  rw [frames]
  refine ⟨by decide +kernel, ?_, ?_, ?_⟩
  · refine ⟨(evenFrame 12 1 rfl).segment, by decide +kernel, by decide +kernel, by decide +kernel, 0, by decide, ?_⟩
    exact ⟨1, by decide +kernel, by decide⟩
  · exact ⟨(evenFrame 18 0 rfl).segment, by decide +kernel, by decide +kernel, by decide +kernel, by decide +kernel⟩
  · refine ⟨(lineUp.take 12).map Frame.segment, List.replicate 6 zeroClock.segment, [],
      by decide +kernel, by decide +kernel, ?_⟩
    intro f member _
    rw [List.eq_of_mem_replicate member]
    exact ⟨by decide +kernel, by decide +kernel, by decide +kernel⟩

theorem restarts_agree_lineUp :
    Refreshing (countingFrames lineUpBytes) ∧
    ∃ g g', run Host.reliable ([] ++ lineUpBytes) = .ok g ∧ run Host.reliable ([0xBC, 0x0E] ++ lineUpBytes) = .ok g' ∧
      ∀ bytes, ∃ h h', Concur announced bytes Host.reliable Host.reliable g g' h h' ∧
        ((∃ e ∈ since g h, clears e = true) →
          ∀ more, ∃ k k', Concur ungated more Host.reliable Host.reliable h h' k k') :=
  ⟨lineUp_refreshing, restarts_agree Host.reliable Host.reliable [] [0xBC, 0x0E] lineUpBytes lineUp_refreshing⟩

private theorem window_clocks {past w : List UInt8} (refreshing : Refreshing (countingFrames w)) {g : Globals}
    (tracks : Tracks (past ++ w) g) : 0 < clockFrames g.trace := by
  obtain ⟨before, still, later, frames, enough, -⟩ := refreshing.clock
  have addressed := refreshing_addressed refreshing
  rw [clockFrames, tracks_accepted tracks, countingFrames_append, completed, if_neg addressed, frames]
  simp only [List.countP_append]
  omega

theorem restarts_in_phase (host host' : Host) (past past' w : List UInt8)
    (refreshing : Refreshing (countingFrames w)) :
    ∃ g g', run host (past ++ w) = .ok g ∧ run host' (past' ++ w) = .ok g' ∧
      (clockFrames g.trace % 21 = clockFrames g'.trace % 21 →
        ∀ bytes, ∃ h h', Concur noLaneMessage bytes host host' g g' h h' ∧
          ((∃ e ∈ since g h, (sends e == some .header) = true) →
            ∀ more, ∃ k k', Concur isReport more host host' h h' k k')) := by
  obtain ⟨g, g', ran, ran', shared⟩ := window_synced host host' past past' refreshing
  refine ⟨g, g', ran, ran', ?_⟩
  intro counts bytes
  have phased : InPhase (after (countingFrames (past ++ w))).1 (after (countingFrames (past' ++ w))).1 := by
    refine ⟨shared.boards, ?_⟩
    rw [tracks_phase shared.tracks, tracks_phase shared.tracks',
      phase_eq (window_clocks refreshing shared.tracks) (window_clocks refreshing shared.tracks'), counts]
  obtain ⟨h, h', concur, later⟩ := Shared.receives ⟨shared.tracks, shared.tracks', shared.pending, phased⟩ Masked
    (sends · == some .header) phased_announces InPhase.joins host host' bytes
  refine ⟨h, h', concur, ?_⟩
  intro told more
  obtain ⟨k, k', concur', _⟩ := (later told).receives (fun _ _ => True) (fun _ => false) masked_reports
    (fun _ _ _ => trivial) host host' more
  exact ⟨k, k', concur'⟩

private theorem lineUp_clocks {past : List UInt8} {g : Globals} (ran : run Host.reliable (past ++ lineUpBytes) = .ok g)
    (six : (countingFrames (past ++ lineUpBytes)).countP (·.channel = 0x00) = 6) : clockFrames g.trace = 6 := by
  obtain ⟨g', ran', tracks⟩ := run_tracks Host.reliable (past ++ lineUpBytes)
  obtain rfl : g' = g := Except.ok.inj (ran'.symm.trans ran)
  rw [clockFrames, tracks_accepted tracks]
  exact six

theorem restarts_in_phase_lineUp :
    ∃ g g', run Host.reliable ([] ++ lineUpBytes) = .ok g ∧ run Host.reliable ([0xBC, 0x0E] ++ lineUpBytes) = .ok g' ∧
      clockFrames g.trace = 6 ∧ clockFrames g'.trace = 6 ∧
      ∀ bytes, ∃ h h', Concur noLaneMessage bytes Host.reliable Host.reliable g g' h h' ∧
        ((∃ e ∈ since g h, (sends e == some .header) = true) →
          ∀ more, ∃ k k', Concur isReport more Host.reliable Host.reliable h h' k k') := by
  obtain ⟨g, g', ran, ran', phased⟩ :=
    restarts_in_phase Host.reliable Host.reliable [] [0xBC, 0x0E] lineUpBytes lineUp_refreshing
  have clocks : clockFrames g.trace = 6 := lineUp_clocks ran (by decide +kernel)
  have clocks' : clockFrames g'.trace = 6 := lineUp_clocks ran' (by decide +kernel)
  exact ⟨g, g', ran, ran', clocks, clocks', phased (by rw [clocks, clocks'])⟩

end SerialTiming.Laws.Restart
