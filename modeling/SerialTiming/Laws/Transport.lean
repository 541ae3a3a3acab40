/- module: SerialTiming/Laws/Transport
   digest: What is sent is what is accepted, and how far bytes that are lost, added or repeated reach. -/

import SerialTiming.Laws.DigitMemory
import SerialTiming.Line.Resync
import SerialTiming.Receiver.ReadWin

set_option autoImplicit false
set_option relaxedAutoImplicit false

namespace SerialTiming.Laws.Transport

open Line.Segments Line.Transmission Line.Resync Scoreboard.Display Scoreboard.Boards Scoreboard.Answers
open Decoder.State Decoder.ReadData Framing DigitMemory

/-- The value sent last for a cell. -/
def lastSent (sent : List Frame) (c : Fin 32) (d : Fin 8) (b : Fin 2) : Option (Fin 16) :=
  (((sent.filter fun f => f.address.channel = c ∧ f.address.controlBit = b).flatMap Frame.digits).filter
    (·.number = d)).getLast?.map Digit.value

private theorem lastDigit_sent (digits : List Digit) (d : Fin 8) :
    lastDigit d.val (digits.map Digit.byte) =
      ((digits.filter (·.number = d)).getLast?.map Digit.value).map fun v => UInt8.ofNat v.val := by
  induction digits using List.reverseRecOn with
  | nil => rfl
  | append_singleton digits x ih =>
      obtain ⟨_, number, value⟩ := x.byte_reads
      have own : (digitNo x.byte).toNat = d.val ↔ x.number = d := by
        rw [number, UInt8.toNat_ofNat_of_lt' (Nat.lt_of_lt_of_le x.number.isLt (by decide)), Fin.ext_iff]
      simp only [lastDigit, List.map_append, List.map_singleton, List.filter_append] at ih ⊢
      by_cases same : x.number = d
      · simp [own.mpr same, same, value]
      · have other : ¬ (digitNo x.byte).toNat = d.val := fun told => same (own.mp told)
        simpa [other, same] using ih

private theorem lastSent_snoc (sent : List Frame) (f : Frame) (c : Fin 32) (d : Fin 8) (b : Fin 2) :
    lastSent (sent ++ [f]) c d b =
      if f.address.channel = c ∧ f.address.controlBit = b then
        ((f.digits.filter (·.number = d)).getLast?.map Digit.value).or (lastSent sent c d b)
      else lastSent sent c d b := by
  by_cases own : f.address.channel = c ∧ f.address.controlBit = b
  · simp [lastSent, own, Option.map_or]
  · simp [lastSent, own]

theorem stored_sent (sent : List Frame) (cells : Vector Row 32) (c : Fin 32) (d : Fin 8) (b : Fin 2) :
    cell ((sent.map Frame.segment).foldl storeFrame cells) c d b =
      ((lastSent sent c d b).map fun v => UInt8.ofNat v.val).getD (cell cells c d b) := by
  induction sent using List.reverseRecOn with
  | nil => rfl
  | append_singleton sent f ih =>
      obtain ⟨_, channel, bit⟩ := f.address.byte_reads
      have own : (f.segment.channel.toNat = c.val ∧ f.segment.controlBit.toNat = b.val) ↔
          (f.address.channel = c ∧ f.address.controlBit = b) := by
        have channels : f.segment.channel = UInt8.ofNat f.address.channel.val := channel
        have bits : f.segment.controlBit = UInt8.ofNat f.address.controlBit.val := bit
        rw [channels, bits, UInt8.toNat_ofNat_of_lt' (Nat.lt_of_lt_of_le f.address.channel.isLt (by decide)),
          UInt8.toNat_ofNat_of_lt' (Nat.lt_of_lt_of_le f.address.controlBit.isLt (by decide)), Fin.ext_iff, Fin.ext_iff]
      have digits : lastDigit d.val f.segment.data = _ := lastDigit_sent f.digits d
      rw [List.map_append, List.map_singleton, List.foldl_append, List.foldl_cons, List.foldl_nil, storeFrame_cell,
        lastSent_snoc, ih, digits]
      by_cases here : f.address.channel = c ∧ f.address.controlBit = b
      · rw [if_pos (own.mpr here), if_pos here]
        cases (f.digits.filter (·.number = d)).getLast? <;> simp
      · rw [if_neg fun both => here (own.mp both), if_neg here]

private theorem after_cells (before frames : List Segment) :
    (after (before ++ frames)).1.cells = frames.foldl storeFrame (after before).1.cells := by
  induction frames using List.reverseRecOn with
  | nil => simp
  | append_singleton frames f ih =>
      rw [← List.append_assoc, after_snoc, frame_cells, ih, List.foldl_append]
      rfl

theorem line_round_trip (host : Host) (past : List UInt8) (sent : List Frame) (next : Address) :
    ∃ g h, run host past = .ok g ∧ run host (past ++ (sent.flatMap Frame.bytes ++ [next.byte])) = .ok h ∧
      (∃ frames : List Frame, accepted g.trace = frames.map Frame.segment ∧ Carries frames past) ∧
      ∃ opened, accepted h.trace = accepted g.trace ++ opened ++ sent.map Frame.segment ∧ opened.length ≤ 1 ∧
        ∀ c d b v, lastSent sent c d b = some v → cell h.coloradoData c d b = UInt8.ofNat v.val := by
  obtain ⟨g, ran, tracks⟩ := run_tracks host past
  obtain ⟨h, ran', tracks'⟩ := run_tracks host (past ++ (sent.flatMap Frame.bytes ++ [next.byte]))
  have closes := cut_address next.byte_reads.1
  have addressed : (cut [next.byte]).1 = [] := congrArg Prod.fst closes
  have only : segments [next.byte] = [⟨next.byte, []⟩] := congrArg Prod.snd closes
  have some : segments [next.byte] ≠ [] := by simp [only]
  have last : countingFrames [next.byte] = [] := by simp [countingFrames, closedSegments, only]
  have leads : (cut (sent.flatMap Frame.bytes ++ [next.byte])).1 = [] := by rw [cut_frames sent addressed]
  have taken : segments (sent.flatMap Frame.bytes ++ [next.byte]) ≠ [] := by
    rw [segments, cut_frames sent addressed]
    exact List.append_ne_nil_of_right_ne_nil _ some
  have frames : countingFrames (past ++ (sent.flatMap Frame.bytes ++ [next.byte])) =
      countingFrames past ++ closing (pendingSegment past) [] ++ sent.map Frame.segment := by
    rw [countingFrames_append, completed, if_neg taken, leads, countingFrames_sent sent addressed some, last,
      List.append_nil, List.append_assoc]
  refine ⟨g, h, ran, ran', ?_, closing (pendingSegment past) [], ?_, ?_, ?_⟩
  · rw [tracks_accepted tracks]
    exact countingFrames_carried past
  · rw [tracks_accepted tracks', tracks_accepted tracks, frames]
  · exact (closing_length _ _).trans Option.length_toList_le
  · intro c d b v value
    rw [tracks'.shows.cells, frames, after_cells, stored_sent, value]
    rfl

theorem damage_confined (host host' : Host) (front mid mid' : List UInt8) (next : Address) (later : List UInt8) :
    ∃ g g' before hit hit' rest, run host (front ++ mid ++ next.byte :: later) = .ok g ∧
      run host' (front ++ mid' ++ next.byte :: later) = .ok g' ∧
      accepted g.trace = before ++ hit ++ rest ∧ accepted g'.trace = before ++ hit' ++ rest ∧
      hit.length ≤ mid.countP isAddress + 1 ∧ hit'.length ≤ mid'.countP isAddress + 1 := by
  obtain ⟨g, ran, tracks⟩ := run_tracks host (front ++ mid ++ next.byte :: later)
  obtain ⟨g', ran', tracks'⟩ := run_tracks host' (front ++ mid' ++ next.byte :: later)
  have addressed : (cut (next.byte :: later)).1 = [] := by simp [cut, next.byte_reads.1]
  obtain ⟨hit, frames, few⟩ := stretch_confined front mid addressed
  obtain ⟨hit', frames', few'⟩ := stretch_confined front mid' addressed
  exact ⟨g, g', countingFrames front, hit, hit', countingFrames (next.byte :: later), ran, ran',
    by rw [tracks_accepted tracks, frames], by rw [tracks_accepted tracks', frames'], few, few'⟩

private theorem sameLine_trace {xs ys : List UInt8} (same : SameLine xs ys) {g g' : Globals} (tracks : Tracks xs g)
    (tracks' : Tracks ys g') : g.trace = g'.trace := by
  rw [tracks.trace, tracks'.trace, same.frames]

theorem addresses_harmless (host host' : Host) (front : List UInt8) (extra : List Address) (next : Address)
    (later : List UInt8) :
    ∃ g g', run host (front ++ extra.map Address.byte ++ next.byte :: later) = .ok g ∧
      run host' (front ++ next.byte :: later) = .ok g' ∧ g.trace = g'.trace := by
  obtain ⟨g, ran, tracks⟩ := run_tracks host (front ++ extra.map Address.byte ++ next.byte :: later)
  obtain ⟨g', ran', tracks'⟩ := run_tracks host' (front ++ next.byte :: later)
  have addresses : ∀ b ∈ extra.map Address.byte, isAddress b = true := by
    intro b member
    obtain ⟨a, _, rfl⟩ := List.mem_map.mp member
    exact a.byte_reads.1
  have same := (sameLine_addresses front addresses next.byte_reads.1).append later
  simp only [List.append_assoc, List.singleton_append] at same
  refine ⟨g, g', ran, ran', ?_⟩
  simp only [List.append_assoc] at tracks
  exact sameLine_trace same tracks tracks'

section Windows

open Receiver.Calls Receiver.ReadWin

/-- The bursts of ReadFile calls end behind an address byte. -/
def EndsAddressed (results : List (Option UInt8)) : Prop :=
  ∀ pre post, results = pre ++ none :: post → ∃ a ∈ pre.reduceOption.getLast?, isAddress a = true

private theorem held_last (readData : UInt8) (results : List (Option UInt8)) :
    held readData results = results.reduceOption.getLast?.getD readData := by
  induction results using List.reverseRecOn with
  | nil => rfl
  | append_singleton results result ih =>
      rw [held, List.foldl_append, List.foldl_cons, List.foldl_nil, ← held, ih, List.reduceOption_append]
      cases result <;> simp

/-- What is heard twice behind an address byte does nothing. -/
private theorem heard_sameLine (past : List UInt8) (readData : UInt8) {results : List (Option UInt8)}
    (ends : EndsAddressed results) :
    SameLine (past ++ heard readData results) (past ++ results.reduceOption) := by
  induction results using List.reverseRecOn with
  | nil => exact SameLine.refl _
  | append_singleton results result ih =>
      have earlier : EndsAddressed results := by
        rintro pre post rfl
        exact ends pre (post ++ [result]) (by simp)
      have same := ih earlier
      rw [heard_append, List.reduceOption_append, ← List.append_assoc, ← List.append_assoc]
      cases result with
      | some b => exact same.append [b]
      | none =>
          obtain ⟨a, last, address⟩ := ends results [] rfl
          have last : results.reduceOption.getLast? = some a := last
          have again : heard (held readData results) [none] = [a] := by
            rw [held_last, last]
            rfl
          have opened : pendingSegment (past ++ results.reduceOption) = some ⟨a, []⟩ := by
            obtain ⟨front, split⟩ := List.getLast?_eq_some_iff.mp last
            rw [split, ← List.append_assoc]
            exact pendingSegment_address _ address
          rw [again]
          refine SameLine.trans (sameLine_again address (same.pending.trans opened)) ?_
          simpa using same

theorem windows_address_bursts (host host' : Host) (past : List UInt8) (forward : Bool) (readData : UInt8)
    (waits : List Wait) (results : List (Option UInt8)) :
    ∃ g r h, run host past = .ok g ∧ (Reader.opened readData g).read host forward waits results = .ok r ∧
      run host' (past ++ stored r.calls) = .ok h ∧ (EndsAddressed results → r.globals.trace = h.trace) := by
  obtain ⟨g, ran, tracks⟩ := run_tracks host past
  obtain ⟨r, front, result, shorter, _, hears⟩ := read_hears host forward waits results
    (r := Reader.opened readData g) tracks
  obtain ⟨h, ran', tracks'⟩ := run_tracks host' (past ++ stored r.calls)
  refine ⟨g, r, h, ran, result, ran', ?_⟩
  intro ends
  have got : stored r.calls = front.reduceOption := hears.stored
  have within : EndsAddressed front := by
    obtain ⟨more, rfl⟩ := shorter
    rintro pre post rfl
    exact ends pre (post ++ more) (by simp)
  rw [got] at tracks'
  exact sameLine_trace (heard_sameLine past readData within) hears.tracks tracks'

private theorem endsAddressed_burst (front : List UInt8) {a : UInt8} (address : isAddress a = true) :
    EndsAddressed ((front ++ [a]).map some ++ [none]) := by
  intro pre post split
  have whole : pre = (front ++ [a]).map some := by
    rcases List.append_eq_append_iff.mp split with ⟨more, rfl, rest⟩ | ⟨more, burst, rest⟩
    · cases more with
      | nil => exact List.append_nil _
      | cons result more => simp at rest
    · cases more with
      | nil => simpa using burst.symm
      | cons result more =>
          simp only [List.cons_append, List.cons.injEq] at rest
          have among : none ∈ (front ++ [a]).map some := by
            rw [burst, ← rest.1]
            simp
          simp at among
  refine ⟨a, ?_, address⟩
  rw [whole]
  simp [List.reduceOption]

def headerBytes : List UInt8 := [0xA6, 0x0F, 0x1F, 0x2E, 0x3F, 0x4F, 0x5F, 0x6F, 0x7D]

def headerBurst : List (Option UInt8) := (headerBytes ++ [0x80]).map some ++ [none]

theorem windows_address_bursts_header : EndsAddressed headerBurst ∧
    ∃ g r h, run Host.reliable [] = .ok g ∧
      (Reader.opened 0x00 g).read Host.reliable false [⟨true, evRxchar, false⟩] headerBurst = .ok r ∧
      run Host.reliable ([] ++ stored r.calls) = .ok h ∧ r.globals.trace = h.trace := by
  have ends : EndsAddressed headerBurst := endsAddressed_burst headerBytes (by decide)
  obtain ⟨g, r, h, ran, result, ran', harmless⟩ := windows_address_bursts Host.reliable Host.reliable [] false 0x00
    [⟨true, evRxchar, false⟩] headerBurst
  exact ⟨ends, g, r, h, ran, result, ran', harmless ends⟩

end Windows

end SerialTiming.Laws.Transport
