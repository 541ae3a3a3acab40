/- module: SerialTiming/Laws/Delivery
   digest: Whether the bytes of the line reach the decoder and the other port, each once and in order. -/

import SerialTiming.Receiver.Read
import SerialTiming.Receiver.ReadGpio
import SerialTiming.Receiver.ReadWin

set_option autoImplicit false
set_option relaxedAutoImplicit false

namespace SerialTiming.Laws.Delivery

open CLib.Objects Decoder.State Decoder.ReadData Receiver.Buffered Receiver.Calls

section Windows

open Receiver.ReadWin

/-- Delivery on Windows. Whatever the system answers, read delivers the line exactly when no burst of ReadFile
calls comes to its end: the call that ends one stores nothing and passes the last byte on once more. -/
theorem windows_delivers (host : Host) (past : List UInt8) (forward : Bool) (readData : UInt8) (waits : List Wait)
    (results : List (Option UInt8)) :
    ∃ g r, run host past = .ok g ∧ (Reader.opened readData g).read host forward waits results = .ok r ∧
      (Delivers forward r.calls ↔ ((∃ w ∈ reached waits, w.receives = true) → none ∉ results)) := by
  obtain ⟨g, ran, tracks⟩ := run_tracks host past
  obtain ⟨r, front, result, _, missing, hears⟩ := read_hears host forward waits results
    (r := Reader.opened readData g) tracks
  refine ⟨g, r, ran, result, ?_⟩
  have got : stored r.calls = front.reduceOption := hears.stored
  have gave : passed r.calls = heard readData front := hears.passed
  have wrote : written r.calls = if forward then heard readData front else [] := hears.written
  have complete : none ∉ front ↔ ((∃ w ∈ reached waits, w.receives = true) → none ∉ results) := by
    rw [missing, not_and]
  rw [← complete, ← heard_stored readData front, Delivers, got, gave, wrote]
  constructor
  · intro delivers
    exact delivers.1
  · intro same
    refine ⟨same, ?_⟩
    intro on
    rw [if_pos on]
    exact same

/-- A burst of one byte: the decoder and the other port get it twice. -/
theorem windows_repeats_byte :
    ∃ g r, run Host.reliable [] = .ok g ∧
      (Reader.opened 0x00 g).read Host.reliable true [⟨true, evRxchar, false⟩] [some 0xBE, none] = .ok r ∧
      stored r.calls = [0xBE] ∧ passed r.calls = [0xBE, 0xBE] ∧ written r.calls = [0xBE, 0xBE] ∧
      ¬ Delivers true r.calls := by
  obtain ⟨g, ran, tracks⟩ := run_tracks Host.reliable []
  obtain ⟨r, front, result, shorter, missing, hears⟩ := read_hears Host.reliable true [⟨true, evRxchar, false⟩]
    [some 0xBE, none] (r := Reader.opened 0x00 g) tracks
  have ended : none ∈ front := missing.mpr (by decide)
  have shorter : front <+: [some 0xBE] ++ [none] := shorter
  obtain rfl : front = [some 0xBE, none] := by
    rcases List.prefix_concat_iff.mp shorter with whole | cut
    · exact whole
    · exact absurd (cut.subset ended) (by decide)
  have got : stored r.calls = [0xBE] := hears.stored
  have gave : passed r.calls = [0xBE, 0xBE] := hears.passed
  have wrote : written r.calls = [0xBE, 0xBE] := hears.written
  refine ⟨g, r, ran, result, got, gave, wrote, ?_⟩
  rintro ⟨same, _⟩
  rw [got, gave] at same
  exact absurd same (by decide)

end Windows

section Linux

open Receiver.Read

/-- The decoder gets the bytes of the line, and each write call a length of at most 32 and the bytes of the read call
before it. -/
def Relays (forward : Bool) (calls : List Call) : Prop :=
  passed calls = stored calls ∧
    (forward = true → writes calls = reads calls ∧ ∀ bytes ∈ writes calls, bytes.length ≤ 32)

theorem relays_rounds (forward : Bool) (results : List Result) :
    Relays forward (results.flatMap (roundCalls forward)) := by
  refine ⟨?_, ?_⟩
  · rw [passed_rounds, stored_reads, reads_rounds, List.flatMap]
  · intro on
    rw [writes_rounds, reads_rounds, if_pos on]
    refine ⟨rfl, ?_⟩
    intro bytes among
    obtain ⟨result, _, rfl⟩ := List.mem_map.mp among
    exact result.bytes_fit

/-- Delivery on Linux. The loop stays within its buffer, and relays what it reads, exactly when the ports do not open
or every read call succeeds and leaves a byte of the buffer free. -/
theorem linux_delivers (host : Host) (past : List UInt8) (fd fo : Int) (forward : Bool)
    (buf : Vector UInt8 bufferLength) (results : List Result) :
    ∃ g, run host past = .ok g ∧
      ((∃ r, (Reader.opened buf g).read host fd fo forward results = .ok r ∧ Relays forward r.feed.calls) ↔
        (0 ≤ fd → (forward = true → 0 ≤ fo) → ∀ result ∈ results, result.Fits)) := by
  obtain ⟨g, ran, tracks⟩ := run_tracks host past
  refine ⟨g, ran, ?_⟩
  have unopened : Relays forward (Reader.opened buf g).feed.calls := relays_rounds forward []
  unfold Reader.read
  split
  · rename_i closed
    exact ⟨fun _ isOpen => by omega, fun _ => ⟨_, rfl, unopened⟩⟩
  split
  · rename_i closed
    refine ⟨fun _ _ isOpen => ?_, fun _ => ⟨_, rfl, unopened⟩⟩
    have reached := isOpen closed.1
    have shut := closed.2
    omega
  · rename_i source destination
    constructor
    · rintro ⟨r, result, _⟩ _ _
      by_contra full
      simp only [not_forall] at full
      obtain ⟨bad, among, unfit⟩ := full
      rw [Reader.loop_outside host forward results ⟨bad, among, unfit⟩ (r := Reader.opened buf g) tracks] at result
      cases result
    · intro fits
      have all := fits (by omega) fun on => by
        by_contra shut
        exact destination ⟨on, by omega⟩
      obtain ⟨r, result, calls⟩ := Reader.loop_ok host forward results all (r := Reader.opened buf g) tracks
      have calls : r.feed.calls = results.flatMap (roundCalls forward) := calls
      refine ⟨r, result, ?_⟩
      rw [calls]
      exact relays_rounds forward results

/-- A full buffer, or a read call that fails: the terminator goes outside the buffer. -/
theorem linux_leaves_buffer :
    ∃ g, run Host.reliable [] = .ok g ∧
      ∀ result ∈ [some (Chunk.full (Vector.replicate bufferLength 0x41)), none],
        ¬ ∃ r, (Reader.opened (Vector.replicate bufferLength 0) g).read Host.reliable 3 4 false [result] = .ok r ∧
          Relays false r.feed.calls := by
  obtain ⟨g, ran, tracks⟩ := run_tracks Host.reliable []
  refine ⟨g, ran, ?_⟩
  intro result among
  rintro ⟨r, given, _⟩
  have unfit : ¬ Result.Fits result := by
    rcases List.mem_cons.mp among with rfl | among
    · decide
    · rw [List.mem_singleton.mp among]
      decide
  have leaves := Reader.loop_outside Host.reliable false [result] ⟨result, List.mem_cons_self, unfit⟩
    (r := Reader.opened (Vector.replicate bufferLength 0) g) tracks
  have given : (Reader.opened (Vector.replicate bufferLength 0) g).loop Host.reliable false [result] = .ok r := given
  rw [leaves] at given
  cases given

end Linux

section Raspberry

open Receiver.ReadGpio

/-- Delivery on a Raspberry Pi. The loop stays within its buffer, and gives the decoder what each serRead call stores
before the next one, exactly when pigpio or the port fail to start, or each serRead call it makes fails or stores all
that was available, nothing if that was negative, and that has room in the buffer. Where the number available is never
negative, it cannot make up later for a byte that it lost or invented. -/
theorem raspberry_delivers (host : Host) (past : List UInt8) (gpioInitialise serOpen : Int)
    (text : Vector UInt8 textLength) (polls : List Poll) :
    ∃ g, run host past = .ok g ∧
      ((∃ r, (Reader.opened text g).read host gpioInitialise serOpen polls = .ok r ∧ InStep r.feed.calls) ↔
        (0 ≤ gpioInitialise → 0 ≤ serOpen → ∀ p ∈ reached polls, p.Exact)) ∧
      ((∀ p ∈ polls, 0 ≤ p.available) →
        ((∃ r, (Reader.opened text g).read host gpioInitialise serOpen polls = .ok r ∧
            passed r.feed.calls = stored r.feed.calls) ↔
          (0 ≤ gpioInitialise → 0 ≤ serOpen → ∀ p ∈ reached polls, p.Exact))) := by
  obtain ⟨g, ran, tracks⟩ := run_tracks host past
  refine ⟨g, ran, ?_⟩
  have silent : InStep (Reader.opened text g).feed.calls := inStep_nil
  unfold Reader.read
  split
  · rename_i failed
    exact ⟨⟨fun _ started => by omega, fun _ => ⟨_, rfl, silent⟩⟩,
      fun _ => ⟨fun _ started => by omega, fun _ => ⟨_, rfl, rfl⟩⟩⟩
  split
  · rename_i failed
    exact ⟨⟨fun _ _ started => by omega, fun _ => ⟨_, rfl, silent⟩⟩,
      fun _ => ⟨fun _ _ started => by omega, fun _ => ⟨_, rfl, rfl⟩⟩⟩
  · rename_i started opened
    have delivers (exact_reads : ∀ p ∈ reached polls, p.Exact) :=
      loop_exact host polls exact_reads (r := Reader.opened text g) tracks silent
    refine ⟨⟨?_, fun exact_reads => delivers (exact_reads (by omega) (by omega))⟩, ?_⟩
    · rintro ⟨r, result, inStep⟩ _ _
      exact (loop_inStep host polls (r := Reader.opened text g) tracks result inStep).2
    · intro counts
      constructor
      · rintro ⟨r, result, same⟩ _ _
        apply (loop_surplus host polls counts (r := Reader.opened text g) tracks result).2
        rw [surplus, same, sub_self]
        rfl
      · intro exact_reads
        obtain ⟨r, result, inStep⟩ := delivers (exact_reads (by omega) (by omega))
        exact ⟨r, result, inStep.1⟩

def emptyRead : SerRead where
  answer _ := some []
  bounded := by
    intro count bytes answer
    obtain rfl := Option.some.inj answer
    exact Nat.zero_le count

/-- One byte is available and serRead stores none: the decoder gets a byte of the buffer that never came in. -/
theorem raspberry_invents_byte :
    ∃ g, run Host.reliable [] = .ok g ∧
      ¬ ∃ r, (Reader.opened (Vector.replicate textLength 0) g).read Host.reliable 0 0 [⟨1, emptyRead⟩] = .ok r ∧
        passed r.feed.calls = stored r.feed.calls := by
  obtain ⟨g, ran, tracks⟩ := run_tracks Host.reliable []
  refine ⟨g, ran, ?_⟩
  rintro ⟨r, result, same⟩
  have result : (Reader.opened (Vector.replicate textLength 0) g).loop Host.reliable [⟨1, emptyRead⟩] = .ok r := result
  have counts : ∀ p ∈ [(⟨1, emptyRead⟩ : Poll)], 0 ≤ p.available := by simp
  have inexact := (loop_surplus Host.reliable _ counts
    (r := Reader.opened (Vector.replicate textLength 0) g) tracks result).2
  rw [surplus, same, sub_self] at inexact
  have lengths := inexact rfl ⟨1, emptyRead⟩ List.mem_cons_self (by decide) [] rfl
  exact absurd lengths.1 (by decide)

end Raspberry

end SerialTiming.Laws.Delivery
