/- module: SerialTiming/Laws/Repeater
   digest: Whether the second device, the decoder and the log get what the first device delivers. -/

import SerialTiming.Receiver.ReadFTDI

set_option autoImplicit false
set_option relaxedAutoImplicit false

namespace SerialTiming.Laws.Repeater

open CLib.Objects Decoder.State Decoder.ReadData Receiver.Calls Receiver.Buffered Receiver.ReadFTDI

/-- The second device and the decoder get the bytes of the first one, and the log spells them if there is one. -/
def Transparent (outputdata : Bool) (calls : List FtCall) : Prop :=
  Delivers true (calls.filterMap FtCall.line) ∧
    (outputdata = true → logged calls = (stored (calls.filterMap FtCall.line)).flatMap hex)

/-- FT_Read filled the buffer, and the FT_Write call behind it did not fail. -/
def Full (r : Round) : Prop := r.bytes.length = bufSize ∧ r.ftWrite = true

variable {numFtdisvs : Nat} {outputdata : Bool} {r : Round} {buffer : List UInt8}

theorem line_round (second : 1 < numFtdisvs) (reads : ¬ r.ftRead = none) (buffer : List UInt8) :
    (roundCalls numFtdisvs outputdata r buffer).filterMap FtCall.line =
      [.read r.bytes, .write buffer] ++ if r.ftWrite = true then r.bytes.map .putReadData else [] := by
  have sends : sendmode numFtdisvs = true := decide_eq_true second
  have succeeds : r.Succeeds numFtdisvs ↔ r.ftWrite = true := ⟨fun s => s.2 second, fun w => ⟨reads, fun _ => w⟩⟩
  have silent : ∀ text, FtCall.line (.fprintf text) = none := fun _ => rfl
  have gives : ∀ byte, FtCall.line (.putReadData byte) = some (.putReadData byte) := fun _ => rfl
  rw [roundCalls_view, if_neg reads, if_pos sends]
  simp only [succeeds, silent, gives, filterMap_blind, ite_self, List.filterMap_eq_map', List.nil_append]
  exact (List.append_assoc _ _ _).symm

theorem logged_round (reads : ¬ r.ftRead = none) (buffer : List UInt8) :
    logged (roundCalls numFtdisvs outputdata r buffer) = if outputdata then r.bytes.flatMap hex else [] := by
  have spelled : r.bytes.filterMap (fun byte => FtCall.text (.fprintf (hex byte))) = r.bytes.map hex :=
    congrFun List.filterMap_eq_map' r.bytes
  have silent : ∀ byte, FtCall.text (.putReadData byte) = none := fun _ => rfl
  have read : (FtCall.text (.ftRead 0 r.bytes)).toList = [] := rfl
  have write : (FtCall.text (.ftWrite 1 buffer)).toList = [] := rfl
  rw [logged, roundCalls_view, if_neg reads, spelled]
  simp only [silent, read, write, filterMap_blind, ite_self, List.nil_append, List.append_nil]
  split
  · exact (List.flatMap_def).symm
  · rfl

/-- How the three outputs of a loop compare with what it read, as long as FT_Read succeeds. -/
structure Compared (outputdata : Bool) (rounds : List Round) (calls : List FtCall) : Prop where
  written_more : (stored (calls.filterMap FtCall.line)).length ≤ (written (calls.filterMap FtCall.line)).length
  passed_less : (passed (calls.filterMap FtCall.line)).length ≤ (stored (calls.filterMap FtCall.line)).length
  full_of_equal : (written (calls.filterMap FtCall.line)).length = (stored (calls.filterMap FtCall.line)).length →
    (passed (calls.filterMap FtCall.line)).length = (stored (calls.filterMap FtCall.line)).length →
    ∀ r ∈ rounds, Full r
  same_of_full : (∀ r ∈ rounds, Full r) → Delivers true (calls.filterMap FtCall.line)
  spelled : logged calls = if outputdata then (stored (calls.filterMap FtCall.line)).flatMap hex else []

theorem round_bytes (outputdata : Bool) (second : 1 < numFtdisvs) (reads : ¬ r.ftRead = none) (buffer : List UInt8) :
    stored ((roundCalls numFtdisvs outputdata r buffer).filterMap FtCall.line) = r.bytes ∧
    written ((roundCalls numFtdisvs outputdata r buffer).filterMap FtCall.line) = buffer ∧
    passed ((roundCalls numFtdisvs outputdata r buffer).filterMap FtCall.line) =
      if r.ftWrite = true then r.bytes else [] := by
  have one : stored [.read r.bytes, .write buffer] = r.bytes ∧ written [.read r.bytes, .write buffer] = buffer ∧
      passed [.read r.bytes, .write buffer] = [] := by simp [stored, written, passed]
  rw [line_round second reads, stored_append, written_append, passed_append, one.1, one.2.1, one.2.2]
  split
  · rw [stored_reads, written_writes, reads_map, writes_map, passed_map]
    simp
  · simp [stored, written, passed]

/-- Induction on the rounds of the loop: a short read makes the second device get more than was read, and a failed
FT_Write keeps the decoder from getting a full one. -/
theorem loop_compared (second : 1 < numFtdisvs) {rounds : List Round} {calls : List FtCall} {returned : Option Nat}
    (loops : LoopCalls numFtdisvs outputdata rounds calls returned) (reads : ∀ r ∈ rounds, ¬ r.ftRead = none) :
    Compared outputdata rounds calls := by
  induction loops with
  | waits =>
      refine ⟨le_refl _, le_refl _, fun _ _ r among => ?_, fun _ => ⟨rfl, fun _ => rfl⟩, ?_⟩
      · cases among
      · split <;> rfl
  | @returns r rounds buffer fails fills =>
      have here : ¬ r.ftRead = none := reads r List.mem_cons_self
      obtain ⟨got, wrote, gave⟩ := round_bytes outputdata second here buffer
      have unwritten : ¬ r.ftWrite = true := fun w => fails ⟨here, fun _ => w⟩
      rw [if_neg unwritten] at gave
      refine ⟨?_, ?_, ?_, ?_, ?_⟩
      · rw [got, wrote]
        exact fills.length_le
      · rw [gave]
        exact Nat.zero_le _
      · intro equal passes
        rw [got, wrote, fills.length] at equal
        rw [got, gave, ← equal] at passes
        exact absurd passes (by decide)
      · intro full
        exact absurd (full r List.mem_cons_self).2 unwritten
      · rw [got, logged_round here]
  | @round r rounds buffer calls returned succeeds fills rest ih =>
      have here : ¬ r.ftRead = none := succeeds.1
      have later := ih fun other among => reads other (List.mem_cons_of_mem _ among)
      obtain ⟨got, wrote, gave⟩ := round_bytes outputdata second here buffer
      have done : r.ftWrite = true := succeeds.2 second
      rw [if_pos done] at gave
      have longer := fills.length_le
      have more := later.written_more
      have less := later.passed_less
      refine ⟨?_, ?_, ?_, ?_, ?_⟩
      · rw [List.filterMap_append, stored_append, written_append, got, wrote, List.length_append, List.length_append]
        omega
      · rw [List.filterMap_append, stored_append, passed_append, got, gave, List.length_append, List.length_append]
        omega
      · intro equal passes
        rw [List.filterMap_append, stored_append, written_append, got, wrote, List.length_append,
          List.length_append] at equal
        rw [List.filterMap_append, stored_append, passed_append, got, gave, List.length_append,
          List.length_append] at passes
        have size := fills.length
        have others := later.full_of_equal (by omega) (by omega)
        intro other among
        rcases List.mem_cons.mp among with rfl | among
        · exact ⟨by omega, done⟩
        · exact others other among
      · intro full
        have own := full r List.mem_cons_self
        have others := later.same_of_full fun other among => full other (List.mem_cons_of_mem _ among)
        have whole := fills.whole own.1
        rw [Delivers, List.filterMap_append, passed_append, stored_append, written_append, got, wrote, gave, whole]
        exact ⟨by rw [others.1], fun _ => by rw [others.2 rfl]⟩
      · rw [logged_append, logged_round here, later.spelled, List.filterMap_append, stored_append, got,
          List.flatMap_append]
        cases outputdata <;> rfl

theorem opened_quiet {openings : Nat → Opening} {opened : List FtCall} (opens : OpenCalls numFtdisvs openings opened) :
    opened.filterMap FtCall.line = [] ∧ logged opened = [] := by
  have line := opens _ FtCall.line fun _ _ => rfl
  have text := opens _ FtCall.text fun _ _ => rfl
  refine ⟨line.trans (filterMap_blind _), ?_⟩
  rw [logged, text]
  exact congrArg List.flatten (filterMap_blind _)

theorem transparent_iff (second : 1 < numFtdisvs) {openings : Nat → Opening} {rounds : List Round}
    {opened calls more : List FtCall} {returned : Option Nat} (opens : OpenCalls numFtdisvs openings opened)
    (loops : LoopCalls numFtdisvs outputdata rounds calls returned) (reads : ∀ r ∈ rounds, ¬ r.ftRead = none)
    (noLine : more.filterMap FtCall.line = []) (noText : logged more = []) :
    Transparent outputdata (opened ++ calls ++ more) ↔ ∀ r ∈ rounds, Full r := by
  have compared := loop_compared second loops reads
  have line : (opened ++ calls ++ more).filterMap FtCall.line = calls.filterMap FtCall.line := by
    rw [List.filterMap_append, List.filterMap_append, (opened_quiet opens).1, noLine, List.nil_append, List.append_nil]
  have text : logged (opened ++ calls ++ more) = logged calls := by
    rw [logged_append, logged_append, (opened_quiet opens).2, noText, List.nil_append, List.append_nil]
  rw [Transparent, line, text]
  constructor
  · intro transparent
    apply compared.full_of_equal
    · rw [transparent.1.2 rfl]
    · rw [transparent.1.1]
  · intro full
    refine ⟨compared.same_of_full full, ?_⟩
    intro asked
    rw [compared.spelled, if_pos asked]

/-- Transparency. With two or more devices, and as long as FT_Read succeeds, the three outputs are what the first
device delivers exactly if each FT_Read call fills the buffer and no FT_Write call fails. -/
theorem ftdi_transparent (host : Host) (past : List UInt8) (others : Nat) (openings : Nat → Opening)
    (privileged outputdata : Bool) (running : Running) (pcBufRead : Vector UInt8 bufSize) :
    ∃ g s returned, run host past = .ok g ∧
      (Ftdi.started pcBufRead g).readftdi host (others + 2) openings privileged outputdata running =
        .ok (s, returned) ∧
      ((∀ r ∈ running.rounds, ¬ r.ftRead = none) →
        (Transparent outputdata s.feed.calls ↔ (privileged = true → ∀ r ∈ running.rounds, Full r))) := by
  have second : 1 < others + 2 := by omega
  obtain ⟨g, ran, tracks⟩ := run_tracks host past
  obtain ⟨s, opened, calls, returned, result, made, opens, loops⟩ := Ftdi.readftdi_loops host (Nat.zero_lt_of_lt second)
    openings privileged outputdata running (s := Ftdi.started pcBufRead g) tracks
  have made : s.feed.calls = opened ++ calls := made
  -- without root privileges the loop has no rounds
  have granted : ∀ p : Round → Prop, (∀ r ∈ (running.granted privileged).rounds, p r) ↔
      (privileged = true → ∀ r ∈ running.rounds, p r) := by
    intro p
    cases privileged <;> simp [Running.granted]
  rw [← granted]
  by_cases ends : returned = none ∧ (running.granted privileged).stops = true
  · rw [if_pos ends, Ftdi.finish_ok second] at result
    refine ⟨g, _, _, ran, result, ?_⟩
    intro reads
    show Transparent outputdata (s.feed.calls ++ [.ftClose 0, .ftClose 1]) ↔ _
    rw [made]
    exact transparent_iff second opens loops ((granted _).mpr fun _ => reads) rfl rfl
  · rw [if_neg ends] at result
    refine ⟨g, s, returned, ran, result, ?_⟩
    intro reads
    rw [made, ← List.append_nil (opened ++ calls)]
    exact transparent_iff second opens loops ((granted _).mpr fun _ => reads) rfl rfl

/-- An FT_Read call that times out without a byte: the second device gets sixteen. -/
theorem ftdi_repeats_stale :
    ∃ g s, run Host.reliable [] = .ok g ∧
      (Ftdi.started (Vector.replicate bufSize 0x55) g).readftdi Host.reliable 2
        (fun _ => ⟨true, true, true, true, true⟩) true false ⟨[⟨some (Chunk.empty bufSize), true⟩], false⟩ =
          .ok (s, none) ∧
      stored (s.feed.calls.filterMap FtCall.line) = [] ∧
      (written (s.feed.calls.filterMap FtCall.line)).length = 16 ∧ ¬ Transparent false s.feed.calls := by
  let openings : Nat → Opening := fun _ => ⟨true, true, true, true, true⟩
  let idle : Round := ⟨some (Chunk.empty bufSize), true⟩
  obtain ⟨g, ran, tracks⟩ := run_tracks Host.reliable []
  obtain ⟨s, opened, calls, returned, result, made, opens, loops⟩ := Ftdi.readftdi_loops Host.reliable
    (Nat.zero_lt_two) openings true false ⟨[idle], false⟩
    (s := Ftdi.started (Vector.replicate bufSize 0x55) g) tracks
  have loops : LoopCalls 2 false [idle] calls returned := loops
  cases loops with
  | returns fails fills => exact absurd ⟨by decide, fun _ => rfl⟩ fails
  | @round _ _ buffer _ _ succeeds fills rest =>
      cases rest
      obtain ⟨got, wrote, _⟩ := round_bytes false Nat.one_lt_two succeeds.1 buffer
      rw [List.append_nil] at made
      have line : s.feed.calls.filterMap FtCall.line = (roundCalls 2 false idle buffer).filterMap FtCall.line := by
        rw [made, List.filterMap_append, List.filterMap_append, (opened_quiet opens).1]
        rfl
      rw [← line] at got wrote
      refine ⟨g, s, ran, result, got, by rw [wrote, fills.length, bufSize], ?_⟩
      intro transparent
      have same := transparent.1.2 rfl
      rw [got, wrote] at same
      have size := fills.length
      rw [same] at size
      exact absurd size (by decide)

end SerialTiming.Laws.Repeater
