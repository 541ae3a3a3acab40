/- module: SerialTiming/Receiver/ReadWin
   digest: readwin.cpp: the loop that reads the serial port on Windows, and which bytes it passes on. -/

import SerialTiming.Decoder.ReadData
import SerialTiming.Receiver.Calls

set_option autoImplicit false
set_option relaxedAutoImplicit false

namespace SerialTiming.Receiver.ReadWin

open CLib.Objects Decoder.State Decoder.ReadData Calls

/-- One round of the outer loop as the system answers it: what WaitCommEvent returned, the event mask it
left, and `*running` at the end of the round. -/
structure Wait where
  returned : Bool
  dwEventMask : UInt32
  running : Bool
  deriving DecidableEq, Repr

def evRxchar : UInt32 := 0x0001

def Wait.receives (w : Wait) : Bool := w.returned && decide (w.dwEventMask &&& evRxchar ≠ 0)

/-- The variables of read that its loop uses, the decoder, and the calls made so far. -/
structure Reader where
  readData : UInt8
  noBytesRead : UInt32
  globals : Globals
  calls : List Call
  deriving DecidableEq, Repr

namespace Reader

/-- Nothing initialises `ReadData`: it holds some byte when the loop starts. -/
def opened (readData : UInt8) (globals : Globals) : Reader := ⟨readData, 0, globals, []⟩

/-- ReadFile for one byte: it stores one and reports 1, or stores none and reports 0. -/
def readFile (result : Option UInt8) (r : Reader) : Reader :=
  { r with
    readData := result.getD r.readData
    noBytesRead := if result.isSome then 1 else 0
    calls := r.calls ++ [.read result.toList] }

def writeFile (r : Reader) : Reader := { r with calls := r.calls ++ [.write [r.readData]] }

def putReadData (host : Host) (r : Reader) : Checked Reader := do
  let globals ← Decoder.ReadData.putReadData host r.readData r.globals
  .ok { r with globals := globals, calls := r.calls ++ [.putReadData r.readData] }

def round (host : Host) (forward : Bool) (result : Option UInt8) (r : Reader) : Checked Reader :=
  let r := r.readFile result
  let r := if forward then r.writeFile else r
  r.putReadData host

/-- The inner loop on the results that ReadFile gives from here on, and the results left for the next one.
Where they run out the program still waits for ReadFile. -/
def burst (host : Host) (forward : Bool) : List (Option UInt8) → Reader → Checked (Reader × List (Option UInt8))
  | [], r => .ok (r, [])
  | result :: results, r => do
      let r ← r.round host forward result
      if r.noBytesRead > 0 then burst host forward results r else .ok (r, results)

/-- What one round of the outer loop does: a burst, if WaitCommEvent tells of received bytes. -/
def wait (host : Host) (forward : Bool) (w : Wait) (results : List (Option UInt8)) (r : Reader) :
    Checked (Reader × List (Option UInt8)) :=
  if w.receives then r.burst host forward results else .ok (r, results)

def read (host : Host) (forward : Bool) : List Wait → List (Option UInt8) → Reader → Checked Reader
  | [], _, r => .ok r
  | w :: waits, results, r => do
      let (r, results) ← r.wait host forward w results
      if w.running then read host forward waits results r else .ok r

end Reader

/-- The rounds that are reached: `*running` ends the loop. -/
def reached : List Wait → List Wait
  | [] => []
  | w :: waits => w :: if w.running then reached waits else []

def heard (readData : UInt8) : List (Option UInt8) → List UInt8
  | [] => []
  | result :: results => result.getD readData :: heard (result.getD readData) results

/-- What `ReadData` holds after some ReadFile calls. -/
def held (readData : UInt8) (results : List (Option UInt8)) : UInt8 :=
  results.foldl (fun readData result => result.getD readData) readData

theorem heard_append (readData : UInt8) (front back : List (Option UInt8)) :
    heard readData (front ++ back) = heard readData front ++ heard (held readData front) back := by
  induction front generalizing readData with
  | nil => rfl
  | cons result front ih =>
      rw [List.cons_append, heard, heard, ih, List.cons_append]
      rfl

theorem heard_length (readData : UInt8) (results : List (Option UInt8)) :
    (heard readData results).length = results.length := by
  induction results generalizing readData with
  | nil => rfl
  | cons result results ih => rw [heard, List.length_cons, ih, List.length_cons]

theorem heard_stored (readData : UInt8) (results : List (Option UInt8)) :
    heard readData results = results.reduceOption ↔ none ∉ results := by
  constructor
  · intro same missing
    have lengths := congrArg List.length same
    rw [heard_length] at lengths
    have all := List.reduceOption_length_eq_iff.mp lengths.symm
    exact absurd (all none missing) (by decide)
  · intro all
    induction results generalizing readData with
    | nil => rfl
    | cons result results ih =>
        simp only [List.mem_cons, not_or] at all
        cases result with
        | none => exact absurd rfl all.1
        | some b =>
            rw [heard, ih _ all.2, List.reduceOption_cons_of_some]
            rfl

/-- Between two moments of the loop the ReadFile calls with these results were made: what each left in
`ReadData` went to the decoder, and with `forward` to the other port. -/
structure Hears (forward : Bool) (past : List UInt8) (r : Reader) (results : List (Option UInt8)) (r' : Reader) :
    Prop where
  stored : stored r'.calls = stored r.calls ++ results.reduceOption
  passed : passed r'.calls = passed r.calls ++ heard r.readData results
  written : written r'.calls = written r.calls ++ if forward then heard r.readData results else []
  readData : r'.readData = held r.readData results
  tracks : Tracks (past ++ heard r.readData results) r'.globals

theorem Hears.nothing {forward : Bool} {past : List UInt8} {r : Reader} (tracks : Tracks past r.globals) :
    Hears forward past r [] r := by
  refine ⟨by simp, by simp [heard], by simp [heard], rfl, ?_⟩
  rw [heard, List.append_nil]
  exact tracks

theorem Hears.trans {forward : Bool} {past : List UInt8} {r r₁ r₂ : Reader} {front back : List (Option UInt8)}
    (first : Hears forward past r front r₁) (second : Hears forward (past ++ heard r.readData front) r₁ back r₂) :
    Hears forward past r (front ++ back) r₂ := by
  have joined := heard_append r.readData front back
  rw [← first.readData] at joined
  refine ⟨?_, ?_, ?_, ?_, ?_⟩
  · rw [second.stored, first.stored, List.reduceOption_append, List.append_assoc]
  · rw [second.passed, first.passed, joined, List.append_assoc]
  · rw [second.written, first.written, joined, List.append_assoc]
    split <;> rfl
  · rw [second.readData, first.readData, held, held, held, List.foldl_append]
  · rw [joined, ← List.append_assoc]
    exact second.tracks

theorem round_hears (host : Host) (forward : Bool) {past : List UInt8} {r : Reader} (tracks : Tracks past r.globals)
    (result : Option UInt8) :
    ∃ r', r.round host forward result = .ok r' ∧ (0 < r'.noBytesRead ↔ result ≠ none) ∧
      Hears forward past r [result] r' := by
  obtain ⟨g, parsed, tracks'⟩ := putReadData_tracks host tracks (result.getD r.readData)
  let writes : List Call := if forward then [.write [result.getD r.readData]] else []
  let calls : List Call := .read result.toList :: writes ++ [.putReadData (result.getD r.readData)]
  have stores : result.toList = [result].reduceOption := by cases result <;> rfl
  have quiet : stored writes = [] ∧ passed writes = [] := by
    cases forward <;> exact ⟨rfl, rfl⟩
  refine ⟨{ r.readFile result with globals := g, calls := r.calls ++ calls }, ?_, ?_, ?_, ?_, ?_, rfl, tracks'⟩
  · cases forward <;>
      simp only [Reader.round, Reader.readFile, Reader.writeFile, Reader.putReadData, parsed, ok_bind, calls, writes,
        Bool.false_eq_true, ↓reduceIte, List.append_assoc, List.cons_append, List.nil_append]
  · cases result <;> simp [Reader.readFile]
  · have own : stored calls = result.toList ++ stored writes := by
      have rest : stored (writes ++ [.putReadData (result.getD r.readData)]) = stored writes := by simp [Calls.stored]
      exact congrArg (result.toList ++ ·) rest
    rw [stored_append, own, quiet.1, stores, List.append_nil]
  · have own : passed calls = passed writes ++ [result.getD r.readData] := passed_append writes _
    rw [passed_append, own, quiet.2]
    rfl
  · have own : written calls = written writes ++ [] := written_append writes _
    rw [written_append, own]
    cases forward <;> rfl

theorem burst_hears (host : Host) (forward : Bool) (results : List (Option UInt8)) {past : List UInt8} {r : Reader}
    (tracks : Tracks past r.globals) :
    ∃ r' front back, r.burst host forward results = .ok (r', back) ∧ results = front ++ back ∧
      (none ∈ front ↔ none ∈ results) ∧ Hears forward past r front r' := by
  induction results generalizing past r with
  | nil => exact ⟨r, [], [], rfl, rfl, Iff.rfl, Hears.nothing tracks⟩
  | cons result results ih =>
      obtain ⟨r₁, first, reports, hears⟩ := round_hears host forward tracks result
      cases result with
      | none =>
          have ended : ¬ r₁.noBytesRead > 0 := fun more => reports.mp more rfl
          refine ⟨r₁, [none], results, ?_, rfl, by simp, hears⟩
          rw [Reader.burst, first, ok_bind, if_neg ended]
      | some b =>
          have more : r₁.noBytesRead > 0 := reports.mpr (by simp)
          obtain ⟨r₂, front, back, rest, rfl, missing, hears'⟩ := ih hears.tracks
          refine ⟨r₂, some b :: front, back, ?_, rfl, ?_, hears.trans hears'⟩
          · rw [Reader.burst, first, ok_bind, if_pos more]
            exact rest
          · simpa using missing

private theorem wait_hears (host : Host) (forward : Bool) (w : Wait) (results : List (Option UInt8)) {past : List UInt8}
    {r : Reader} (tracks : Tracks past r.globals) :
    ∃ r' front back, r.wait host forward w results = .ok (r', back) ∧ results = front ++ back ∧
      (none ∈ front ↔ w.receives = true ∧ none ∈ results) ∧ Hears forward past r front r' := by
  unfold Reader.wait
  by_cases receives : w.receives = true
  · obtain ⟨r', front, back, result, split, missing, hears⟩ := burst_hears host forward results tracks
    exact ⟨r', front, back, by rw [if_pos receives, result], split, by simp [missing, receives], hears⟩
  · exact ⟨r, [], results, by rw [if_neg receives], rfl, by simp [receives], Hears.nothing tracks⟩

/-- The outer loop makes the ReadFile calls of its bursts one after the other. A call that stores nothing is
among them exactly when a burst begins and the results have one. -/
theorem read_hears (host : Host) (forward : Bool) (waits : List Wait) (results : List (Option UInt8))
    {past : List UInt8} {r : Reader} (tracks : Tracks past r.globals) :
    ∃ r' front, r.read host forward waits results = .ok r' ∧ front <+: results ∧
      (none ∈ front ↔ (∃ w ∈ reached waits, w.receives = true) ∧ none ∈ results) ∧
      Hears forward past r front r' := by
  induction waits generalizing past r results with
  | nil =>
      refine ⟨r, [], rfl, List.nil_prefix, ?_, Hears.nothing tracks⟩
      simp [reached]
  | cons w waits ih =>
      obtain ⟨r₁, front, back, first, rfl, missing, hears⟩ := wait_hears host forward w results tracks
      by_cases running : w.running = true
      · obtain ⟨r₂, more, rest, shorter, missing', hears'⟩ := ih back hears.tracks
        refine ⟨r₂, front ++ more, ?_, (List.prefix_append_right_inj front).mpr shorter, ?_, hears.trans hears'⟩
        · rw [Reader.read, first, ok_bind]
          exact (if_pos running).trans rest
        · rw [reached, if_pos running, List.mem_append]
          constructor
          · rintro (early | late)
            · exact ⟨⟨w, List.mem_cons_self, (missing.mp early).1⟩, List.mem_append_left _ early⟩
            · obtain ⟨⟨v, among, receives⟩, ends⟩ := missing'.mp late
              exact ⟨⟨v, List.mem_cons_of_mem _ among, receives⟩, List.mem_append_right _ ends⟩
          · rintro ⟨⟨v, among, receives⟩, ends⟩
            rcases List.mem_cons.mp among with rfl | among
            · exact .inl (missing.mpr ⟨receives, ends⟩)
            -- a round without a burst leaves all results for the later ones
            · rcases List.mem_append.mp ends with early | late
              · exact .inl early
              · exact .inr (missing'.mpr ⟨⟨v, among, receives⟩, late⟩)
      · refine ⟨r₁, front, ?_, List.prefix_append front back, ?_, hears⟩
        · rw [Reader.read, first, ok_bind]
          exact if_neg running
        · rw [reached, if_neg running, missing]
          simp

end SerialTiming.Receiver.ReadWin
