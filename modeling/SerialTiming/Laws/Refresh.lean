/- module: SerialTiming/Laws/Refresh
   digest: Which frames make two boards alike, part by part, and that what is alike stays so. -/

import SerialTiming.Laws.Masking
import SerialTiming.Laws.LaneUpdates
import SerialTiming.Laws.Cadence
import SerialTiming.Scoreboard.Spelling

set_option autoImplicit false
set_option relaxedAutoImplicit false

namespace SerialTiming.Laws.Refresh

open CLib.Strings Line.Segments Scoreboard.Display Scoreboard.Clocks Scoreboard.Boards Scoreboard.Answers
open Scoreboard.Sampler Scoreboard.Spelling
open DigitMemory Masking LaneUpdates Cadence Machines Machines.Convergence

/-- A frame that writes every digit its channel's handlers look at. -/
def Full (f : Segment) : Prop :=
  f.controlBit = 0 ∧ ∀ d ∈ shownDigits f.channel, (lastDigit d.val f.data).isSome = true

instance (f : Segment) : Decidable (Full f) := inferInstanceAs (Decidable (_ ∧ _))

def Heads (f : Segment) : Prop :=
  f.channel = 0x0C ∧ Full f ∧
    ∃ d ∈ shownDigits 0x0C, ∃ x ∈ lastDigit d.val f.data, checkBitValue x ≠ 0

def Zeroes (f : Segment) : Prop :=
  f.channel = 0x12 ∧ Full f ∧ ∀ d ∈ shownDigits 0x12, ∀ x ∈ lastDigit d.val f.data, checkBitValue x = 0

/-- A clock frame with nothing but zeros and blanks in the cells that the detector goes through. -/
def Stands (f : Segment) : Prop :=
  f.channel = 0x00 ∧ Full f ∧
    ∀ d ∈ [(3 : Fin 8), 4, 5, 6], lastDigit d.val f.data = some 0x00 ∨ lastDigit d.val f.data = some 0x0F

/-- Frames that write everything that is shown, a header, a zero number of rounds and six clock rows on end
that let the detector stop. -/
structure Refreshing (frames : List Segment) : Prop where
  full : ∀ c : Fin 32, shownDigits (UInt8.ofNat c.val) ≠ [] → ∃ f ∈ frames, f.channel.toNat = c.val ∧ Full f
  header : ∃ f ∈ frames, Heads f
  rounds : ∃ f ∈ frames, Zeroes f
  clock : ∃ before still later, frames = before ++ still ++ later ∧ 6 ≤ still.countP (·.channel = 0x00) ∧
    ∀ f ∈ still, f.channel = 0x00 → Stands f

def SameChannel (c : Fin 32) (b b' : Board) : Prop :=
  ∀ d ∈ shownDigits (UInt8.ofNat c.val), cell b.cells c d 0 = cell b'.cells c d 0

/-- Two boards that say the same but for the lane records and the clock. -/
structure Synced (b b' : Board) : Prop where
  cells : SameCells b.cells b'.cells
  header : b.header = b'.header
  rounds : b.rounds = b'.rounds
  pRound : b.pRound = b'.pRound
  startStop : b.startStop = b'.startStop

section Digits
variable (b : Board) {f : Segment}

theorem read_written (bit : f.controlBit = 0) {d : Fin 8} {x : UInt8} (written : lastDigit d.val f.data = some x) :
    (b.read f).get (digitCell d) = x := by
  have stored := storeFrame_cell f b.cells ⟨f.channel.toNat, f.channel_lt⟩ d 0
  have own : f.channel.toNat = f.channel.toNat ∧ f.controlBit.toNat = (0 : Fin 2).val := ⟨rfl, by rw [bit]; rfl⟩
  rw [if_pos own, written] at stored
  exact stored

theorem Full.read (full : Full f) {d : Fin 8} (shown : d ∈ shownDigits f.channel) :
    ∃ x, lastDigit d.val f.data = some x ∧ (b.read f).get (digitCell d) = x := by
  obtain ⟨x, written⟩ := Option.isSome_iff_exists.mp (full.2 d shown)
  exact ⟨x, written, read_written b full.1 written⟩

theorem Stands.null (stands : Stands f) : NullCells (b.read f) := by
  obtain ⟨_, full, null⟩ := stands
  have blank (d : Fin 8) (among : d ∈ [(3 : Fin 8), 4, 5, 6]) :
      (b.read f).get (digitCell d) = 0x00 ∨ (b.read f).get (digitCell d) = 0x0F := by
    rcases null d among with zero | dark
    · exact .inl (read_written b full.1 zero)
    · exact .inr (read_written b full.1 dark)
  have c6 : (b.read f).get 6 = 0x00 ∨ (b.read f).get 6 = 0x0F := blank 3 (by decide)
  have c8 : (b.read f).get 8 = 0x00 ∨ (b.read f).get 8 = 0x0F := blank 4 (by decide)
  have c10 : (b.read f).get 10 = 0x00 ∨ (b.read f).get 10 = 0x0F := blank 5 (by decide)
  have c12 : (b.read f).get 12 = 0x00 ∨ (b.read f).get 12 = 0x0F := blank 6 (by decide)
  simp only [NullCells, List.mem_cons, List.not_mem_nil, or_false, forall_eq_or_imp, forall_eq]
  exact ⟨c6, c8, c10, c12⟩

theorem headerText_blank (row : Row) :
    headerText row = blankHeader ↔ ∀ d ∈ (displayedHeader row).1 ++ (displayedHeader row).2, d = 0 := by
  have zeros : blankHeader = "header ".toList ++ (spell [0, 0, 0] ++ ' ' :: spell [0, 0, 0]) := by decide
  have apart (digits : List UInt8) : ' ' ∉ spell digits := spell_separator (by decide) digits
  obtain ⟨first, second⟩ := small_header row
  have three {digits : List UInt8} (small : Small digits) (length : digits.length = 3) :
      spell digits = spell [0, 0, 0] ↔ ∀ d ∈ digits, d = 0 := by
    have small' : Small [0, 0, 0] := small_displayed [0, 0, 0]
    rw [spell_inj small small', written_inj length (.inr (by decide))]
    exact List.eq_replicate_iff.trans (and_iff_right length)
  rw [headerText_spelled, zeros, List.append_cancel_left_eq]
  constructor
  · intro same
    obtain ⟨left, right⟩ := before_separator (apart _) (apart _) same
    intro d member
    rcases List.mem_append.mp member with l | r
    · exact (three first rfl).mp left d l
    · exact (three second rfl).mp right d r
  · intro all
    rw [(three first rfl).mpr fun d member => all d (List.mem_append_left _ member),
      (three second rfl).mpr fun d member => all d (List.mem_append_right _ member)]

theorem displayedHeader_shown (row : Row) : ∀ d ∈ shownDigits 0x0C,
    checkBitValue (row.get (digitCell d)) ∈ (displayedHeader row).1 ++ (displayedHeader row).2 := by
  have digits : shownDigits 0x0C = [0, 1, 2, 5, 6, 7] := by decide
  rw [digits]
  simp only [List.mem_cons, List.not_mem_nil, or_false, forall_eq_or_imp, forall_eq, displayedHeader,
    Vector.get_eq_getElem, List.cons_append, List.nil_append]
  refine ⟨.inl rfl, .inr (.inl rfl), .inr (.inr (.inl rfl)), .inr (.inr (.inr (.inl rfl))),
    .inr (.inr (.inr (.inr (.inl rfl)))), .inr (.inr (.inr (.inr (.inr rfl))))⟩

theorem displayedRounds_shown (row : Row) : ∀ x ∈ displayedRounds row,
    ∃ d ∈ shownDigits 0x12, x = checkBitValue (row.get (digitCell d)) := by
  have digits : shownDigits 0x12 = [0, 1, 2, 3, 4, 5, 6, 7] := by decide
  rw [digits]
  simp only [displayedRounds, List.mem_cons, List.not_mem_nil, or_false, forall_eq_or_imp, forall_eq,
    exists_eq_or_imp, exists_eq_left, Vector.get_eq_getElem]
  refine ⟨.inl rfl, .inr (.inl rfl), .inr (.inr (.inl rfl)), .inr (.inr (.inr (.inl rfl))),
    .inr (.inr (.inr (.inr (.inl rfl)))), .inr (.inr (.inr (.inr (.inr (.inl rfl))))),
    .inr (.inr (.inr (.inr (.inr (.inr (.inl rfl)))))), .inr (.inr (.inr (.inr (.inr (.inr (.inr rfl))))))⟩

end Digits

section Records
variable (b : Board) (f : Segment)

theorem frame_header_record :
    (b.frame f).1.header =
      if f.channel = 0x0C ∧ headerText (b.read f) ≠ blankHeader then some (headerText (b.read f)) else b.header := by
  by_cases channel : f.channel = 0x0C
  · rw [frame_header b channel]
    rcases onHeader_cases (b.stored f) (b.read f) with ⟨known, stays⟩ | ⟨new, sent⟩
    · rw [stays]
      split
      · rename_i told
        exact known.resolve_left told.2
      · rfl
    · rw [sent, if_pos ⟨channel, fun blank => new (.inl blank)⟩]
  · rw [frame_header_other b channel, if_neg fun both => channel both.1]

theorem frame_rounds_record :
    (b.frame f).1.rounds = (if f.channel = 0x12 then some (roundsText (b.read f)) else b.rounds) ∧
    (b.frame f).1.pRound =
      if f.channel = 0x12 then
        if roundsText (b.read f) = zeroRounds then 0
        else if b.rounds = some (roundsText (b.read f)) then b.pRound else Board.nextRound b.pRound
      else b.pRound := by
  by_cases channel : f.channel = 0x12
  · rw [frame_rounds b channel, if_pos channel, if_pos channel]
    exact ⟨rfl, rfl⟩
  · rw [if_neg channel, if_neg channel]
    exact frame_rounds_other b channel

end Records

section Keeping
variable {b b' : Board} (f : Segment)

theorem SameChannel.read {c : Fin 32} (same : SameChannel c b b') (own : f.channel.toNat = c.val) :
    SameRow f.channel (b.read f) (b'.read f) := by
  have channel : UInt8.ofNat c.val = f.channel := by rw [← own, UInt8.ofNat_toNat]
  intro d shown
  have stored (cells : Vector Row 32) :
      (rowOf (storeFrame cells f) f).get (digitCell d) = cell (storeFrame cells f) c d 0 := by
    obtain ⟨c, inside⟩ := c
    obtain rfl : f.channel.toNat = c := own
    rfl
  have first := stored b.cells
  have second := stored b'.cells
  rw [storeFrame_cell] at first second
  have kept := same d (channel ▸ shown)
  show (rowOf (storeFrame b.cells f) f).get (digitCell d) = (rowOf (storeFrame b'.cells f) f).get (digitCell d)
  rw [first, second, kept]

theorem SameChannel.frame {c : Fin 32} (same : SameChannel c b b') : SameChannel c (b.frame f).1 (b'.frame f).1 := by
  intro d shown
  rw [frame_cells, frame_cells, storeFrame_cell, storeFrame_cell, same d shown]

theorem Full.sameChannel {c : Fin 32} (full : Full f) (own : f.channel.toNat = c.val) (b b' : Board) :
    SameChannel c (b.frame f).1 (b'.frame f).1 := by
  have channel : UInt8.ofNat c.val = f.channel := by rw [← own, UInt8.ofNat_toNat]
  intro d shown
  obtain ⟨x, written⟩ := Option.isSome_iff_exists.mp (full.2 d (channel ▸ shown))
  have own' : f.channel.toNat = c.val ∧ f.controlBit.toNat = (0 : Fin 2).val := ⟨own, by rw [full.1]; rfl⟩
  rw [frame_cells, frame_cells, storeFrame_cell, storeFrame_cell, if_pos own', if_pos own', written]
  rfl

def SameHeader (b b' : Board) : Prop := SameChannel 12 b b' ∧ b.header = b'.header

theorem SameHeader.frame (same : SameHeader b b') : SameHeader (b.frame f).1 (b'.frame f).1 := by
  obtain ⟨cells, record⟩ := same
  refine ⟨cells.frame f, ?_⟩
  rw [frame_header_record, frame_header_record, record]
  by_cases channel : f.channel = 0x0C
  · have row := cells.read f (by rw [channel]; rfl)
    rw [channel] at row
    rw [row.headerTexts]
  · rw [if_neg fun both => channel both.1, if_neg fun both => channel both.1]

theorem Heads.sameHeader (heads : Heads f) (b b' : Board) : SameHeader (b.frame f).1 (b'.frame f).1 := by
  obtain ⟨channel, full, d, shown, x, written, spells⟩ := heads
  have cells := full.sameChannel f (c := 12) (by rw [channel]; rfl) b b'
  refine ⟨cells, ?_⟩
  have row : SameRow 0x0C (b.read f) (b'.read f) := by
    intro e among
    obtain ⟨y, wrote, first⟩ := full.read b (channel ▸ among)
    obtain ⟨y', wrote', second⟩ := full.read b' (channel ▸ among)
    rw [first, second, Option.some.inj (wrote.symm.trans wrote')]
  have nonblank : headerText (b.read f) ≠ blankHeader := by
    intro blank
    have zero := (headerText_blank _).mp blank
    have read := read_written b full.1 written
    exact spells (zero _ (read ▸ displayedHeader_shown (b.read f) d shown))
  rw [frame_header_record, frame_header_record, row.headerTexts, if_pos ⟨channel, nonblank⟩,
    if_pos ⟨channel, nonblank⟩]

def SameRounds (b b' : Board) : Prop := SameChannel 18 b b' ∧ b.rounds = b'.rounds ∧ b.pRound = b'.pRound

theorem SameRounds.frame (same : SameRounds b b') : SameRounds (b.frame f).1 (b'.frame f).1 := by
  obtain ⟨cells, rounds, number⟩ := same
  obtain ⟨first, number₁⟩ := frame_rounds_record b f
  obtain ⟨second, number₂⟩ := frame_rounds_record b' f
  refine ⟨cells.frame f, ?_, ?_⟩
  all_goals by_cases channel : f.channel = 0x12
  · have row := cells.read f (by rw [channel]; rfl)
    rw [channel] at row
    rw [first, second, row.roundsTexts, rounds]
  · rw [first, second, if_neg channel, if_neg channel, rounds]
  · have row := cells.read f (by rw [channel]; rfl)
    rw [channel] at row
    rw [number₁, number₂, row.roundsTexts, rounds, number]
  · rw [number₁, number₂, if_neg channel, if_neg channel, number]

theorem Zeroes.sameRounds (zeroes : Zeroes f) (b b' : Board) : SameRounds (b.frame f).1 (b'.frame f).1 := by
  obtain ⟨channel, full, zero⟩ := zeroes
  have spelled (c : Board) : roundsText (c.read f) = zeroRounds := by
    rw [roundsText_zero]
    intro x member
    obtain ⟨d, shown, rfl⟩ := displayedRounds_shown _ x member
    obtain ⟨y, written, read⟩ := full.read c (channel ▸ shown)
    rw [read]
    exact zero d shown y written
  obtain ⟨first, number₁⟩ := frame_rounds_record b f
  obtain ⟨second, number₂⟩ := frame_rounds_record b' f
  refine ⟨full.sameChannel f (c := 18) (by rw [channel]; rfl) b b', ?_, ?_⟩
  · rw [first, second, if_pos channel, if_pos channel, spelled, spelled]
  · rw [number₁, number₂, if_pos channel, if_pos channel, if_pos (spelled b), if_pos (spelled b')]

def SameDetector (b b' : Board) : Prop := SameChannel 0 b b' ∧ b.startStop = b'.startStop

theorem SameDetector.frame (same : SameDetector b b') : SameDetector (b.frame f).1 (b'.frame f).1 := by
  obtain ⟨cells, detector⟩ := same
  refine ⟨cells.frame f, ?_⟩
  rw [frame_startStop, frame_startStop, detector]
  by_cases channel : f.channel = 0x00
  · have row := cells.read f (by rw [channel]; rfl)
    rw [channel] at row
    have null := row.clockTexts.2.2
    simp only [StartStop.watch, checknotnull, null]
  · rw [if_neg channel, if_neg channel]

end Keeping

private def untilReset (s : StartStop) : Nat := if s = initStartStop then 0 else if s.Looks then 1 else 6 - s.noworking

private theorem untilReset_observe {row : Row} (null : NullCells row) (s : StartStop) :
    untilReset (observe s row) ≤ untilReset s - 1 := by
  have blank : rowNotNull row = false := (rowNotNull_false row).mpr null
  by_cases looks : s.Looks
  · have reset : observe s row = initStartStop := by
      rw [observe_looks looks, blank]
      rfl
    rw [untilReset, if_pos reset]
    exact Nat.zero_le _
  · have counts := observe_waits looks row
    have early : ¬ (s.noworking + 1 > 5 ∨ s.pending = false) := looks
    have other : s ≠ initStartStop := by
      rintro rfl
      exact early (.inr rfl)
    have next : (observe s row).noworking = s.noworking + 1 := by rw [counts]
    rw [untilReset, untilReset, if_neg other, if_neg looks, next]
    split
    · omega
    · split <;> omega

/-- Six clock rows that let it stop bring any detector back to where it started. -/
theorem resets (b : Board) {still : List Segment} (enough : 6 ≤ still.countP (·.channel = 0x00))
    (stands : ∀ f ∈ still, f.channel = 0x00 → Stands f) :
    (Transducer.run Board.frame b still).1.startStop = initStartStop := by
  have most : untilReset b.startStop ≤ 6 := by
    simp only [untilReset]
    split
    · omega
    · split <;> omega
  have down := run_countdown Board.frame (untilReset ·.startStop) (·.channel = 0x00)
    (fun _ f => f.channel = 0x00 → Stands f) ?_ b still ?_
  · by_contra other
    have left : 1 ≤ untilReset (Transducer.run Board.frame b still).1.startStop := by
      rw [untilReset, if_neg other]
      split
      · omega
      · rename_i waits
        have early : ¬ (_ + 1 > 5 ∨ _ = false) := waits
        omega
    have zero : untilReset (Transducer.run Board.frame b still).1.startStop = 0 := by
      have total := Nat.le_trans down (Nat.sub_le_sub_left enough _)
      omega
    omega
  · intro c f stand
    simp only [frame_startStop]
    by_cases channel : f.channel = 0x00
    · simp only [channel, ↓reduceIte, decide_true]
      exact untilReset_observe ((stand channel).null c) c.startStop
    · simp [channel]
  · rintro before f later rfl
    exact stands f (by simp)

namespace Synced

variable {b b' : Board}

theorem channel (synced : Synced b b') (c : Fin 32) : SameChannel c b b' := synced.cells c

theorem of_parts (cells : ∀ c, SameChannel c b b') (header : SameHeader b b') (rounds : SameRounds b b')
    (detector : SameDetector b b') : Synced b b' :=
  ⟨cells, header.2, rounds.2.1, rounds.2.2, detector.2⟩

theorem frame (synced : Synced b b') (f : Segment) : Synced (b.frame f).1 (b'.frame f).1 :=
  of_parts (fun c => (synced.channel c).frame f) (SameHeader.frame f ⟨synced.channel 12, synced.header⟩)
    (SameRounds.frame f ⟨synced.channel 18, synced.rounds, synced.pRound⟩)
    (SameDetector.frame f ⟨synced.channel 0, synced.startStop⟩)

end Synced

/-- Refreshing frames sync any two boards. -/
theorem Refreshing.synced {frames : List Segment} (refreshing : Refreshing frames) (b b' : Board) :
    Synced (Transducer.run Board.frame b frames).1 (Transducer.run Board.frame b' frames).1 := by
  have cells (c : Fin 32) :
      SameChannel c (Transducer.run Board.frame b frames).1 (Transducer.run Board.frame b' frames).1 := by
    by_cases shown : shownDigits (UInt8.ofNat c.val) = []
    · intro d among
      rw [shown] at among
      exact absurd among List.not_mem_nil
    · refine run_brings (fun s t i same => SameChannel.frame i same) ?_ (refreshing.full c shown) b b'
      exact fun s t i kind => kind.2.sameChannel i kind.1 s t
  have header := run_brings (fun s t i same => SameHeader.frame i same)
    (fun s t i heads => Heads.sameHeader i heads s t) refreshing.header b b'
  have rounds := run_brings (fun s t i same => SameRounds.frame i same)
    (fun s t i zeroes => Zeroes.sameRounds i zeroes s t) refreshing.rounds b b'
  refine Synced.of_parts cells header rounds ?_
  obtain ⟨before, still, later, rfl, enough, stands⟩ := refreshing.clock
  have some : ∃ f ∈ still, f.channel.toNat = (0 : Fin 32).val ∧ Full f := by
    have positive : 0 < still.countP (·.channel = 0x00) := by omega
    obtain ⟨f, member, kind⟩ := List.countP_pos_iff.mp positive
    have channel : f.channel = 0x00 := by simpa using kind
    exact ⟨f, member, by rw [channel]; rfl, (stands f member channel).2.1⟩
  have reset (c : Board) : (Transducer.run Board.frame c (before ++ still)).1.startStop = initStartStop := by
    rw [Transducer.run_append]
    exact resets _ enough stands
  have met : SameDetector (Transducer.run Board.frame b (before ++ still)).1
      (Transducer.run Board.frame b' (before ++ still)).1 := by
    refine ⟨?_, (reset b).trans (reset b').symm⟩
    rw [Transducer.run_append, Transducer.run_append]
    exact run_brings (fun s t i same => SameChannel.frame i same)
      (fun s t i kind => kind.2.sameChannel i kind.1 s t) some _ _
  rw [Transducer.run_append, Transducer.run_append _ _ (before ++ still)]
  exact run_keeps (fun s t i same => SameDetector.frame i same) met later

def announced : Event → Bool
  | .mqttSend message => kindOf message != .lane && kindOf message != .time
  | _ => false

/-- What synced boards with the same lane records tell: all but the time and what the gate lets through. -/
def ungated : Event → Bool
  | .mqttSend message => kindOf message != .lane && kindOf message != .time
  | .sendLaneData _ => true
  | _ => false

def noLaneMessage : Event → Bool
  | .mqttSend message => kindOf message != .lane
  | _ => false

section Reports
variable (b : Board) (f : Segment)

def laneReports : List Event :=
  if lane : 1 ≤ f.channel.toNat ∧ f.channel.toNat ≤ 10 then ((b.stored f).onLane ⟨f.channel, lane⟩ (b.read f)).2 else []

def switchReports : List Event := if f.channel = 0x00 then ((b.stored f).onStartStop (b.read f)).2 else []

def timeReports : List Event :=
  if f.channel = 0x00 then (((b.stored f).onStartStop (b.read f)).1.onTime (b.read f)).2 else []

def headerReports : List Event := if f.channel = 0x0C then ((b.stored f).onHeader (b.read f)).2 else []

def roundsReports : List Event := if f.channel = 0x12 then ((b.stored f).onRounds (b.read f)).2 else []

theorem frame_seen {seen : Event → Bool} (reports : ∀ e, seen e = true → isReport e = true) :
    (b.frame f).2.filter seen = (laneReports b f).filter seen ++ (switchReports b f).filter seen ++
      (timeReports b f).filter seen ++ (headerReports b f).filter seen ++ (roundsReports b f).filter seen := by
  have unseen {e : Event} (call : isReport e = false) (es : List Event) : (e :: es).filter seen = es.filter seen := by
    have hidden : ¬ seen e = true := fun shown => by simp [reports e shown] at call
    rw [List.filter_cons_of_neg hidden]
  simp only [Board.frame, Board.dispatch, laneReports, switchReports, timeReports, headerReports, roundsReports]
  rw [unseen rfl]
  by_cases lane : 1 ≤ f.channel.toNat ∧ f.channel.toNat ≤ 10
  · have clock : f.channel ≠ 0x00 := by
      intro zero
      simp [zero] at lane
    have header : f.channel ≠ 0x0C := by
      intro twelve
      simp [twelve] at lane
    have rounds : f.channel ≠ 0x12 := by
      intro eighteen
      simp [eighteen] at lane
    simp only [dif_pos lane, if_neg clock, if_neg header, if_neg rounds, List.filter_nil, List.append_nil]
    exact unseen rfl _
  · simp only [dif_neg lane, List.filter_nil, List.nil_append]
    by_cases clock : f.channel = 0x00
    · have header : f.channel ≠ 0x0C := by simp [clock]
      have rounds : f.channel ≠ 0x12 := by simp [clock]
      simp only [if_pos clock, if_neg header, if_neg rounds, List.filter_nil, List.append_nil]
      rw [List.cons_append, unseen rfl, List.filter_append]
      exact congrArg _ (unseen rfl _)
    · simp only [if_neg clock, List.filter_nil, List.nil_append]
      by_cases header : f.channel = 0x0C
      · have rounds : f.channel ≠ 0x12 := by simp [header]
        simp only [if_pos header, if_neg rounds, List.filter_nil, List.append_nil]
        exact unseen rfl _
      · by_cases rounds : f.channel = 0x12
        · simp only [if_neg header, if_pos rounds, List.filter_nil, List.nil_append]
          exact unseen rfl _
        · simp only [if_neg header, if_neg rounds, List.filter_nil, List.append_nil]

end Reports

theorem laneReports_unseen (b : Board) (f : Segment) :
    (laneReports b f).filter announced = [] ∧ (laneReports b f).filter noLaneMessage = [] := by
  rw [laneReports]
  split
  · rename_i lane
    rcases onLane_cases (b.stored f) ⟨f.channel, lane⟩ (b.read f) with ⟨_, told⟩ | ⟨_, silent, _⟩
    · simp only [told, Board.laneEvents]
      split <;> exact ⟨rfl, rfl⟩
    · rw [silent]
      exact ⟨rfl, rfl⟩
  · exact ⟨rfl, rfl⟩

theorem timeReports_unseen (b : Board) (f : Segment) :
    (timeReports b f).filter announced = [] ∧ (timeReports b f).filter ungated = [] := by
  rw [timeReports]
  split
  · rcases onTime_cases ((b.stored f).onStartStop (b.read f)).1 (b.read f) with ⟨_, counts⟩ | ⟨_, samples⟩
    · rw [counts]
      exact ⟨rfl, rfl⟩
    · rw [samples]
      exact ⟨rfl, rfl⟩
  · exact ⟨rfl, rfl⟩

namespace Synced

variable {b b' : Board} (synced : Synced b b') (f : Segment)
include synced

theorem row : SameRow f.channel (b.read f) (b'.read f) :=
  (synced.channel ⟨f.channel.toNat, f.channel_lt⟩).read f rfl

theorem switchReports : switchReports b f = Refresh.switchReports b' f := by
  simp only [Refresh.switchReports]
  split
  · rename_i channel
    have row := synced.row f
    rw [channel] at row
    have null := row.clockTexts.2.2
    have detector : (b.stored f).startStop = (b'.stored f).startStop := synced.startStop
    have watched : (b.stored f).startStop.watch (b.read f) = (b'.stored f).startStop.watch (b'.read f) := by
      simp only [StartStop.watch, checknotnull, null, detector]
    simp only [Board.onStartStop, watched]
    split <;> rfl
  · rfl

theorem headerReports : headerReports b f = Refresh.headerReports b' f := by
  simp only [Refresh.headerReports]
  split
  · rename_i channel
    have row := synced.row f
    rw [channel] at row
    have record : (b.stored f).header = (b'.stored f).header := synced.header
    simp only [Board.onHeader, row.headerTexts, record]
    split <;> rfl
  · rfl

theorem roundsReports : roundsReports b f = Refresh.roundsReports b' f := by
  simp only [Refresh.roundsReports]
  split
  · rename_i channel
    have row := synced.row f
    rw [channel] at row
    have record : (b.stored f).rounds = (b'.stored f).rounds := synced.rounds
    have number : (b.stored f).pRound = (b'.stored f).pRound := synced.pRound
    simp only [Board.onRounds, row.roundsTexts, record, number]
  · rfl

theorem timeReports (count : b.clock.loopcount = b'.clock.loopcount) : timeReports b f = Refresh.timeReports b' f := by
  simp only [Refresh.timeReports]
  split
  · rename_i channel
    have row := synced.row f
    rw [channel] at row
    have text := row.clockTexts.1
    have clock (c : Board) : ((c.stored f).onStartStop (c.read f)).1.clock = c.clock := by
      obtain ⟨heat, place, rest⟩ := onStartStop_frame (c.stored f) (c.read f)
      rw [rest]
      rfl
    simp only [Board.onTime, clock, count, text]
    split <;> rfl
  · rfl

end Synced

/-- Whatever else they remember, synced boards announce the same and stay synced. -/
theorem synced_announces : Lockstep Board.frame Synced Eq announced where
  keeps := by
    rintro b b' f _ synced rfl
    exact synced.frame f
  same := by
    rintro b b' f _ synced rfl
    have reports (e : Event) (seen : announced e = true) : isReport e = true := by
      cases e <;> simp_all [announced, isReport]
    simp only [frame_seen _ f reports, laneReports_unseen, timeReports_unseen, synced.switchReports f,
      synced.headerReports f, synced.roundsReports f]

def SameLanes (b b' : Board) : Prop := Synced b b' ∧ b.heat = b'.heat ∧ b.place = b'.place

/-- Synced boards that have counted the same clock frames since the last time message. -/
def InPhase (b b' : Board) : Prop := Synced b b' ∧ b.clock.loopcount = b'.clock.loopcount

theorem clears_announced (e : Event) (clear : clears e = true) : announced e = true := by
  cases e with
  | mqttSend m =>
      simp only [clears, sends, Bool.or_eq_true, beq_iff_eq, Option.some.injEq] at clear
      rcases clear with (header | start) | stop
      · simp [announced, header]
      · simp [announced, start]
      · simp [announced, stop]
  | _ => simp [clears, sends] at clear

theorem Synced.announcement {b b' : Board} (synced : Synced b b') {f : Segment} {e : Event}
    (member : e ∈ (b.frame f).2) (seen : announced e = true) : e ∈ (b'.frame f).2 := by
  have same := synced_announces.same b b' f f synced rfl
  have there : e ∈ (b.frame f).2.filter announced := List.mem_filter.mpr ⟨member, seen⟩
  rw [same] at there
  exact List.mem_of_mem_filter there

theorem frame_clears {b : Board} {f : Segment} (clear : ∃ e ∈ (b.frame f).2, clears e = true) :
    (b.frame f).1.heat = Vector.replicate 10 zeroTime ∧ (b.frame f).1.place = Vector.replicate 10 zeroPlace := by
  obtain ⟨e, member, clear⟩ := clear
  have effect := frame_laneEffect b f
  generalize b.frame f = answer at effect member
  cases effect with
  | none c es heat place quiet noRow => exact absurd clear (by simp [quiet e member])
  | clear c front back e heat place => exact ⟨heat, place⟩
  | row c es lane row heat place quiet noRow => exact absurd clear (by simp [quiet e member])

theorem frame_lanes_kept {b : Board} {f : Segment} (noLane : ¬ (1 ≤ f.channel.toNat ∧ f.channel.toNat ≤ 10))
    (quiet : ∀ e ∈ (b.frame f).2, clears e = false) : (b.frame f).1.heat = b.heat ∧ (b.frame f).1.place = b.place := by
  have uncalled (lane : UInt8) (row : Row) : .analyseActiveData lane row ∉ (b.frame f).2 := by
    intro member
    rcases frame_call member rfl with same | called
    · exact absurd same (by simp)
    · rw [handlers, if_neg noLane] at called
      revert called
      repeat' split
      all_goals simp
  have effect := frame_laneEffect b f
  generalize b.frame f = answer at effect quiet uncalled
  cases effect with
  | none c es heat place _ _ => exact ⟨heat, place⟩
  | clear c front back e heat place clear => exact absurd clear (by simp [quiet e (by simp)])
  | row c es lane row heat place _ noRow =>
      have there := noRow lane.number
      rw [if_pos rfl] at there
      have member : row ∈ es.filterMap (laneRow lane.number) := by simp [there]
      obtain ⟨e, inside, called⟩ := List.mem_filterMap.mp member
      cases e with
      | analyseActiveData k r => exact absurd inside (uncalled k r)
      | _ => simp [laneRow] at called

private theorem onLane_same {b b' : Board} (heat : b.heat = b'.heat) (place : b.place = b'.place) {lane : Lane}
    {r r' : Row} (row : SameRow lane.number r r') :
    (b.onLane lane r).1.heat = (b'.onLane lane r').1.heat ∧ (b.onLane lane r).1.place = (b'.onLane lane r').1.place ∧
      (b.onLane lane r).2.filter ungated = (b'.onLane lane r').2.filter ungated := by
  obtain ⟨short, shownPlace, text⟩ := row.laneTexts
  have told (h p : List Char) : announces h p r' = announces h p r := by
    simp only [announces, short, shownPlace]
  have handed (c : Board) : (c.laneEvents (laneText lane.number r)).filter ungated =
      [.sendLaneData (laneText lane.number r)] := by
    simp only [Board.laneEvents]
    split <;> rfl
  simp only [Board.onLane, told, recordedTime, short, shownPlace, text, heat, place]
  split
  · exact ⟨by simp only [Board.setLane, heat], by simp only [Board.setLane, place], by rw [handed, handed]⟩
  · split
    · exact ⟨heat, place, rfl⟩
    · exact ⟨by simp only [Board.setLane, heat], by simp only [Board.setLane, place], rfl⟩

theorem Synced.clearing {b b' : Board} (synced : Synced b b') {f : Segment}
    (clear : ∃ e ∈ (b.frame f).2, clears e = true) : SameLanes (b.frame f).1 (b'.frame f).1 := by
  have clear' : ∃ e ∈ (b'.frame f).2, clears e = true := by
    obtain ⟨e, member, told⟩ := clear
    exact ⟨e, synced.announcement member (clears_announced e told), told⟩
  obtain ⟨first, second⟩ := frame_clears clear
  obtain ⟨first', second'⟩ := frame_clears clear'
  exact ⟨synced.frame f, first.trans first'.symm, second.trans second'.symm⟩

theorem SameLanes.frame {b b' : Board} (same : SameLanes b b') (f : Segment) :
    SameLanes (b.frame f).1 (b'.frame f).1 := by
  obtain ⟨synced, heat, place⟩ := same
  refine ⟨synced.frame f, ?_⟩
  by_cases clear : ∃ e ∈ (b.frame f).2, clears e = true
  · exact (synced.clearing clear).2
  · have quiet : ∀ e ∈ (b.frame f).2, clears e = false :=
      fun e member => Bool.of_not_eq_true fun told => clear ⟨e, member, told⟩
    by_cases lane : 1 ≤ f.channel.toNat ∧ f.channel.toNat ≤ 10
    · obtain ⟨same, number⟩ : ∃ same : Lane, same.number = f.channel := ⟨⟨f.channel, lane⟩, rfl⟩
      have row : SameRow same.number (b.read f) (b'.read f) := by
        rw [number]
        exact synced.row f
      rw [frame_lane b number, frame_lane b' number]
      have own := onLane_same (show (b.stored f).heat = (b'.stored f).heat from heat)
        (show (b.stored f).place = (b'.stored f).place from place) row
      exact ⟨own.1, own.2.1⟩
    · have quiet' : ∀ e ∈ (b'.frame f).2, clears e = false := by
        intro e member
        apply Bool.of_not_eq_true
        intro told
        have same := synced_announces.same b b' f f synced rfl
        have there : e ∈ (b'.frame f).2.filter announced := List.mem_filter.mpr ⟨member, clears_announced e told⟩
        rw [← same] at there
        exact absurd told (by simp [quiet e (List.mem_of_mem_filter there)])
      obtain ⟨first, second⟩ := frame_lanes_kept lane quiet
      obtain ⟨first', second'⟩ := frame_lanes_kept lane quiet'
      exact ⟨by rw [first, first', heat], by rw [second, second', place]⟩

theorem lanes_announce : Lockstep Board.frame SameLanes Eq ungated where
  keeps := by
    rintro b b' f _ same rfl
    exact same.frame f
  same := by
    rintro b b' f _ ⟨synced, heat, place⟩ rfl
    have reports (e : Event) (seen : ungated e = true) : isReport e = true := by
      cases e <;> simp_all [ungated, isReport]
    have lanes : (laneReports b f).filter ungated = (laneReports b' f).filter ungated := by
      simp only [laneReports]
      split
      · rename_i lane
        have row : SameRow (Lane.mk f.channel lane).number (b.read f) (b'.read f) := synced.row f
        exact (onLane_same (show (b.stored f).heat = (b'.stored f).heat from heat)
          (show (b.stored f).place = (b'.stored f).place from place) row).2.2
      · rfl
    simp only [frame_seen _ f reports, lanes, timeReports_unseen, synced.switchReports f, synced.headerReports f,
      synced.roundsReports f]

theorem InPhase.frame {b b' : Board} (same : InPhase b b') (f : Segment) : InPhase (b.frame f).1 (b'.frame f).1 := by
  obtain ⟨synced, count⟩ := same
  exact ⟨synced.frame f, by rw [frame_loopcount, frame_loopcount, count]⟩

theorem phased_announces : Lockstep Board.frame InPhase Eq noLaneMessage where
  keeps := by
    rintro b b' f _ same rfl
    exact same.frame f
  same := by
    rintro b b' f _ ⟨synced, count⟩ rfl
    have reports (e : Event) (seen : noLaneMessage e = true) : isReport e = true := by
      cases e <;> simp_all [noLaneMessage, isReport]
    simp only [frame_seen _ f reports, laneReports_unseen, synced.switchReports f, synced.timeReports f count,
      synced.headerReports f, synced.roundsReports f]

theorem frame_heads {b : Board} {f : Segment} (told : ∃ e ∈ (b.frame f).2, sends e = some .header) :
    (b.frame f).1.clock = setsendActiveStateOff b.clock ∧ (b.frame f).1.heat = Vector.replicate 10 zeroTime ∧
      (b.frame f).1.place = Vector.replicate 10 zeroPlace := by
  obtain ⟨e, member, kind⟩ := told
  obtain ⟨heat, place⟩ := frame_clears ⟨e, member, by simp [clears, kind]⟩
  refine ⟨?_, heat, place⟩
  cases e with
  | mqttSend m =>
      have header : kindOf m = .header := Option.some.inj kind
      have channel := (frame_channel member).1 header
      rw [frame_header b channel] at member ⊢
      rcases onHeader_cases (b.stored f) (b.read f) with ⟨_, known⟩ | ⟨_, new⟩
      · simp [known] at member
      · rw [new]
        rfl
  | _ => simp [sends] at kind

/-- A header that boards in phase send makes them the same but for cells that no handler reads. -/
theorem InPhase.heading {b b' : Board} (same : InPhase b b') {f : Segment}
    (told : ∃ e ∈ (b.frame f).2, sends e = some .header) : Masked (b.frame f).1 (b'.frame f).1 := by
  obtain ⟨synced, count⟩ := same
  have told' : ∃ e ∈ (b'.frame f).2, sends e = some .header := by
    obtain ⟨e, member, kind⟩ := told
    exact ⟨e, synced.announcement member (clears_announced e (by simp [clears, kind])), kind⟩
  have next := synced.frame f
  obtain ⟨clock, heat, place⟩ := frame_heads told
  obtain ⟨clock', heat', place'⟩ := frame_heads told'
  have closed : setsendActiveStateOff b'.clock = setsendActiveStateOff b.clock := by
    simp only [setsendActiveStateOff, count]
  refine ⟨(b'.frame f).1.cells, ?_, next.cells⟩
  generalize (b.frame f).1 = c at next clock heat place ⊢
  generalize (b'.frame f).1 = c' at next clock' heat' place' ⊢
  obtain ⟨cells, header, rounds, pRound, startStop⟩ := next
  cases c
  cases c'
  simp_all

theorem Synced.joins {b b' : Board} (synced : Synced b b') {frames : List Segment}
    (told : ∃ e ∈ (Transducer.run Board.frame b frames).2, clears e = true) :
    SameLanes (Transducer.run Board.frame b frames).1 (Transducer.run Board.frame b' frames).1 := by
  refine run_joins ?_ ?_ ?_ synced told
  · intro s t f same
    exact SameLanes.frame same f
  · intro s t f same
    exact Synced.frame same f
  · intro s t f same clear
    exact Synced.clearing same clear

theorem InPhase.joins {b b' : Board} (same : InPhase b b') {frames : List Segment}
    (told : ∃ e ∈ (Transducer.run Board.frame b frames).2, (sends e == some .header) = true) :
    Masked (Transducer.run Board.frame b frames).1 (Transducer.run Board.frame b' frames).1 := by
  refine run_joins ?_ ?_ ?_ same told
  · intro s t f masked
    exact frame_masks.keeps s t f f masked ⟨rfl, rfl, fun _ _ _ => rfl⟩
  · intro s t f phased
    exact InPhase.frame phased f
  · rintro s t f phased ⟨e, member, header⟩
    exact InPhase.heading phased ⟨e, member, by simpa using header⟩

theorem masked_reports : Lockstep Board.frame Masked Eq isReport where
  keeps := by
    rintro b b' f _ masked rfl
    exact frame_masks.keeps b b' f f masked ⟨rfl, rfl, fun _ _ _ => rfl⟩
  same := by
    rintro b b' f _ masked rfl
    exact frame_masks.same b b' f f masked ⟨rfl, rfl, fun _ _ _ => rfl⟩

end SerialTiming.Laws.Refresh
