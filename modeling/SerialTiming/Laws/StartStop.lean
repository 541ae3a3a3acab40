/- module: SerialTiming/Laws/StartStop
   digest: When start and stop go out: what the clock shows there and which rows are misjudged. -/

import SerialTiming.Laws.Framing
import SerialTiming.Scoreboard.Sampler

set_option autoImplicit false
set_option relaxedAutoImplicit false

namespace SerialTiming.Laws.StartStop

open CLib.Strings Line.Segments Scoreboard.Display Scoreboard.Clocks Scoreboard.Boards Scoreboard.Answers
open Scoreboard.Sampler Decoder.State Decoder.ReadData Framing Machines

/-- The trace ends where a clock frame was accepted and its row goes to the detector. -/
def EndsAtClock (trace : List Event) (row : Row) : Prop :=
  ∃ before f, trace = before ++ [.accept f, .checkStartStop row] ∧ f.channel = 0x00

/-- Start goes out only where the clock shows a time, and stop only where it shows zero. -/
def Agrees (trace : List Event) : Prop :=
  ∀ pre m post, trace = pre ++ .mqttSend m :: post →
    (m = startText → ∃ row, EndsAtClock pre row ∧ ¬ ShowsZero row) ∧
    (m = stopText → ∃ row, EndsAtClock pre row ∧ ShowsZero row)

/-- The rows the detector gets wrong. While the clock stands it takes the nibbles from 11 to 14, which show
nothing, for a time. While the clock runs and the detector looks, it misses the digit of cell 4. -/
def Misjudged (s : StartStop) (row : Row) : Prop :=
  (s.bStopping = false ∧ ShowsZero row ∧
    ∃ cell ∈ [row.get 6, row.get 8, row.get 10, row.get 12], 10 < cell ∧ cell ≠ 0x0F) ∨
  (s.bStopping = true ∧ s.Looks ∧ NullCells row ∧ checkBitValue (row.get 4) ≠ 0)

theorem ghost_iff {row : Row} (zero : ShowsZero row) :
    (∃ cell ∈ [row.get 6, row.get 8, row.get 10, row.get 12], 10 < cell ∧ cell ≠ 0x0F) ↔ ¬ NullCells row := by
  have blank (cell : UInt8) (none : checkBitValue cell = 0) :
      (10 < cell ∧ cell ≠ 0x0F) ↔ ¬ (cell = 0x00 ∨ cell = 0x0F) := by
    unfold checkBitValue at none
    split at none
    · rename_i high
      have nonzero : cell ≠ 0 := by
        rintro rfl
        exact absurd high (by decide)
      simp only [not_or]
      exact ⟨fun ghost => ⟨nonzero, ghost.2⟩, fun other => ⟨high, other.2⟩⟩
    · rename_i low
      simp only [none, true_or, not_true, iff_false]
      rintro ⟨high, _⟩
      exact absurd high (by decide)
  simp only [ShowsZero, displayedClock, List.mem_cons, List.not_mem_nil, or_false, forall_eq_or_imp,
    forall_eq] at zero
  obtain ⟨_, z6, z8, z10, z12⟩ := zero
  simp only [NullCells, List.mem_cons, List.not_mem_nil, or_false, exists_eq_or_imp, exists_eq_left,
    forall_eq_or_imp, forall_eq, blank _ z6, blank _ z8, blank _ z10, blank _ z12, not_and_or]

/-- A detector that has settled misjudges a row exactly when it switches and the display says otherwise. -/
theorem misjudged_iff {s : StartStop} (settled : s.pending = s.bStopping) (row : Row) :
    Misjudged s row ↔
      (s.watch row).bRunning ≠ s.bStopping ∧ ((s.watch row).bRunning = true ↔ ShowsZero row) := by
  rw [watch_bRunning]
  cases running : s.bStopping with
  | false =>
      have looks : s.Looks := .inr (settled.trans running)
      simp only [Misjudged, running, true_and, Bool.false_eq_true, false_and, or_false, if_pos looks]
      cases judged : rowNotNull row with
      | false =>
          have null := (rowNotNull_false row).mp judged
          simp only [ne_eq, not_true, false_and, iff_false, not_and]
          intro zero ghost
          exact (ghost_iff zero).mp ghost null
      | true =>
          have other : ¬ NullCells row := by simp [← rowNotNull_false, judged]
          simp only [ne_eq, Bool.true_eq_false, not_false_eq_true, true_and, true_iff, and_iff_left_iff_imp]
          exact fun zero => (ghost_iff zero).mpr other
  | true =>
      simp only [Misjudged, running, Bool.true_eq_false, false_and, true_and, false_or]
      by_cases looks : s.Looks
      · cases judged : rowNotNull row with
        | false =>
            have null := (rowNotNull_false row).mp judged
            simp [looks, null, null.showsZero]
        | true =>
            have other : ¬ NullCells row := by simp [← rowNotNull_false, judged]
            simp [looks, other]
      · simp [looks, settled, running]

private theorem switch_place {b : Board} {f : Segment} {front back : List Event} {m : List Char}
    (place : (b.frame f).2 = .accept f :: front ++ .mqttSend m :: back) (switch : m = startText ∨ m = stopText) :
    f.channel = 0x00 ∧ front = [.checkStartStop (b.read f)] ∧
      (b.startStop.watch (b.read f)).bRunning ≠ b.startStop.bStopping ∧
      m = if (b.startStop.watch (b.read f)).bRunning then startText else stopText := by
  have kind : kindOf m = .start ∨ kindOf m = .stop := by
    rcases switch with rfl | rfl
    · exact .inl kindOf_start
    · exact .inr kindOf_stop
  have sent : .mqttSend m ∈ (b.frame f).2 := by simp [place]
  have channel : f.channel = 0x00 := by
    rcases frame_message sent with ⟨lane, _, rfl, _⟩ | ⟨channel, _⟩ | ⟨_, rfl⟩ | ⟨_, round, rfl⟩
    · simp at kind
    · exact channel
    · simp at kind
    · simp at kind
  obtain ⟨t, gives, timed⟩ := frame_clock b channel
  have late : .mqttSend m ∉ .getTime (b.read f) :: t := by
    intro member
    have timeKind : kindOf m = .time := by
      rw [timed m (by simpa using member)]
      exact kindOf_time _
    simp [timeKind] at kind
  rw [gives] at place
  simp only [List.cons_append, List.cons.injEq, true_and] at place
  cases front with
  | nil => simp at place
  | cons e front =>
      simp only [List.cons_append, List.cons.injEq] at place
      obtain ⟨rfl, rest⟩ := place
      rcases onStartStop_cases (b.stored f) (b.read f) with ⟨_, stays⟩ | ⟨switches, tells⟩
      · rw [stays, List.nil_append] at rest
        exact absurd (by simp [rest]) late
      · rw [tells] at rest
        cases front with
        | nil =>
            simp only [List.nil_append, List.cons_append, List.cons.injEq, Event.mqttSend.injEq] at rest
            exact ⟨channel, rfl, switches, rest.1.symm⟩
        | cons e front =>
            simp only [List.cons_append, List.nil_append, List.cons.injEq] at rest
            exact absurd (by simp [rest.2]) late

private theorem frame_switches {b : Board} {f : Segment} (channel : f.channel = 0x00)
    (switches : (b.startStop.watch (b.read f)).bRunning ≠ b.startStop.bStopping) :
    ∃ back, (b.frame f).2 = [Event.accept f, Event.checkStartStop (b.read f)] ++
      Event.mqttSend (if (b.startStop.watch (b.read f)).bRunning then startText else stopText) :: back := by
  obtain ⟨t, gives, _⟩ := frame_clock b channel
  rcases onStartStop_cases (b.stored f) (b.read f) with ⟨same, _⟩ | ⟨_, tells⟩
  · exact absurd same switches
  · rw [tells] at gives
    exact ⟨_, gives⟩

private theorem EndsAtClock.row {trace before : List Event} {f : Segment} {row last : Row}
    (ends : EndsAtClock trace row) (split : trace = before ++ [.accept f, .checkStartStop last]) : row = last := by
  obtain ⟨before', f', same, _⟩ := ends
  rw [split] at same
  have tail := (List.append_inj' same rfl).2
  simp only [List.cons.injEq, Event.checkStartStop.injEq, and_true] at tail
  exact tail.2.symm

/-- Start and stop. On every line they agree with the published clock exactly when the detector misjudges
no clock row. -/
theorem switches_agree (host : Host) (bytes : List UInt8) :
    ∃ g, run host bytes = .ok g ∧
      (Agrees g.trace ↔
        ∀ g₁ f, Meets host bytes g₁ f → f.channel = 0x00 →
          ¬ Misjudged g₁.startStop (rowOf (storeFrame g₁.coloradoData f) f)) := by
  obtain ⟨g, ran, tracks⟩ := run_tracks host bytes
  refine ⟨g, ran, ?_, ?_⟩
  · intro agrees g₁ f meets channel
    obtain ⟨before, later, frames, shows⟩ := meets_split meets
    rw [shows_read shows, shows.startStop, misjudged_iff (settled_after before).pending]
    rintro ⟨switches, wrong⟩
    obtain ⟨back, gives⟩ := frame_switches channel switches
    have split : g.trace =
        (.mqttSend greeting :: (after before).2 ++ [.accept f, .checkStartStop ((after before).1.read f)]) ++
          .mqttSend (if ((after before).1.startStop.watch ((after before).1.read f)).bRunning then startText
            else stopText) :: (back ++ (Transducer.run Board.frame ((after before).1.frame f).1 later).2) := by
      rw [tracks.trace, frames, after_split, gives]
      simp
    obtain ⟨starts, stops⟩ := agrees _ _ _ split
    cases running : ((after before).1.startStop.watch ((after before).1.read f)).bRunning with
    | true =>
        rw [running, if_pos rfl] at starts
        obtain ⟨row, ends, shown⟩ := starts rfl
        rw [ends.row rfl] at shown
        exact shown (wrong.mp running)
    | false =>
        rw [running] at stops
        obtain ⟨row, ends, zero⟩ := stops rfl
        rw [ends.row rfl] at zero
        exact absurd (wrong.mpr zero) (by simp [running])
  · intro judged pre m post split
    -- a message at a frame that is not misjudged says what the frame shows
    have right (switch : m = startText ∨ m = stopText) : ∃ row, EndsAtClock pre row ∧
        (m = startText → ¬ ShowsZero row) ∧ (m = stopText → ShowsZero row) := by
      have told : kindOf m ≠ .other := by
        rcases switch with rfl | rfl
        · simp
        · simp
      obtain ⟨before, f, later, front, back, frames, place, rfl, -, -⟩ := tracks_sent tracks split told
      obtain ⟨channel, rfl, switches, rfl⟩ := switch_place place switch
      obtain ⟨g₁, meets, shows⟩ := split_meets host frames
      have agreed := judged g₁ f meets channel
      rw [shows_read shows, shows.startStop, misjudged_iff (settled_after before).pending, not_and] at agreed
      have differs := agreed switches
      refine ⟨_, ⟨_, f, rfl, channel⟩, ?_⟩
      cases running : ((after before).1.startStop.watch ((after before).1.read f)).bRunning with
      | true =>
          have shown : ¬ ShowsZero ((after before).1.read f) := fun zero => differs (by simp [running, zero])
          exact ⟨fun _ => shown, fun stop => absurd stop (by decide)⟩
      | false =>
          have zero : ShowsZero ((after before).1.read f) := by
            by_contra shown
            exact differs (by simp [running, shown])
          exact ⟨fun start => absurd start (by decide), fun _ => zero⟩
    exact ⟨fun start => by
      obtain ⟨row, ends, shown, _⟩ := right (.inl start)
      exact ⟨row, ends, shown start⟩, fun stop => by
      obtain ⟨row, ends, _, zero⟩ := right (.inr stop)
      exact ⟨row, ends, zero stop⟩⟩

def tenMinutes : List UInt8 :=
  (List.replicate 6 [0xBE, 0x10, 0x20, 0x36, 0x4A, 0x56, 0x66]).flatten ++
    [0xBE, 0x10, 0x2E, 0x3F, 0x4F, 0x5F, 0x6F, 0xBE]

/-- The race goes on into its tenth minute and stop goes out, at a published clock of 10:00,0. -/
theorem stops_at_tenMinutes :
    ∃ g before f row, run Host.reliable tenMinutes = .ok g ∧
      g.trace = before ++ [.accept f, .checkStartStop row] ++ [.mqttSend stopText, .getTime row] ∧
      timeText row = "time 10:00,0".toList ∧ ¬ Agrees g.trace := by
  obtain ⟨g, ran, tracks⟩ := run_tracks Host.reliable tenMinutes
  let f : Segment := ⟨0xBE, [0x10, 0x2E, 0x3F, 0x4F, 0x5F, 0x6F]⟩
  let row : Row := #v[1, 1, 15, 1, 1, 1, 0, 1, 0, 1, 0, 1, 0, 1, 1, 1]
  have computed : (Event.mqttSend greeting :: (after (countingFrames tenMinutes)).2).drop 20 =
      [.accept f, .checkStartStop row, .mqttSend stopText, .getTime row] := by
    decide +kernel
  rw [← tracks.trace] at computed
  have split : g.trace = g.trace.take 20 ++ [Event.accept f, Event.checkStartStop row] ++
      [Event.mqttSend stopText, Event.getTime row] := by
    rw [List.append_assoc]
    exact (List.take_append_drop 20 g.trace).symm.trans (congrArg _ computed)
  have shown : timeText row = "time 10:00,0".toList := by decide
  refine ⟨g, g.trace.take 20, f, row, ran, split, shown, ?_⟩
  intro agrees
  obtain ⟨last, ends, zero⟩ := (agrees _ _ _ split).2 rfl
  rw [ends.row rfl] at zero
  exact absurd zero (by decide)

end SerialTiming.Laws.StartStop
