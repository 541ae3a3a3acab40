/- module: SerialTiming/Laws/Cadence
   digest: The clock frames count out the time messages, and how many of them settle the send gate. -/

import SerialTiming.Laws.SendGate
import SerialTiming.Machines.Convergence

set_option autoImplicit false
set_option relaxedAutoImplicit false

namespace SerialTiming.Laws.Cadence

open CLib.Strings Line.Segments Scoreboard.Display Scoreboard.Clocks Scoreboard.Boards Scoreboard.Answers
open Decoder.State Decoder.ReadData Framing SendGate Machines

def timeMessages (trace : List Event) : Nat := trace.countP (sends · == some .time)

@[simp] theorem timeMessages_append (xs ys : List Event) :
    timeMessages (xs ++ ys) = timeMessages xs + timeMessages ys := List.countP_append

/-- What `loopcount` is after `n` clock frames: it counts to 21 and starts again at 1. -/
def phase (n : Nat) : Nat := if n = 0 then 0 else (n - 1) % 21 + 1

def tick (row : Row) (c : RunningTime) : RunningTime :=
  if c.loopcount > sendTimeEveryCounts then
    { (if c.headerChange then c else (timehundredth row c).2) with headerChange := false, loopcount := 1 }
  else { c with loopcount := c.loopcount + 1 }

theorem onTime_tick (b : Board) (row : Row) : (b.onTime row).1.clock = tick row b.clock := by
  simp only [Board.onTime, tick]
  split <;> rfl

theorem frame_clock_record (b : Board) (f : Segment) :
    (f.channel = 0x00 ∧ (b.frame f).1.clock = tick (b.read f) b.clock) ∨
    (f.channel ≠ 0x00 ∧ (b.frame f).1.clock = b.clock) ∨
    (f.channel ≠ 0x00 ∧ (b.frame f).1.clock = setsendActiveStateOff b.clock ∧ ¬ Headerless (b.frame f).2) := by
  have reply := frame_reply b f
  generalize b.frame f = answer at reply
  cases reply with
  | lane lane number =>
      obtain ⟨heat, place, rest⟩ := onLane_frame (b.stored f) lane (b.read f)
      have same := congrArg Board.clock rest
      exact .inr (.inl ⟨number ▸ lane.number_ne, same⟩)
  | clock channel =>
      obtain ⟨heat, place, rest⟩ := onStartStop_frame (b.stored f) (b.read f)
      have same : ((b.stored f).onStartStop (b.read f)).1.clock = b.clock := by
        rw [rest]
        rfl
      exact .inl ⟨channel, by rw [onTime_tick, same]⟩
  | header channel =>
      have other : f.channel ≠ 0x00 := by simp [channel]
      rcases onHeader_cases (b.stored f) (b.read f) with ⟨_, known⟩ | ⟨_, new⟩
      · exact .inr (.inl ⟨other, congrArg (fun r => r.1.clock) known⟩)
      · refine .inr (.inr ⟨other, congrArg (fun r => r.1.clock) new, ?_⟩)
        rw [new]
        intro headerless
        have sent : sends (.mqttSend (headerText (b.read f))) ≠ some .header := headerless _ (by simp)
        exact sent (congrArg some (kindOf_header (b.read f)))
  | rounds channel => exact .inr (.inl ⟨by simp [channel], rfl⟩)
  | nothing channel =>
      have other : f.channel ≠ 0x00 := by
        intro zero
        simp [zero] at channel
      exact .inr (.inl ⟨other, rfl⟩)

theorem tick_due (row : Row) {c : RunningTime} (due : 20 < c.loopcount) :
    tick row c = { (if c.headerChange then c else (timehundredth row c).2) with
      headerChange := false, loopcount := 1 } := if_pos due

theorem tick_early (row : Row) {c : RunningTime} (early : c.loopcount ≤ 20) :
    tick row c = { c with loopcount := c.loopcount + 1 } := if_neg (Nat.not_lt.mpr early)

theorem tick_loopcount (row : Row) (c : RunningTime) :
    (tick row c).loopcount = if 20 < c.loopcount then 1 else c.loopcount + 1 := by
  by_cases due : 20 < c.loopcount
  · rw [if_pos due, tick_due row due]
  · rw [if_neg due, tick_early row (Nat.le_of_not_lt due)]

theorem frame_loopcount (b : Board) (f : Segment) :
    (b.frame f).1.clock.loopcount =
      if f.channel = 0x00 then if 20 < b.clock.loopcount then 1 else b.clock.loopcount + 1
      else b.clock.loopcount := by
  rcases frame_clock_record b f with ⟨channel, clock⟩ | ⟨channel, clock⟩ | ⟨channel, clock, _⟩
  · rw [if_pos channel, clock, tick_loopcount]
  · rw [if_neg channel, clock]
  · rw [if_neg channel, clock]
    rfl

theorem frame_timeMessages (b : Board) (f : Segment) :
    timeMessages (b.frame f).2 = if f.channel = 0x00 ∧ 20 < b.clock.loopcount then 1 else 0 := by
  by_cases channel : f.channel = 0x00
  · have clock : ((b.stored f).onStartStop (b.read f)).1.clock = b.clock := by
      obtain ⟨heat, place, rest⟩ := onStartStop_frame (b.stored f) (b.read f)
      rw [rest]
      rfl
    have switch : timeMessages ((b.stored f).onStartStop (b.read f)).2 = 0 := by
      rcases onStartStop_cases (b.stored f) (b.read f) with ⟨_, stays⟩ | ⟨_, switches⟩
      · rw [stays]
        rfl
      · rw [switches]
        split <;> rfl
    have time : timeMessages (((b.stored f).onStartStop (b.read f)).1.onTime (b.read f)).2 =
        if 20 < b.clock.loopcount then 1 else 0 := by
      rcases onTime_cases ((b.stored f).onStartStop (b.read f)).1 (b.read f) with ⟨early, counts⟩ | ⟨due, samples⟩
      · rw [clock] at early
        rw [counts, if_neg (Nat.not_lt.mpr early)]
        rfl
      · rw [clock] at due
        rw [samples, if_pos due]
        rfl
    have parts (xs ys : List Event) (row : Row) :
        timeMessages (.accept f :: .checkStartStop row :: xs ++ .getTime row :: ys) =
          timeMessages xs + timeMessages ys := by
      simp [timeMessages, sends]
    rw [frame_detector b channel, parts, switch, time]
    simp only [channel, true_and, Nat.zero_add]
  · rw [if_neg fun both => channel both.1, timeMessages, List.countP_eq_zero]
    intro e member
    cases e with
    | mqttSend m =>
        rcases frame_message member with ⟨lane, _, rfl, _⟩ | ⟨clock, _⟩ | ⟨_, rfl⟩ | ⟨_, round, rfl⟩
        · simp [sends]
        · exact absurd clock channel
        · simp [sends]
        · simp [sends]
    | _ => simp [sends]

theorem frame_clockFrames (b : Board) (f : Segment) :
    clockFrames (b.frame f).2 = if f.channel = 0x00 then 1 else 0 := by
  rw [clockFrames, accepted_frame, List.countP_singleton]
  simp

private theorem phase_step (n : Nat) : phase (n + 1) = if 20 < phase n then 1 else phase n + 1 := by
  simp only [phase, Nat.add_one_ne_zero, ↓reduceIte, Nat.add_sub_cancel]
  by_cases first : n = 0
  · simp [first]
  · simp only [first, ↓reduceIte]
    split <;> omega

private theorem phase_due (n : Nat) : n / 21 = (n - 1) / 21 + if 20 < phase n then 1 else 0 := by
  simp only [phase]
  by_cases first : n = 0
  · simp [first]
  · simp only [first, ↓reduceIte]
    split <;> omega

private def clocks (frames : List Segment) : Nat := frames.countP (·.channel = 0x00)

/-- The time messages and `loopcount` are told by the number of clock frames alone. -/
theorem after_cadence (frames : List Segment) :
    (after frames).1.clock.loopcount = phase (clocks frames) ∧
      timeMessages (after frames).2 = (clocks frames - 1) / 21 := by
  induction frames using List.reverseRecOn with
  | nil => exact ⟨rfl, rfl⟩
  | append_singleton frames f ih =>
      obtain ⟨loopcount, times⟩ := ih
      rw [after_snoc]
      simp only [timeMessages_append, frame_loopcount, frame_timeMessages, loopcount, times, clocks,
        List.countP_append, List.countP_singleton, decide_eq_true_eq]
      by_cases channel : f.channel = 0x00
      · simp only [channel, ↓reduceIte, true_and, Nat.add_sub_cancel]
        exact ⟨(phase_step _).symm, (phase_due _).symm⟩
      · simp [channel]

theorem tracks_phase {bytes : List UInt8} {g : Globals} (tracks : Tracks bytes g) :
    (after (countingFrames bytes)).1.clock.loopcount = phase (clockFrames g.trace) := by
  rw [(after_cadence _).1, clockFrames, tracks_accepted tracks]
  rfl

theorem phase_eq {m n : Nat} (first : 0 < m) (second : 0 < n) : phase m = phase n ↔ m % 21 = n % 21 := by
  simp only [phase]
  rw [if_neg (by omega), if_neg (by omega)]
  omega

/-- The clock frames up to the next one that sends the time. -/
private def wait (c : RunningTime) : Nat := max 1 (22 - c.loopcount)

/-- The clock frames until the gate has surely turned to `isOpen`: a header change lets one time message pass
without a look at the clock. -/
private def untilTurned (isOpen : Bool) (c : RunningTime) : Nat :=
  if c.sendActiveState = isOpen then 0 else wait c + if c.headerChange then 21 else 0

/-- A clock row is on the side of the limit where the gate turns to `isOpen`. -/
def Turns (isOpen : Bool) (row : Row) : Prop := if isOpen then 200 < clockValue row else clockValue row < 200

private theorem tick_turns {isOpen : Bool} {row : Row} {c : RunningTime} (turns : Turns isOpen row) :
    untilTurned isOpen (tick row c) ≤ untilTurned isOpen c - 1 := by
  have sampled : (timehundredth row c).2.sendActiveState = isOpen := by
    have opened := timehundredth_open row c
    cases isOpen with
    | true =>
        have above : 200 < clockValue row := turns
        exact opened.mpr (.inl above)
    | false =>
        have below : clockValue row < 200 := turns
        apply Bool.of_not_eq_true
        intro wrong
        have reading := opened.mp wrong
        omega
  by_cases due : 20 < c.loopcount
  · rw [tick_due row due]
    cases changed : c.headerChange with
    | true =>
        simp only [untilTurned, wait, changed, ↓reduceIte, Bool.false_eq_true]
        split <;> omega
    | false => simp [untilTurned, sampled]
  · have early : c.loopcount ≤ 20 := Nat.le_of_not_lt due
    rw [tick_early row early]
    simp only [untilTurned, wait]
    split
    · omega
    · split <;> omega

private theorem changed_closed (frames : List Segment) :
    (after frames).1.clock.headerChange = true → (after frames).1.clock.sendActiveState = false := by
  refine after_invariant (fun b _ => b.clock.headerChange = true → b.clock.sendActiveState = false) nofun ?_ frames
  intro b out f closed
  rcases frame_clock_record b f with ⟨_, clock⟩ | ⟨_, clock⟩ | ⟨_, clock, _⟩
  · rw [clock]
    by_cases due : 20 < b.clock.loopcount
    · rw [tick_due _ due]
      nofun
    · rw [tick_early _ (Nat.le_of_not_lt due)]
      exact closed
  · rw [clock]
    exact closed
  · rw [clock]
    exact fun _ => rfl

private theorem clocks_run (b : Board) (frames : List Segment) :
    clockFrames (Transducer.run Board.frame b frames).2 = clocks frames := by
  induction frames generalizing b with
  | nil => rfl
  | cons f frames ih =>
      simp only [Transducer.run, clockFrames_append, frame_clockFrames, ih, clocks, List.countP_cons, decide_eq_true_eq]
      omega

private theorem getTime_mem (b : Board) (f : Segment) (channel : f.channel = 0x00) :
    .getTime (b.read f) ∈ (b.frame f).2 := by
  rw [frame_detector b channel]
  simp

/-- While all clock rows are on one side of the limit the gate turns there, and the frames that may pass first
are counted; an opening gate must not be closed by a new header. -/
private theorem run_turns (isOpen : Bool) (b : Board) (frames : List Segment)
    (quiet : isOpen = true → Headerless (Transducer.run Board.frame b frames).2)
    (rows : ∀ row, .getTime row ∈ (Transducer.run Board.frame b frames).2 → Turns isOpen row) :
    untilTurned isOpen (Transducer.run Board.frame b frames).1.clock ≤ untilTurned isOpen b.clock - clocks frames := by
  refine Convergence.run_countdown Board.frame (untilTurned isOpen ·.clock) (·.channel = 0x00)
    (fun c f => (isOpen = true → Headerless (c.frame f).2) ∧ ∀ row, .getTime row ∈ (c.frame f).2 → Turns isOpen row)
    ?_ b frames ?_
  · rintro c f ⟨quiet, rows⟩
    rcases frame_clock_record c f with ⟨channel, clock⟩ | ⟨channel, clock⟩ | ⟨channel, clock, header⟩
    · simp only [clock, channel, decide_true, ↓reduceIte]
      exact tick_turns (rows _ (getTime_mem c f channel))
    · simp [clock, channel]
    · cases isOpen with
      | true => exact absurd (quiet rfl) header
      | false => simp [clock, untilTurned, setsendActiveStateOff]
  · rintro before f later rfl
    have inside (e : Event) (member : e ∈ ((Transducer.run Board.frame b before).1.frame f).2) :
        e ∈ (Transducer.run Board.frame b (before ++ f :: later)).2 := by
      rw [Transducer.step_outputs]
      simp [member]
    exact ⟨fun opens e member => quiet opens e (inside e member), fun row member => rows row (inside _ member)⟩

end SerialTiming.Laws.Cadence
