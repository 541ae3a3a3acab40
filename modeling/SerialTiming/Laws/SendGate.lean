/- module: SerialTiming/Laws/SendGate
   digest: When lane messages go out: what the clock must have shown and what must have been sent before. -/

import SerialTiming.Laws.Framing
import SerialTiming.Scoreboard.Sampler

set_option autoImplicit false
set_option relaxedAutoImplicit false

namespace SerialTiming.Laws.SendGate

open CLib.Strings Line.Segments Scoreboard.Display Scoreboard.Clocks Scoreboard.Boards Scoreboard.Answers
open Scoreboard.Sampler Decoder.State Decoder.ReadData Framing Machines

/-- The rows with which getTime was called and sent the time. -/
def timesSent : List Event → List Row
  | .getTime row :: .mqttSend _ :: rest => row :: timesSent rest
  | _ :: rest => timesSent rest
  | [] => []

def clockFrames (trace : List Event) : Nat := (accepted trace).countP (·.channel = 0x00)

def Headerless (es : List Event) : Prop := ∀ e ∈ es, sends e ≠ some .header

/-- `after` is what happened after some header message. -/
def AfterHeader (trace after : List Event) : Prop :=
  ∃ before m, trace = before ++ .mqttSend m :: after ∧ kindOf m = .header

/-- The clock opened the gate. At the clock frame `f` the time was sent with a clock above the limit, and
if a header was announced before, another time was sent in between; since then no header was announced and
no time was sent with a clock below the limit. -/
structure Opened (trace : List Event) : Prop where
  intro ::
  exists_frame : ∃ before f between row since,
    trace = before ++ .accept f :: between ++ .getTime row :: .mqttSend (timeText row) :: since ∧
    f.channel = 0x00 ∧ accepted between = [] ∧ 200 < clockValue row ∧
    Headerless since ∧ (∀ r ∈ timesSent since, 200 ≤ clockValue r) ∧
    ∀ after, AfterHeader before after → Headerless after → timesSent after ≠ []

private theorem timesSent_append (xs : List Event) (f : Segment) (ys : List Event) :
    timesSent (xs ++ .accept f :: ys) = timesSent xs ++ timesSent (.accept f :: ys) := by
  fun_induction timesSent xs with
  | case1 row m rest ih => simp only [List.cons_append, timesSent, ih]
  | case2 e rest other ih =>
      rw [List.cons_append, ← ih, timesSent]
      -- the event after `e` is the next of `rest`, or the acceptance, and that is no message
      rintro row m rest' rfl next
      cases rest with
      | nil => simp at next
      | cons e' rest =>
          simp only [List.cons_append, List.cons.injEq] at next
          exact other row m rest rfl (by rw [next.1])
  | case3 => rfl

@[simp] theorem clockFrames_append (xs ys : List Event) :
    clockFrames (xs ++ ys) = clockFrames xs + clockFrames ys := by
  simp [clockFrames]

/-- What a frame does to the clock: nothing, closing the gate for a header, counting, or sending the time. -/
private inductive ClockEffect (b : Board) (f : Segment) : Board × List Event → Prop where
  | quiet (c : Board) (es : List Event) (clock : c.clock = b.clock) (channel : f.channel ≠ 0x00)
      (headerless : Headerless es) (noTime : timesSent (.accept f :: es) = []) :
      ClockEffect b f (c, .accept f :: es)
  | header (c : Board) (es : List Event) (clock : c.clock = setsendActiveStateOff b.clock)
      (channel : f.channel ≠ 0x00) : ClockEffect b f (c, .accept f :: es)
  | count (c : Board) (es : List Event) (channel : f.channel = 0x00) (early : b.clock.loopcount ≤ 20)
      (clock : c.clock = { b.clock with loopcount := b.clock.loopcount + 1 }) (headerless : Headerless es)
      (noTime : timesSent (.accept f :: es) = []) : ClockEffect b f (c, .accept f :: es)
  | time (c : Board) (between : List Event) (channel : f.channel = 0x00)
      (due : 20 < b.clock.loopcount) (inside : accepted between = [])
      (clock : c.clock = { (if b.clock.headerChange then b.clock else (timehundredth (b.read f) b.clock).2) with
        headerChange := false, loopcount := 1 })
      (headerless : Headerless (between ++ [.getTime (b.read f), .mqttSend (timeText (b.read f))]))
      (sent : timesSent (.accept f :: (between ++ [.getTime (b.read f), .mqttSend (timeText (b.read f))])) =
        [b.read f]) :
      ClockEffect b f (c, .accept f :: (between ++ [.getTime (b.read f), .mqttSend (timeText (b.read f))]))

private theorem frame_clockEffect (b : Board) (f : Segment) : ClockEffect b f (b.frame f) := by
  have reply := frame_reply b f
  generalize b.frame f = answer at reply
  cases reply with
  | lane lane number =>
      have other : f.channel ≠ 0x00 := number ▸ lane.number_ne
      obtain ⟨heat, place, rest⟩ := onLane_frame (b.stored f) lane (b.read f)
      have clock := congrArg Board.clock rest
      refine .quiet _ _ clock other ?_ ?_
      · rcases onLane_cases (b.stored f) lane (b.read f) with ⟨_, told⟩ | ⟨_, silent, _⟩
        · simp only [told, Board.laneEvents]
          split <;> simp [Headerless, sends]
        · simp [silent, Headerless, sends]
      · rcases onLane_cases (b.stored f) lane (b.read f) with ⟨_, told⟩ | ⟨_, silent, _⟩
        · simp only [told, Board.laneEvents]
          split <;> rfl
        · simp only [silent, timesSent]
  | clock channel =>
      obtain ⟨heat, place, rest⟩ := onStartStop_frame (b.stored f) (b.read f)
      have same : ((b.stored f).onStartStop (b.read f)).1.clock = b.clock := by
        rw [rest]
        rfl
      have switch : ((b.stored f).onStartStop (b.read f)).2 = [] ∨
          ∃ m, (m = startText ∨ m = stopText) ∧ ((b.stored f).onStartStop (b.read f)).2 = [.mqttSend m] := by
        rcases onStartStop_cases (b.stored f) (b.read f) with ⟨_, stays⟩ | ⟨_, switches⟩
        · exact .inl (congrArg Prod.snd stays)
        · refine .inr ⟨_, ?_, congrArg Prod.snd switches⟩
          split
          · exact .inl rfl
          · exact .inr rfl
      have cases := onTime_cases ((b.stored f).onStartStop (b.read f)).1 (b.read f)
      rw [same] at cases
      generalize (b.stored f).onStartStop (b.read f) = r at switch cases ⊢
      rcases cases with ⟨early, counts⟩ | ⟨due, samples⟩
      · rw [counts]
        refine .count _ _ channel early rfl ?_ ?_
        · rcases switch with none | ⟨m, rfl | rfl, one⟩ <;> simp [*, Headerless, sends]
        · rcases switch with none | ⟨m, rfl | rfl, one⟩ <;> simp [*, timesSent]
      · rw [samples]
        refine .time _ (.checkStartStop (b.read f) :: r.2) channel due ?_ rfl ?_ ?_
        · rcases switch with none | ⟨m, rfl | rfl, one⟩ <;> simp [*, accepted, accepts]
        · rcases switch with none | ⟨m, rfl | rfl, one⟩ <;> simp [*, Headerless, sends]
        · rcases switch with none | ⟨m, rfl | rfl, one⟩ <;> simp [*, timesSent]
  | header channel =>
      have other : f.channel ≠ 0x00 := by simp [channel]
      rcases onHeader_cases (b.stored f) (b.read f) with ⟨_, known⟩ | ⟨_, new⟩
      · rw [known]
        exact .quiet _ _ rfl other (by simp [Headerless, sends]) rfl
      · rw [new]
        exact .header _ _ rfl other
  | rounds channel =>
      have other : f.channel ≠ 0x00 := by simp [channel]
      refine .quiet _ _ rfl other ?_ ?_
      · simp only [Board.onRounds]
        split <;> simp [Headerless, sends]
      · simp only [Board.onRounds]
        split <;> rfl
  | nothing channel =>
      have other : f.channel ≠ 0x00 := by
        intro zero
        simp [zero] at channel
      exact .quiet _ _ rfl other (by simp [Headerless]) rfl

private theorem clockFrames_accept {f : Segment} (channel : f.channel = 0x00) (es : List Event) :
    clockFrames (.accept f :: es) = clockFrames es + 1 := by
  have first : accepted (.accept f :: es) = f :: accepted es := rfl
  rw [clockFrames, first, List.countP_cons_of_pos (by simpa using channel), clockFrames]

private theorem headerless_append {xs ys : List Event} :
    Headerless (xs ++ ys) ↔ Headerless xs ∧ Headerless ys := by
  simp only [Headerless, List.mem_append, or_imp, forall_and]

private theorem AfterHeader.earlier {out es after : List Event} (later : AfterHeader (out ++ es) after)
    (headerless : Headerless es) : ∃ rest, AfterHeader out rest ∧ after = rest ++ es := by
  obtain ⟨before, m, split, kind⟩ := later
  have header : sends (.mqttSend m) = some .header := congrArg some kind
  rcases List.append_eq_append_iff.mp split with ⟨mid, rfl, rfl⟩ | ⟨mid, rfl, tail⟩
  · exact absurd header (headerless _ (by simp))
  · cases mid with
    | nil =>
        rw [List.nil_append] at tail
        exact absurd header (headerless _ (by simp [← tail]))
    | cons e mid =>
        simp only [List.cons_append, List.cons.injEq] at tail
        obtain ⟨rfl, rfl⟩ := tail
        exact ⟨mid, ⟨before, m, rfl, kind⟩, rfl⟩

private theorem Opened.append {out es : List Event} {f : Segment} (opened : Opened out)
    (headerless : Headerless es) (above : ∀ r ∈ timesSent (.accept f :: es), 200 ≤ clockValue r) :
    Opened (out ++ .accept f :: es) := by
  obtain ⟨before, f', between, row, since, rfl, channel, inside, clock, noHeader, low, other⟩ := opened
  refine ⟨before, f', between, row, since ++ .accept f :: es, by simp, channel, inside, clock, ?_, ?_, other⟩
  · intro e member
    simp only [List.mem_append, List.mem_cons] at member
    rcases member with old | rfl | new
    · exact noHeader e old
    · simp [sends]
    · exact headerless e new
  · intro r member
    rw [timesSent_append, List.mem_append] at member
    exact member.elim (low r) (above r)

/-- What the clock's globals say about the trace. -/
private structure Gate (b : Board) (trace : List Event) : Prop where
  closed : b.clock.headerChange = true → b.clock.sendActiveState = false
  counted : ∀ after, AfterHeader trace after →
    (b.clock.headerChange = true ∨ b.clock.loopcount ≤ clockFrames after) ∧
    (b.clock.sendActiveState = true → 22 ≤ clockFrames after)
  timed : ∀ after, AfterHeader trace after → Headerless after →
    b.clock.headerChange = true ∨ timesSent after ≠ []
  opened : b.clock.sendActiveState = true → Opened trace

private theorem Gate.silent {b c : Board} {trace es : List Event} {f : Segment} (gate : Gate b trace)
    (headerless : Headerless es) (noTime : timesSent (.accept f :: es) = [])
    (sameChange : c.clock.headerChange = b.clock.headerChange)
    (sameState : c.clock.sendActiveState = b.clock.sendActiveState)
    (counts : c.clock.loopcount ≤ b.clock.loopcount + clockFrames (.accept f :: es)) :
    Gate c (trace ++ .accept f :: es) := by
  have noHeader : Headerless (.accept f :: es) := by simpa [Headerless, sends] using headerless
  constructor
  · rw [sameChange, sameState]
    exact gate.closed
  · intro after later
    obtain ⟨rest, earlier, rfl⟩ := later.earlier noHeader
    obtain ⟨counted, enough⟩ := gate.counted rest earlier
    rw [sameChange, sameState, clockFrames_append]
    constructor
    · exact counted.imp_right fun le => by omega
    · intro isOpen
      have := enough isOpen
      omega
  · intro after later none
    obtain ⟨rest, earlier, rfl⟩ := later.earlier noHeader
    rw [sameChange, timesSent_append, noTime, List.append_nil]
    exact gate.timed rest earlier (headerless_append.mp none).1
  · intro isOpen
    exact (gate.opened (sameState ▸ isOpen)).append headerless (by simp [noTime])

private theorem gate_frame {b : Board} {trace : List Event} (f : Segment) (gate : Gate b trace) :
    Gate (b.frame f).1 (trace ++ (b.frame f).2) := by
  have effect := frame_clockEffect b f
  generalize b.frame f = answer at effect
  cases effect with
  | quiet c es clock channel headerless noTime =>
      exact gate.silent headerless noTime (by rw [clock]) (by rw [clock]) (by rw [clock]; omega)
  | header c es clock channel =>
      have changed : c.clock.headerChange = true := by rw [clock, setsendActiveStateOff]
      have shut : c.clock.sendActiveState = false := by rw [clock, setsendActiveStateOff]
      exact ⟨fun _ => shut, fun _ _ => ⟨.inl changed, fun isOpen => absurd (isOpen.symm.trans shut) (by decide)⟩,
        fun _ _ _ => .inl changed, fun isOpen => absurd (isOpen.symm.trans shut) (by decide)⟩
  | count c es channel early clock headerless noTime =>
      refine gate.silent headerless noTime (by rw [clock]) (by rw [clock]) ?_
      rw [clock, clockFrames_accept channel]
      simp only
      omega
  | time c between channel due inside clock headerless sent =>
      have noHeader : Headerless
          (.accept f :: (between ++ [.getTime (b.read f), .mqttSend (timeText (b.read f))])) := by
        simpa [Headerless, sends] using headerless
      -- the sample is skipped after a header, and then the gate was closed before
      have sampled (isOpen : c.clock.sendActiveState = true) : b.clock.headerChange = false ∧
          (200 < clockValue (b.read f) ∨ (clockValue (b.read f) = 200 ∧ b.clock.sendActiveState = true)) := by
        cases changed : b.clock.headerChange with
        | true =>
            simp only [clock, changed, ↓reduceIte, gate.closed changed, Bool.false_eq_true] at isOpen
        | false =>
            simp only [clock, changed, Bool.false_eq_true, ↓reduceIte] at isOpen
            exact ⟨rfl, (timehundredth_open (b.read f) b.clock).mp isOpen⟩
      refine ⟨by simp [clock], ?_, ?_, ?_⟩
      · intro after later
        obtain ⟨rest, earlier, rfl⟩ := later.earlier noHeader
        obtain ⟨counts, _⟩ := gate.counted rest earlier
        simp only [clockFrames_append, clockFrames_accept channel]
        refine ⟨.inr (by simp only [clock]; omega), fun isOpen => ?_⟩
        rw [(sampled isOpen).1] at counts
        have enough := counts.resolve_left (by decide)
        omega
      · intro after later none
        obtain ⟨rest, earlier, rfl⟩ := later.earlier noHeader
        exact .inr (by simp [timesSent_append, sent])
      · intro isOpen
        obtain ⟨unchanged, above | ⟨limit, wasOpen⟩⟩ := sampled isOpen
        · refine ⟨trace, f, between, b.read f, [], by simp, channel, inside, above, by simp [Headerless],
            by simp [timesSent], fun after earlier none => ?_⟩
          have timed := gate.timed after earlier none
          rw [unchanged] at timed
          exact timed.resolve_left (by decide)
        · exact (gate.opened wasOpen).append headerless (by simp [sent, limit])

private theorem gate_after (frames : List Segment) :
    Gate (after frames).1 (.mqttSend greeting :: (after frames).2) := by
  refine after_invariant (fun b out => Gate b (.mqttSend greeting :: out)) ?_ ?_ frames
  · have noHeader (rest : List Event) : ¬ AfterHeader [.mqttSend greeting] rest := by
      rintro ⟨before, m, split, kind⟩
      have member : .mqttSend m ∈ [Event.mqttSend greeting] := by simp [split]
      have other : kindOf greeting = .other := rfl
      obtain rfl : m = greeting := by simpa using member
      exact absurd (kind.symm.trans other) (by decide)
    exact ⟨nofun, fun rest later => absurd later (noHeader rest), fun rest later _ => absurd later (noHeader rest),
      nofun⟩
  · intro b out f gate
    exact gate_frame f gate

/-- A lane message goes out while the gate is open, right after its lane's handler handed it over. -/
private theorem lane_place {b : Board} {f : Segment} {front back : List Event} {m : List Char}
    (place : (b.frame f).2 = .accept f :: front ++ .mqttSend m :: back) (kind : kindOf m = .lane) :
    b.clock.sendActiveState = true ∧ ∃ lane row text, front = [.analyseActiveData lane row, .sendLaneData text] := by
  have sent : .mqttSend m ∈ (b.frame f).2 := by simp [place]
  have reply := frame_reply b f
  have range : 1 ≤ f.channel.toNat ∧ f.channel.toNat ≤ 10 := by
    rcases frame_message sent with ⟨lane, number, -⟩ | ⟨-, rfl | rfl | rfl⟩ | ⟨-, rfl⟩ | ⟨-, round, rfl⟩
    · exact number ▸ lane.inRange
    · simp at kind
    · simp at kind
    · simp at kind
    · simp at kind
    · simp at kind
  generalize b.frame f = answer at reply place
  cases reply with
  | lane lane number =>
      rw [List.cons_append, List.cons.injEq] at place
      cases front with
      | nil => simp at place
      | cons call front =>
          simp only [List.cons_append, List.cons.injEq, true_and] at place
          obtain ⟨rfl, events⟩ := place
          rcases onLane_cases (b.stored f) lane (b.read f) with ⟨_, told⟩ | ⟨_, silent, _⟩
          · simp only [told, Board.laneEvents] at events
            cases front with
            | nil => simp at events
            | cons handed front =>
                simp only [List.cons_append, List.cons.injEq] at events
                obtain ⟨rfl, events⟩ := events
                split at events
                · rename_i isOpen
                  cases front with
                  | nil => exact ⟨isOpen, _, _, _, rfl⟩
                  | cons e front => simp at events
                · simp at events
          · simp [silent] at events
  | clock channel => simp [channel] at range
  | header channel => simp [channel] at range
  | rounds channel => simp [channel] at range
  | nothing channel =>
      have twelve : (0x0C : UInt8).toNat = 12 := rfl
      omega

private theorem lane_sent {bytes : List UInt8} {g : Globals} (tracks : Tracks bytes g) {pre post : List Event}
    {m : List Char} (split : g.trace = pre ++ .mqttSend m :: post) (kind : kindOf m = .lane) :
    ∃ (before : List Segment) (f : Segment) (later : List Segment) (lane : UInt8) (row : Row) (text : List Char),
      countingFrames bytes = before ++ f :: later ∧ (after before).1.clock.sendActiveState = true ∧
      pre = Event.mqttSend greeting :: (after before).2 ++
        Event.accept f :: [Event.analyseActiveData lane row, Event.sendLaneData text] := by
  obtain ⟨before, f, later, front, back, frames, place, rfl, -, -⟩ := tracks_sent tracks split (by simp [kind])
  obtain ⟨isOpen, lane, row, text, rfl⟩ := lane_place place kind
  exact ⟨before, f, later, lane, row, text, frames, isOpen, rfl⟩

/-- The gate. On every line a lane message goes out only after the clock opened the gate, and no sooner
than 22 clock frames after any header change. -/
theorem lanes_after_opening (host : Host) (bytes : List UInt8) :
    ∃ g, run host bytes = .ok g ∧
      ∀ pre m post, g.trace = pre ++ .mqttSend m :: post → kindOf m = .lane →
        Opened pre ∧ ∀ after, AfterHeader pre after → 22 ≤ clockFrames after := by
  obtain ⟨g, ran, tracks⟩ := run_tracks host bytes
  refine ⟨g, ran, ?_⟩
  intro pre m post split kind
  obtain ⟨before, f, later, lane, row, text, _, isOpen, rfl⟩ := lane_sent tracks split kind
  have gate := gate_after before
  have noHeader : Headerless [.analyseActiveData lane row, .sendLaneData text] := by
    simp [Headerless, sends]
  have quiet : Headerless [.accept f, .analyseActiveData lane row, .sendLaneData text] := by
    simp [Headerless, sends]
  constructor
  · exact (gate.opened isOpen).append noHeader (by simp [timesSent])
  · intro after later
    obtain ⟨rest, earlier, rfl⟩ := later.earlier quiet
    have enough := (gate.counted rest earlier).2 isOpen
    rw [clockFrames_append]
    omega

def lastSwitch (trace : List Event) : Option Kind :=
  ((trace.filterMap sends).filter fun kind => kind = .start ∨ kind = .stop).getLast?

def Samples (c : RunningTime) : Prop := 20 < c.loopcount ∧ c.headerChange = false

instance (c : RunningTime) : Decidable (Samples c) := inferInstanceAs (Decidable (_ ∧ _))

/-- The clock frames that leave the gate open while the detector takes the clock for standing: cells 6 to 12
hold only zeros and blanks when the detector looks, and the gate is open and not read again, or it is read
and the digit of cell 4 opens it. -/
def Slips (c : RunningTime) (s : StartStop) (row : Row) : Prop :=
  s.Looks ∧ NullCells row ∧ if Samples c then checkBitValue (row.get 4) ≠ 0 else c.sendActiveState = true

theorem lastSwitch_append (xs ys : List Event) : lastSwitch (xs ++ ys) = (lastSwitch ys).or (lastSwitch xs) := by
  simp only [lastSwitch, List.filterMap_append, List.filter_append, List.getLast?_append]

private theorem frame_lastSwitch (b : Board) (f : Segment) :
    lastSwitch (b.frame f).2 =
      if f.channel = 0x00 ∧ (b.startStop.watch (b.read f)).bRunning ≠ b.startStop.bStopping then
        some (if (b.startStop.watch (b.read f)).bRunning then .start else .stop)
      else none := by
  have last : lastSwitch (b.frame f).2 = (told b.startStop (clockRows (b.frame f).2)).getLast? :=
    congrArg List.getLast? (frame_switches b f)
  rw [last, frame_clockRows]
  by_cases channel : f.channel = 0x00
  · simp only [channel, ↓reduceIte, true_and, told, List.append_nil]
    split
    · rename_i switched
      have changed : (b.startStop.watch (b.read f)).bRunning ≠ b.startStop.bStopping := switched
      rw [if_pos changed]
      rfl
    · rename_i same
      have kept : ¬ (b.startStop.watch (b.read f)).bRunning ≠ b.startStop.bStopping := same
      rw [if_neg kept]
      rfl
  · simp [channel, told]

private theorem frame_open {b : Board} {f : Segment} (channel : f.channel = 0x00) :
    (b.frame f).1.clock.sendActiveState = true ↔
      if Samples b.clock then
        200 < clockValue (b.read f) ∨ (clockValue (b.read f) = 200 ∧ b.clock.sendActiveState = true)
      else b.clock.sendActiveState = true := by
  have effect := frame_clockEffect b f
  generalize b.frame f = answer at effect
  cases effect with
  | quiet c es clock other headerless noTime => exact absurd channel other
  | header c es clock other => exact absurd channel other
  | count c es channel early clock headerless noTime =>
      have waits : ¬ Samples b.clock := fun samples => absurd samples.1 (by omega)
      rw [if_neg waits]
      simp [clock]
  | time c between channel due inside clock headerless sent =>
      cases changed : b.clock.headerChange with
      | true => simp [clock, changed, Samples]
      | false =>
          have samples : Samples b.clock := ⟨due, changed⟩
          rw [if_pos samples, ← timehundredth_open]
          simp [clock, changed]

private theorem frame_open_other {b : Board} {f : Segment} (other : f.channel ≠ 0x00)
    (isOpen : (b.frame f).1.clock.sendActiveState = true) : b.clock.sendActiveState = true := by
  have effect := frame_clockEffect b f
  generalize b.frame f = answer at effect isOpen
  cases effect with
  | quiet c es clock channel headerless noTime => exact clock ▸ isOpen
  | header c es clock channel => simp [clock, setsendActiveStateOff] at isOpen
  | count c es channel early clock headerless noTime => exact absurd channel other
  | time c between channel due inside clock headerless sent => exact absurd channel other

/-- A clock frame leaves the gate open with the clock standing exactly when it slips. -/
theorem frame_slips {b : Board} {f : Segment} (channel : f.channel = 0x00) :
    ((b.frame f).1.clock.sendActiveState = true ∧ (b.frame f).1.startStop.bStopping = false) ↔
      Slips b.clock b.startStop (b.read f) := by
  rw [frame_open channel, frame_startStop, if_pos channel, settle_bStopping, watch_bRunning, Slips]
  by_cases looks : b.startStop.Looks
  · rw [if_pos looks, rowNotNull_false]
    have digit (null : NullCells (b.read f)) :
        (200 < clockValue (b.read f) ∨ (clockValue (b.read f) = 200 ∧ b.clock.sendActiveState = true)) ↔
          checkBitValue ((b.read f).get 4) ≠ 0 := by
      rw [null.clockValue, ne_eq, ← UInt8.toNat_inj, UInt8.toNat_zero]
      omega
    by_cases null : NullCells (b.read f)
    · simp only [looks, null, digit null, true_and, and_true]
    · simp only [null, false_and, and_false]
  · -- the detector leaves a row out only while it has the clock running
    rw [if_neg looks]
    have running : b.startStop.pending = true := Bool.of_not_eq_false fun idle => looks (.inr idle)
    simp [looks, running]

/-- What the two machines that watch the clock have to do with each other and with the trace. -/
private structure Follows (b : Board) (trace : List Event) : Prop where
  last : lastSwitch trace = some .start ↔ b.startStop.bStopping = true
  gate : b.clock.sendActiveState = true → b.startStop.bStopping = true

private theorem follows_frame {b : Board} {trace : List Event} {f : Segment}
    (noSlip : f.channel = 0x00 → ¬ Slips b.clock b.startStop (b.read f)) (follows : Follows b trace) :
    Follows (b.frame f).1 (trace ++ (b.frame f).2) := by
  obtain ⟨last, gate⟩ := follows
  have startStop := frame_startStop b f
  have switch := frame_lastSwitch b f
  by_cases channel : f.channel = 0x00
  · rw [if_pos channel] at startStop
    constructor
    · rw [lastSwitch_append, switch, startStop, settle_bStopping]
      by_cases same : (b.startStop.watch (b.read f)).bRunning = b.startStop.bStopping
      · rw [if_neg fun both => both.2 same, Option.none_or, same]
        exact last
      · rw [if_pos ⟨channel, same⟩, Option.some_or]
        cases (b.startStop.watch (b.read f)).bRunning <;> decide
    · intro isOpen
      by_contra stands
      exact noSlip channel ((frame_slips channel).mp ⟨isOpen, Bool.of_not_eq_true stands⟩)
  · rw [if_neg channel] at startStop
    rw [if_neg fun both => channel both.1] at switch
    constructor
    · rw [lastSwitch_append, switch, Option.none_or, startStop]
      exact last
    · intro isOpen
      rw [startStop]
      exact gate (frame_open_other channel isOpen)

private theorem follows_after (frames : List Segment)
    (noSlip : ∀ before f later, frames = before ++ f :: later → f.channel = 0x00 →
      ¬ Slips (after before).1.clock (after before).1.startStop ((after before).1.read f)) :
    Follows (after frames).1 (.mqttSend greeting :: (after frames).2) := by
  refine after_invariant_if (fun b out => Follows b (.mqttSend greeting :: out))
    (fun b f => f.channel = 0x00 → ¬ Slips b.clock b.startStop (b.read f)) ?_ ?_ frames noSlip
  · exact ⟨by decide, nofun⟩
  · intro b out f meets follows
    exact follows_frame meets follows

/-- Sending while the clock runs. On every line on which no clock frame slips, the last start or stop message
before a lane message is a start. -/
theorem lanes_while_running (host : Host) (bytes : List UInt8) :
    ∃ g, run host bytes = .ok g ∧
      ((∀ g₁ f, Meets host bytes g₁ f → f.channel = 0x00 →
          ¬ Slips g₁.clock g₁.startStop (rowOf (storeFrame g₁.coloradoData f) f)) →
        ∀ pre m post, g.trace = pre ++ .mqttSend m :: post → kindOf m = .lane →
          lastSwitch pre = some .start) := by
  obtain ⟨g, ran, tracks⟩ := run_tracks host bytes
  refine ⟨g, ran, ?_⟩
  intro noSlip pre m post split kind
  obtain ⟨before, f, later, lane, row, text, frames, isOpen, rfl⟩ := lane_sent tracks split kind
  have kept : ∀ earlier f' between, before = earlier ++ f' :: between → f'.channel = 0x00 →
      ¬ Slips (after earlier).1.clock (after earlier).1.startStop ((after earlier).1.read f') := by
    rintro earlier f' between rfl channel
    obtain ⟨g₁, meets, shows⟩ := split_meets host (frames.trans (List.append_assoc ..))
    rw [← shows_read shows, ← shows.clock, ← shows.startStop]
    exact noSlip g₁ f' meets channel
  have follows := follows_after before kept
  have quiet : lastSwitch [.accept f, .analyseActiveData lane row, .sendLaneData text] = none := rfl
  rw [lastSwitch_append, quiet, Option.none_or]
  exact follows.last.mpr (follows.gate isOpen)

def stoppedClock : List UInt8 :=
  openGate ++ (List.replicate 3 [0xBE, 0x10, 0x20, 0x30, 0x40, 0x50, 0x6F]).flatten ++
    [0xBC, 0x0E, 0x1E, 0x2F, 0x3F, 0x4C, 0x5E, 0x6D, 0x7A, 0xBE]

/-- A lane message goes out although the last word about the clock was stop. -/
theorem lane_after_stop :
    ∃ g pre m, run Host.reliable stoppedClock = .ok g ∧ g.trace = pre ++ [.mqttSend m] ∧
      kindOf m = .lane ∧ lastSwitch pre = some .stop := by
  obtain ⟨g, ran, tracks⟩ := run_tracks Host.reliable stoppedClock
  have message : (Event.mqttSend greeting :: (after (countingFrames stoppedClock)).2).drop 82 =
      [.mqttSend "lane 1 00:31,25 1".toList] := by
    decide +kernel
  have switch : lastSwitch ((Event.mqttSend greeting :: (after (countingFrames stoppedClock)).2).take 82) =
      some .stop := by
    decide +kernel
  rw [← tracks.trace] at message switch
  refine ⟨g, g.trace.take 82, "lane 1 00:31,25 1".toList, ran, ?_, by decide, switch⟩
  exact (List.take_append_drop 82 g.trace).symm.trans (congrArg _ message)

end SerialTiming.Laws.SendGate
