/- module: SerialTiming/Scoreboard/Answers
   digest: What one frame can make the board do, and where an event of a run comes from. -/

import SerialTiming.Scoreboard.Boards

set_option autoImplicit false
set_option relaxedAutoImplicit false

namespace SerialTiming.Scoreboard.Answers

open CLib.Strings Line.Segments Display Clocks Boards Machines

/-- What a message is about, as its first word tells. -/
inductive Kind where
  | lane
  | time
  | header
  | round
  | start
  | stop
  | other
  deriving DecidableEq, Repr

def kindOf (message : List Char) : Kind :=
  if message = startText then .start
  else if message = stopText then .stop
  else if "lane ".toList.isPrefixOf message then .lane
  else if "time ".toList.isPrefixOf message then .time
  else if "header ".toList.isPrefixOf message then .header
  else if "round ".toList.isPrefixOf message then .round
  else .other

@[simp] theorem kindOf_lane (lane : UInt8) (row : Row) : kindOf (laneText lane row) = .lane := rfl

@[simp] theorem kindOf_time (row : Row) : kindOf (timeText row) = .time := rfl

@[simp] theorem kindOf_header (row : Row) : kindOf (headerText row) = .header := rfl

@[simp] theorem kindOf_round (round : Int) : kindOf (roundText round) = .round := rfl

@[simp] theorem kindOf_start : kindOf startText = .start := rfl

@[simp] theorem kindOf_stop : kindOf stopText = .stop := rfl

/-- The kind of the message that an event hands to mqtt_send. -/
def sends : Event → Option Kind
  | .mqttSend message => some (kindOf message)
  | _ => none

def accepts : Event → Option Segment
  | .accept frame => some frame
  | _ => none

def accepted (trace : List Event) : List Segment := trace.filterMap accepts

@[simp] theorem accepted_append (xs ys : List Event) : accepted (xs ++ ys) = accepted xs ++ accepted ys :=
  List.filterMap_append

/-- The messages, as opposed to the frames and the handler calls. -/
def isReport : Event → Bool
  | .sendLaneData _ => true
  | .mqttSend _ => true
  | _ => false

def calls (trace : List Event) : List Event := trace.filter (!isReport ·)

@[simp] theorem calls_append (xs ys : List Event) : calls (xs ++ ys) = calls xs ++ calls ys :=
  List.filter_append ..

def handlers (f : Segment) (row : Row) : List Event :=
  if 1 ≤ f.channel.toNat ∧ f.channel.toNat ≤ 10 then [.analyseActiveData f.channel row]
  else if f.channel = 0x00 then [.checkStartStop row, .getTime row]
  else if f.channel = 0x0C then [.getHeader row]
  else if f.channel = 0x12 then [.storeRounds row]
  else []

/-- What a frame makes of the board and the events it gives, by the handler of its channel. -/
inductive Reply (b : Board) (f : Segment) : Board × List Event → Prop where
  | lane (lane : Lane) (number : lane.number = f.channel) :
      Reply b f (((b.stored f).onLane lane (b.read f)).1,
        .accept f :: .analyseActiveData lane.number (b.read f) :: ((b.stored f).onLane lane (b.read f)).2)
  | clock (channel : f.channel = 0x00) :
      Reply b f ((((b.stored f).onStartStop (b.read f)).1.onTime (b.read f)).1,
        .accept f :: .checkStartStop (b.read f) :: ((b.stored f).onStartStop (b.read f)).2 ++
          .getTime (b.read f) :: (((b.stored f).onStartStop (b.read f)).1.onTime (b.read f)).2)
  | header (channel : f.channel = 0x0C) :
      Reply b f (((b.stored f).onHeader (b.read f)).1,
        .accept f :: .getHeader (b.read f) :: ((b.stored f).onHeader (b.read f)).2)
  | rounds (channel : f.channel = 0x12) :
      Reply b f (((b.stored f).onRounds (b.read f)).1,
        .accept f :: .storeRounds (b.read f) :: ((b.stored f).onRounds (b.read f)).2)
  | nothing (channel : f.channel.toNat = 0x0B ∨ 0x0C < f.channel.toNat) :
      Reply b f (b.stored f, [.accept f])

theorem frame_reply (b : Board) (f : Segment) : Reply b f (b.frame f) := by
  simp only [Board.frame, Board.dispatch]
  split
  · rename_i range
    exact .lane ⟨f.channel, range⟩ rfl
  · rename_i range
    split
    · rename_i channel
      exact .clock channel
    · rename_i nonzero
      split
      · rename_i channel
        exact .header channel
      · rename_i noHeader
        split
        · rename_i channel
          exact .rounds channel
        · refine .nothing ?_
          simp only [← UInt8.toNat_inj] at nonzero noHeader
          have zero : (0x00 : UInt8).toNat = 0 := rfl
          have twelve : (0x0C : UInt8).toNat = 12 := rfl
          omega

theorem onLane_cases (b : Board) (lane : Lane) (row : Row) :
    (announces (b.heat.get lane.index) (b.place.get lane.index) row = true ∧
      b.onLane lane row =
        (b.setLane lane (recordedTime row) (placeText row), b.laneEvents (laneText lane.number row))) ∨
    (announces (b.heat.get lane.index) (b.place.get lane.index) row = false ∧ (b.onLane lane row).2 = [] ∧
      (b.onLane lane row).1 =
        if shortText row = b.heat.get lane.index then b else b.setLane lane zeroTime zeroPlace) := by
  cases told : announces (b.heat.get lane.index) (b.place.get lane.index) row with
  | true =>
      refine .inl ⟨rfl, ?_⟩
      simp only [Board.onLane, told, ↓reduceIte]
  | false =>
      refine .inr ⟨rfl, ?_⟩
      simp only [Board.onLane, told, Bool.false_eq_true, ↓reduceIte]
      split <;> exact ⟨rfl, rfl⟩

theorem onStartStop_cases (b : Board) (row : Row) :
    ((b.startStop.watch row).bRunning = b.startStop.bStopping ∧
      b.onStartStop row = ({ b with startStop := (b.startStop.watch row).settle }, [])) ∨
    ((b.startStop.watch row).bRunning ≠ b.startStop.bStopping ∧
      b.onStartStop row = ({ b.clearLanes with startStop := (b.startStop.watch row).settle },
        [.mqttSend (if (b.startStop.watch row).bRunning then startText else stopText)])) := by
  simp only [Board.onStartStop, watch_bStopping]
  split
  · rename_i changed
    exact .inr ⟨Ne.symm changed, rfl⟩
  · rename_i same
    exact .inl ⟨(not_not.mp same).symm, rfl⟩

theorem onTime_cases (b : Board) (row : Row) :
    (b.clock.loopcount ≤ 20 ∧
      b.onTime row = ({ b with clock := { b.clock with loopcount := b.clock.loopcount + 1 } }, [])) ∨
    (20 < b.clock.loopcount ∧
      b.onTime row =
        ({ b with clock :=
            { (if b.clock.headerChange then b.clock else (timehundredth row b.clock).2) with
              headerChange := false, loopcount := 1 } },
          [.mqttSend (timeText row)])) := by
  by_cases due : b.clock.loopcount > sendTimeEveryCounts
  · exact .inr ⟨due, if_pos due⟩
  · exact .inl ⟨Nat.le_of_not_lt due, if_neg due⟩

theorem onHeader_cases (b : Board) (row : Row) :
    ((headerText row = blankHeader ∨ b.header = some (headerText row)) ∧ b.onHeader row = (b, [])) ∨
    (¬ (headerText row = blankHeader ∨ b.header = some (headerText row)) ∧
      b.onHeader row =
        ({ b.clearLanes with clock := setsendActiveStateOff b.clock, header := some (headerText row) },
          [.mqttSend (headerText row), .mqttSend (headerText row)])) := by
  simp only [Board.onHeader]
  split
  · rename_i known
    exact .inl ⟨known, rfl⟩
  · rename_i new
    exact .inr ⟨new, rfl⟩

theorem setLane_record (b : Board) (at_ lane : Lane) (h p : List Char) :
    (b.setLane at_ h p).heat.get lane.index = (if at_.index = lane.index then h else b.heat.get lane.index) ∧
    (b.setLane at_ h p).place.get lane.index = if at_.index = lane.index then p else b.place.get lane.index := by
  simp only [Board.setLane, Vector.get_eq_getElem, Vector.getElem_set, Fin.ext_iff, and_self]

theorem onLane_frame (b : Board) (lane : Lane) (row : Row) :
    ∃ heat place, (b.onLane lane row).1 = { b with heat := heat, place := place } := by
  rcases onLane_cases b lane row with ⟨_, told⟩ | ⟨_, _, quiet⟩
  · exact ⟨_, _, congrArg Prod.fst told⟩
  · rw [quiet]
    split
    · exact ⟨b.heat, b.place, rfl⟩
    · exact ⟨_, _, rfl⟩

theorem onStartStop_frame (b : Board) (row : Row) :
    ∃ heat place, (b.onStartStop row).1 =
      { b with heat := heat, place := place, startStop := (b.startStop.watch row).settle } := by
  rcases onStartStop_cases b row with ⟨_, stays⟩ | ⟨_, switches⟩
  · exact ⟨b.heat, b.place, congrArg Prod.fst stays⟩
  · exact ⟨_, _, congrArg Prod.fst switches⟩

theorem onTime_frame (b : Board) (row : Row) :
    ∃ clock, (b.onTime row).1 = { b with clock := clock } := by
  rcases onTime_cases b row with ⟨_, counts⟩ | ⟨_, samples⟩
  · exact ⟨_, congrArg Prod.fst counts⟩
  · exact ⟨_, congrArg Prod.fst samples⟩

theorem onHeader_frame (b : Board) (row : Row) :
    ∃ heat place clock header, (b.onHeader row).1 =
      { b with heat := heat, place := place, clock := clock, header := header } := by
  rcases onHeader_cases b row with ⟨_, known⟩ | ⟨_, new⟩
  · exact ⟨b.heat, b.place, b.clock, b.header, congrArg Prod.fst known⟩
  · exact ⟨_, _, _, _, congrArg Prod.fst new⟩

theorem onRounds_frame (b : Board) (row : Row) :
    ∃ rounds pRound, (b.onRounds row).1 = { b with rounds := rounds, pRound := pRound } := ⟨_, _, rfl⟩

theorem onLane_reports (b : Board) (lane : Lane) (row : Row) : calls (b.onLane lane row).2 = [] := by
  rcases onLane_cases b lane row with ⟨_, told⟩ | ⟨_, silent, _⟩
  · simp only [told, Board.laneEvents]
    split <;> rfl
  · rw [silent]
    rfl

theorem onStartStop_reports (b : Board) (row : Row) : calls (b.onStartStop row).2 = [] := by
  simp only [Board.onStartStop]
  split <;> rfl

theorem onTime_reports (b : Board) (row : Row) : calls (b.onTime row).2 = [] := by
  simp only [Board.onTime]
  split <;> rfl

theorem onHeader_reports (b : Board) (row : Row) : calls (b.onHeader row).2 = [] := by
  simp only [Board.onHeader]
  split <;> rfl

theorem onRounds_reports (b : Board) (row : Row) : calls (b.onRounds row).2 = [] := by
  simp only [Board.onRounds]
  split <;> rfl

/-- Every frame is accepted once and goes to its channel's handlers with the row just stored. -/
theorem calls_frame (b : Board) (f : Segment) :
    calls (b.frame f).2 = .accept f :: handlers f (b.read f) := by
  have call (e : Event) (es : List Event) (noReport : isReport e = false) : calls (e :: es) = e :: calls es := by
    simp [calls, noReport]
  simp only [Board.frame, Board.dispatch, handlers]
  rw [call _ _ rfl]
  split
  · rw [call _ _ rfl, onLane_reports]
  · split
    · simp only [List.cons_append]
      rw [call _ _ rfl, calls_append, onStartStop_reports, call _ _ rfl, onTime_reports, List.nil_append]
    · split
      · rw [call _ _ rfl, onHeader_reports]
      · split
        · rw [call _ _ rfl, onRounds_reports]
        · rfl

/-- Only the storing of a frame changes the cells; no handler does. -/
theorem frame_cells (b : Board) (f : Segment) : (b.frame f).1.cells = storeFrame b.cells f := by
  have reply := frame_reply b f
  generalize b.frame f = answer at reply
  cases reply with
  | lane lane number =>
      obtain ⟨heat, place, rest⟩ := onLane_frame (b.stored f) lane (b.read f)
      exact congrArg Board.cells rest
  | clock channel =>
      obtain ⟨heat, place, rest⟩ := onStartStop_frame (b.stored f) (b.read f)
      obtain ⟨clock, last⟩ := onTime_frame ((b.stored f).onStartStop (b.read f)).1 (b.read f)
      exact (congrArg Board.cells last).trans (congrArg Board.cells rest)
  | header channel =>
      obtain ⟨heat, place, clock, header, rest⟩ := onHeader_frame (b.stored f) (b.read f)
      exact congrArg Board.cells rest
  | rounds channel =>
      obtain ⟨rounds, pRound, rest⟩ := onRounds_frame (b.stored f) (b.read f)
      exact congrArg Board.cells rest
  | nothing channel => rfl

theorem frame_startStop (b : Board) (f : Segment) :
    (b.frame f).1.startStop =
      if f.channel = 0x00 then (b.startStop.watch (b.read f)).settle else b.startStop := by
  have reply := frame_reply b f
  generalize b.frame f = answer at reply
  cases reply with
  | lane lane number =>
      obtain ⟨heat, place, rest⟩ := onLane_frame (b.stored f) lane (b.read f)
      have same := congrArg Board.startStop rest
      rw [if_neg (number ▸ lane.number_ne)]
      exact same
  | clock channel =>
      obtain ⟨heat, place, rest⟩ := onStartStop_frame (b.stored f) (b.read f)
      obtain ⟨clock, last⟩ := onTime_frame ((b.stored f).onStartStop (b.read f)).1 (b.read f)
      rw [if_pos channel]
      exact (congrArg Board.startStop last).trans (congrArg Board.startStop rest)
  | header channel =>
      obtain ⟨heat, place, clock, header, rest⟩ := onHeader_frame (b.stored f) (b.read f)
      have same := congrArg Board.startStop rest
      rw [if_neg (by simp [channel])]
      exact same
  | rounds channel =>
      obtain ⟨rounds, pRound, rest⟩ := onRounds_frame (b.stored f) (b.read f)
      have same := congrArg Board.startStop rest
      rw [if_neg (by simp [channel])]
      exact same
  | nothing channel =>
      have other : f.channel ≠ 0x00 := by
        intro zero
        simp [zero] at channel
      rw [if_neg other]
      rfl

theorem accepted_calls (trace : List Event) : accepted (calls trace) = accepted trace := by
  have same (e : Event) : (if (!isReport e) = true then accepts e else none) = accepts e := by
    cases e <;> rfl
  rw [accepted, calls, List.filterMap_filter]
  simp only [same, accepted]

theorem accepted_frame (b : Board) (f : Segment) : accepted (b.frame f).2 = [f] := by
  rw [← accepted_calls, calls_frame, handlers]
  repeat' split
  all_goals rfl

theorem onLane_message {b : Board} {lane : Lane} {row : Row} {m : List Char}
    (sent : .mqttSend m ∈ (b.onLane lane row).2) :
    m = laneText lane.number row ∧ b.clock.sendActiveState = true := by
  rcases onLane_cases b lane row with ⟨_, told⟩ | ⟨_, silent, _⟩
  · simp only [told, Board.laneEvents] at sent
    split at sent
    · rename_i opened
      exact ⟨by simpa using sent, opened⟩
    · simp at sent
  · simp [silent] at sent

theorem onStartStop_message {b : Board} {row : Row} {m : List Char}
    (sent : .mqttSend m ∈ (b.onStartStop row).2) : m = startText ∨ m = stopText := by
  rcases onStartStop_cases b row with ⟨_, stays⟩ | ⟨_, switches⟩
  · simp [stays] at sent
  · simp only [switches, List.mem_singleton, Event.mqttSend.injEq] at sent
    split at sent
    · exact .inl sent
    · exact .inr sent

theorem onTime_message {b : Board} {row : Row} {m : List Char} (sent : .mqttSend m ∈ (b.onTime row).2) :
    m = timeText row := by
  rcases onTime_cases b row with ⟨_, counts⟩ | ⟨_, samples⟩
  · simp [counts] at sent
  · simpa [samples] using sent

theorem onHeader_message {b : Board} {row : Row} {m : List Char} (sent : .mqttSend m ∈ (b.onHeader row).2) :
    m = headerText row := by
  rcases onHeader_cases b row with ⟨_, known⟩ | ⟨_, new⟩
  · simp [known] at sent
  · simpa [new] using sent

theorem onRounds_message {b : Board} {row : Row} {m : List Char} (sent : .mqttSend m ∈ (b.onRounds row).2) :
    ∃ round, m = roundText round := by
  simp only [Board.onRounds] at sent
  split at sent
  · simp at sent
  · exact ⟨_, by simpa using sent⟩

/-- The messages a frame can send. -/
theorem frame_message {b : Board} {f : Segment} {m : List Char} (sent : .mqttSend m ∈ (b.frame f).2) :
    (∃ lane : Lane, lane.number = f.channel ∧ m = laneText lane.number (b.read f) ∧
      b.clock.sendActiveState = true) ∨
    (f.channel = 0x00 ∧ (m = startText ∨ m = stopText ∨ m = timeText (b.read f))) ∨
    (f.channel = 0x0C ∧ m = headerText (b.read f)) ∨
    (f.channel = 0x12 ∧ ∃ round, m = roundText round) := by
  have reply := frame_reply b f
  generalize b.frame f = answer at reply sent
  cases reply with
  | lane lane number =>
      simp only [List.mem_cons, reduceCtorEq, false_or] at sent
      exact .inl ⟨lane, number, onLane_message (b := b.stored f) sent⟩
  | clock channel =>
      simp only [List.cons_append, List.mem_cons, List.mem_append, reduceCtorEq, false_or] at sent
      rcases sent with switched | timed
      · exact .inr (.inl ⟨channel, (onStartStop_message switched).imp_right .inl⟩)
      · exact .inr (.inl ⟨channel, .inr (.inr (onTime_message timed))⟩)
  | header channel =>
      simp only [List.mem_cons, reduceCtorEq, false_or] at sent
      exact .inr (.inr (.inl ⟨channel, onHeader_message sent⟩))
  | rounds channel =>
      simp only [List.mem_cons, reduceCtorEq, false_or] at sent
      exact .inr (.inr (.inr ⟨channel, onRounds_message sent⟩))
  | nothing channel => simp at sent

theorem frame_call {b : Board} {f : Segment} {e : Event} (member : e ∈ (b.frame f).2)
    (noReport : isReport e = false) : e = .accept f ∨ e ∈ handlers f (b.read f) := by
  have called : e ∈ calls (b.frame f).2 := List.mem_filter.mpr ⟨member, by simp [noReport]⟩
  rw [calls_frame] at called
  exact List.mem_cons.mp called

theorem getHeader_handlers {f : Segment} {row r : Row} :
    .getHeader row ∈ handlers f r ↔ f.channel = 0x0C ∧ row = r := by
  by_cases channel : f.channel = 0x0C
  · simp [handlers, channel]
  · simp only [handlers, channel, ↓reduceIte]
    repeat' split
    all_goals simp

theorem storeRounds_handlers {f : Segment} {row r : Row} :
    .storeRounds row ∈ handlers f r ↔ f.channel = 0x12 ∧ row = r := by
  by_cases channel : f.channel = 0x12
  · simp [handlers, channel]
  · simp only [handlers, channel, ↓reduceIte]
    repeat' split
    all_goals simp

theorem frame_channel {b : Board} {f : Segment} {m : List Char} (sent : .mqttSend m ∈ (b.frame f).2) :
    (kindOf m = .header → f.channel = 0x0C) ∧ (kindOf m = .round → f.channel = 0x12) ∧
    (kindOf m = .start ∨ kindOf m = .stop → f.channel = 0x00) := by
  rcases frame_message sent with ⟨lane, _, rfl, _⟩ | ⟨channel, rfl | rfl | rfl⟩ | ⟨channel, rfl⟩ |
    ⟨channel, round, rfl⟩
  · simp
  · simp [channel]
  · simp [channel]
  · simp [channel]
  · simp [channel]
  · simp [channel]

theorem frame_lane (b : Board) {f : Segment} {lane : Lane} (number : lane.number = f.channel) :
    b.frame f = (((b.stored f).onLane lane (b.read f)).1,
      .accept f :: .analyseActiveData lane.number (b.read f) :: ((b.stored f).onLane lane (b.read f)).2) := by
  have own : lane = ⟨f.channel, number ▸ lane.inRange⟩ := Lane.ext number
  have range : 1 ≤ f.channel.toNat ∧ f.channel.toNat ≤ 10 := number ▸ lane.inRange
  rw [own]
  simp only [Board.frame, Board.dispatch, range, and_self, ↓reduceDIte]

theorem frame_detector (b : Board) {f : Segment} (channel : f.channel = 0x00) :
    b.frame f = ((((b.stored f).onStartStop (b.read f)).1.onTime (b.read f)).1,
      .accept f :: .checkStartStop (b.read f) :: ((b.stored f).onStartStop (b.read f)).2 ++
        .getTime (b.read f) :: (((b.stored f).onStartStop (b.read f)).1.onTime (b.read f)).2) := by
  simp [Board.frame, Board.dispatch, channel]

theorem frame_clock (b : Board) {f : Segment} (channel : f.channel = 0x00) :
    ∃ t, (b.frame f).2 = Event.accept f :: Event.checkStartStop (b.read f) ::
        ((b.stored f).onStartStop (b.read f)).2 ++ Event.getTime (b.read f) :: t ∧
      ∀ m, .mqttSend m ∈ t → m = timeText (b.read f) := by
  rw [frame_detector b channel]
  exact ⟨_, rfl, fun m => onTime_message⟩

theorem frame_header (b : Board) {f : Segment} (channel : f.channel = 0x0C) :
    b.frame f = (((b.stored f).onHeader (b.read f)).1,
      .accept f :: .getHeader (b.read f) :: ((b.stored f).onHeader (b.read f)).2) := by
  simp [Board.frame, Board.dispatch, channel]

theorem frame_rounds (b : Board) {f : Segment} (channel : f.channel = 0x12) :
    b.frame f = (((b.stored f).onRounds (b.read f)).1,
      .accept f :: .storeRounds (b.read f) :: ((b.stored f).onRounds (b.read f)).2) := by
  simp [Board.frame, Board.dispatch, channel]

theorem frame_stored (b : Board) {f : Segment} (noLane : ¬ (1 ≤ f.channel.toNat ∧ f.channel.toNat ≤ 10))
    (noClock : f.channel ≠ 0x00) (noHeader : f.channel ≠ 0x0C) (noRounds : f.channel ≠ 0x12) :
    b.frame f = (b.stored f, [.accept f]) := by
  simp only [Board.frame, Board.dispatch, dif_neg noLane, if_neg noClock, if_neg noHeader, if_neg noRounds]

theorem frame_header_other (b : Board) {f : Segment} (channel : f.channel ≠ 0x0C) :
    (b.frame f).1.header = b.header := by
  have reply := frame_reply b f
  generalize b.frame f = answer at reply
  cases reply with
  | lane lane number =>
      obtain ⟨heat, place, rest⟩ := onLane_frame (b.stored f) lane (b.read f)
      have same := congrArg Board.header rest
      exact same
  | clock channel =>
      obtain ⟨heat, place, rest⟩ := onStartStop_frame (b.stored f) (b.read f)
      obtain ⟨clock, last⟩ := onTime_frame ((b.stored f).onStartStop (b.read f)).1 (b.read f)
      have timed := congrArg Board.header last
      have watched := congrArg Board.header rest
      exact timed.trans watched
  | header own => exact absurd own channel
  | rounds channel => rfl
  | nothing channel => rfl

theorem frame_rounds_other (b : Board) {f : Segment} (channel : f.channel ≠ 0x12) :
    (b.frame f).1.rounds = b.rounds ∧ (b.frame f).1.pRound = b.pRound := by
  have reply := frame_reply b f
  generalize b.frame f = answer at reply
  cases reply with
  | lane lane number =>
      obtain ⟨heat, place, rest⟩ := onLane_frame (b.stored f) lane (b.read f)
      simp only [rest]
      exact ⟨rfl, rfl⟩
  | clock channel =>
      obtain ⟨heat, place, rest⟩ := onStartStop_frame (b.stored f) (b.read f)
      obtain ⟨clock, last⟩ := onTime_frame ((b.stored f).onStartStop (b.read f)).1 (b.read f)
      have rounds := congrArg Board.rounds rest
      have pRound := congrArg Board.pRound rest
      rw [last]
      exact ⟨rounds, pRound⟩
  | header channel =>
      obtain ⟨heat, place, clock, header, rest⟩ := onHeader_frame (b.stored f) (b.read f)
      simp only [rest]
      exact ⟨rfl, rfl⟩
  | rounds own => exact absurd own channel
  | nothing channel => exact ⟨rfl, rfl⟩

theorem after_invariant_if (inv : Board → List Event → Prop) (ok : Board → Segment → Prop)
    (start : inv Board.start [])
    (keep : ∀ b out f, ok b f → inv b out → inv (b.frame f).1 (out ++ (b.frame f).2)) (frames : List Segment)
    (meets : ∀ before f later, frames = before ++ f :: later → ok (after before).1 f) :
    inv (after frames).1 (after frames).2 :=
  Transducer.run_invariant_if _ inv ok start keep frames meets

theorem after_invariant (inv : Board → List Event → Prop) (start : inv Board.start [])
    (keep : ∀ b out f, inv b out → inv (b.frame f).1 (out ++ (b.frame f).2)) (frames : List Segment) :
    inv (after frames).1 (after frames).2 :=
  Transducer.run_invariant _ inv start keep frames

theorem accepted_after (frames : List Segment) : accepted (after frames).2 = frames := by
  induction frames using List.reverseRecOn with
  | nil => rfl
  | append_singleton frames f ih => rw [after_snoc, accepted_append, ih, accepted_frame]

/-- An event of a run other than an acceptance stands behind the acceptance of its frame. -/
theorem after_place {frames : List Segment} {pre post : List Event} {e : Event}
    (out : (after frames).2 = pre ++ e :: post) (noFrame : accepts e = none) :
    ∃ before f later front back,
      frames = before ++ f :: later ∧
      ((after before).1.frame f).2 = Event.accept f :: front ++ e :: back ∧
      pre = (after before).2 ++ Event.accept f :: front ∧
      post = back ++ (Transducer.run Board.frame ((after before).1.frame f).1 later).2 ∧
      accepted pre = before ++ [f] := by
  obtain ⟨before, f, later, front, back, frames, place, rfl, rfl⟩ := Transducer.output_place _ out
  change ((after before).1.frame f).2 = front ++ e :: back at place
  have first : accepted (front ++ e :: back) = [f] := place ▸ accepted_frame _ f
  obtain ⟨es, head⟩ : ∃ es, Event.accept f :: es = front ++ e :: back := ⟨_, place⟩
  cases front with
  | nil =>
      simp only [List.nil_append, List.cons.injEq] at head
      simp [← head.1, accepts] at noFrame
  | cons e' front =>
      simp only [List.cons_append, List.cons.injEq] at head
      obtain ⟨rfl, -⟩ := head
      have rest : accepted front = [] := by
        simp only [accepted, List.cons_append, List.filterMap_cons, accepts, List.filterMap_append,
          List.cons.injEq, true_and, List.append_eq_nil_iff] at first
        exact first.1
      refine ⟨before, f, later, front, back, frames, place, rfl, rfl, ?_⟩
      have one : accepted (Event.accept f :: front) = f :: accepted front := rfl
      rw [accepted_append, one, rest]
      exact congrArg (· ++ [f]) (accepted_after before)

/-- An acceptance of a run stands right behind the events of the frames before it. -/
theorem after_accept {frames : List Segment} {pre post : List Event} {f : Segment}
    (out : (after frames).2 = pre ++ .accept f :: post) :
    ∃ before later, frames = before ++ f :: later ∧ pre = (after before).2 ∧
      .accept f :: post = ((after before).1.frame f).2 ++
        (Transducer.run Board.frame ((after before).1.frame f).1 later).2 := by
  obtain ⟨before, f', later, front, back, frames, place, rfl, rfl⟩ := Transducer.output_place _ out
  change ((after before).1.frame f').2 = front ++ .accept f :: back at place
  have one : accepted front ++ f :: accepted back = [f'] := by
    rw [← accepted_frame (after before).1 f', place, accepted_append]
    rfl
  have alone : accepted front = [] ∧ f = f' := by
    cases taken : accepted front with
    | nil =>
        rw [taken] at one
        exact ⟨rfl, (List.cons.inj one).1⟩
    | cons first rest => simp [taken] at one
  obtain ⟨none, rfl⟩ := alone
  have first : front = [] := by
    cases front with
    | nil => rfl
    | cons e front =>
        have head : Event.accept f = e := by
          have same := congrArg List.head? place
          exact Option.some.inj same
        rw [← head] at none
        simp [accepted, accepts] at none
  subst first
  refine ⟨before, later, frames, by rw [List.append_nil]; rfl, ?_⟩
  rw [place]
  rfl

theorem run_head (b : Board) (frames : List Segment) {e : Event} (noFrame : accepts e = none) :
    (Transducer.run Board.frame b frames).2.head? ≠ some e := by
  cases frames with
  | nil => simp
  | cons f frames =>
      rintro head
      obtain rfl : Event.accept f = e := Option.some.inj head
      simp [accepts] at noFrame

end SerialTiming.Scoreboard.Answers
