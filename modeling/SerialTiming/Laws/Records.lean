/- module: SerialTiming/Laws/Records
   digest: The record buffers: no access leaves them, and what they mark was handed to mqtt_send. -/

import SerialTiming.Laws.Framing
import SerialTiming.Scoreboard.Sampler

set_option autoImplicit false
set_option relaxedAutoImplicit false

namespace SerialTiming.Laws.Records

open CLib.Objects CLib.Strings Line.Segments Scoreboard.Display Scoreboard.Clocks Scoreboard.Boards
open Scoreboard.Answers Scoreboard.Sampler Decoder.State Decoder.ReadData Framing

/-- Every run ends without leaving an object and without looking at a byte that was never written; the
buffer index stays from 1 to 9 while a frame is collected and every record keeps its size. -/
theorem run_inside (host : Host) (bytes : List UInt8) :
    ∃ g, run host bytes = .ok g ∧
      (g.input.coloradoStartDetected = 0x01 → 1 ≤ g.input.inCount.toNat ∧ g.input.inCount.toNat ≤ 9) ∧
      (∀ lane : Fin 10,
        (g.coloradoHeatData.get lane).length = 18 ∧ (g.coloradoPlaceData.get lane).length = 10) ∧
      g.coloradoHeaderData.length = 25 ∧ g.storeRoundsData.length = 25 := by
  obtain ⟨g, ran, tracks⟩ := run_tracks host bytes
  refine ⟨g, ran, fun started => ?_,
    fun lane => ⟨(tracks.shows.heat lane lane.isLt).2, (tracks.shows.place lane lane.isLt).2⟩,
    tracks.shows.header.length, tracks.shows.rounds.length⟩
  rcases tracks.parses with ⟨_, waits⟩ | ⟨done, s, _, collects | ⟨_, waits⟩⟩
  · simp [waits] at started
  · have count := collects.count
    have short := collects.short
    omega
  · simp [waits] at started

/-- What the handlers compare a frame with before they send it again, read out of the memory. -/
structure Marks where
  heat : Vector (Checked (List Char)) 10
  place : Vector (Checked (List Char)) 10
  header : Checked (List Char)
  rounds : Checked (List Char)
  bStopping : Bool
  deriving DecidableEq

def marks (g : Globals) : Marks where
  heat := g.coloradoHeatData.map text
  place := g.coloradoPlaceData.map text
  header := text g.coloradoHeaderData
  rounds := text g.storeRoundsData
  bStopping := g.startStop.bStopping

def recordText : Option (List Char) → Checked (List Char)
  | none => .error .outside
  | some s => .ok s

def boardMarks (b : Board) : Marks where
  heat := b.heat.map .ok
  place := b.place.map .ok
  header := recordText b.header
  rounds := recordText b.rounds
  bStopping := b.startStop.bStopping

private theorem remembers_text {b : CharBuf} {r : Option (List Char)} (remembers : Remembers b r) :
    text b = recordText r := by
  cases r with
  | none =>
      obtain rfl : b = _ := remembers
      rfl
  | some s => exact text_holds remembers.1

theorem shows_marks {g : Globals} {b : Board} (shows : Shows g b) : marks g = boardMarks b := by
  have heat : g.coloradoHeatData.map text = b.heat.map .ok := by
    ext i inside : 1
    simpa using text_holds (shows.heat i inside).1.holds
  have place : g.coloradoPlaceData.map text = b.place.map .ok := by
    ext i inside : 1
    simpa using text_holds (shows.place i inside).1.holds
  simp only [marks, boardMarks, heat, place, remembers_text shows.header, remembers_text shows.rounds,
    shows.startStop]

/-- What a step of the program marks from `m` to `m'` is among the messages `es` it hands over: a lane
record, while the gate is open, with the lane's message and the same row's time and place. -/
structure Marked (m m' : Marks) (es : List Event) (gate : Bool) (pRound : Int) : Prop where
  header : m'.header ≠ m.header → ∃ s, m'.header = .ok s ∧ .mqttSend s ∈ es
  rounds : m'.rounds ≠ m.rounds → .mqttSend (roundText pRound) ∈ es
  bStopping : m'.bStopping ≠ m.bStopping → .mqttSend (if m'.bStopping then startText else stopText) ∈ es
  lane : gate = true → ∀ lane : Lane, m'.heat.get lane.index ≠ m.heat.get lane.index ∨
      m'.place.get lane.index ≠ m.place.get lane.index →
    (m'.heat.get lane.index = .ok zeroTime ∧ m'.place.get lane.index = .ok zeroPlace) ∨
    ∃ row, m'.heat.get lane.index = .ok (recordedTime row) ∧ m'.place.get lane.index = .ok (placeText row) ∧
      .mqttSend (laneText lane.number row) ∈ es

variable {m m' : Marks} {es fs : List Event} {gate : Bool} {pRound : Int}

private theorem Marked.unchanged (same : m' = m) : Marked m m' es gate pRound where
  header := fun changed => absurd (by rw [same]) changed
  rounds := fun changed => absurd (by rw [same]) changed
  bStopping := fun changed => absurd (by rw [same]) changed
  lane := fun _ lane changed => absurd changed (by simp [same])

private theorem Marked.among (marked : Marked m m' es gate pRound) (more : es ⊆ fs) :
    Marked m m' fs gate pRound where
  header := fun changed => by
    obtain ⟨s, set, sent⟩ := marked.header changed
    exact ⟨s, set, more sent⟩
  rounds := fun changed => more (marked.rounds changed)
  bStopping := fun changed => more (marked.bStopping changed)
  lane := fun opened lane changed => by
    rcases marked.lane opened lane changed with cleared | ⟨row, heat, place, sent⟩
    · exact .inl cleared
    · exact .inr ⟨row, heat, place, more sent⟩

private theorem onLane_marked (b : Board) (at_ : Lane) (row : Row) :
    Marked (boardMarks b) (boardMarks (b.onLane at_ row).1) (b.onLane at_ row).2 b.clock.sendActiveState
      pRound := by
  obtain ⟨heat, place, rest⟩ := onLane_frame b at_ row
  refine ⟨fun changed => absurd (by simp [boardMarks, rest]) changed,
    fun changed => absurd (by simp [boardMarks, rest]) changed,
    fun changed => absurd (by simp [boardMarks, rest]) changed, fun opened lane changed => ?_⟩
  have lookup (c : Board) : (boardMarks c).heat.get lane.index = .ok (c.heat.get lane.index) ∧
      (boardMarks c).place.get lane.index = .ok (c.place.get lane.index) := by
    simp [boardMarks]
  simp only [lookup, ne_eq, Except.ok.injEq] at changed ⊢
  rcases onLane_cases b at_ row with ⟨_, told⟩ | ⟨_, _, quiet⟩
  · simp only [told, setLane_record] at changed ⊢
    by_cases here : at_.index = lane.index
    · refine .inr ⟨row, if_pos here, if_pos here, ?_⟩
      simp [Board.laneEvents, opened, Lane.index_inj.mp here]
    · simp [if_neg here] at changed
  · rw [quiet] at changed ⊢
    split at changed
    · simp at changed
    · rename_i other
      rw [if_neg other]
      simp only [setLane_record] at changed ⊢
      by_cases here : at_.index = lane.index
      · exact .inl ⟨if_pos here, if_pos here⟩
      · simp [if_neg here] at changed

private theorem cleared_lane (b c : Board) (heat : c.heat = b.clearLanes.heat) (place : c.place = b.clearLanes.place)
    (lane : Lane) :
    (boardMarks c).heat.get lane.index = .ok zeroTime ∧
      (boardMarks c).place.get lane.index = .ok zeroPlace := by
  simp [boardMarks, heat, place, Board.clearLanes]

private theorem onStartStop_marked (b : Board) (row : Row) :
    Marked (boardMarks b) (boardMarks (b.onStartStop row).1) (b.onStartStop row).2 gate pRound := by
  rcases onStartStop_cases b row with ⟨same, stays⟩ | ⟨_, switches⟩
  · rw [stays]
    exact Marked.unchanged (by simp only [boardMarks, settle_bStopping, same])
  · rw [switches]
    exact ⟨fun changed => absurd rfl changed, fun changed => absurd rfl changed,
      fun _ => List.mem_singleton.mpr rfl, fun _ lane _ => .inl (cleared_lane b _ rfl rfl lane)⟩

private theorem onHeader_marked (b : Board) (row : Row) :
    Marked (boardMarks b) (boardMarks (b.onHeader row).1) (b.onHeader row).2 gate pRound := by
  rcases onHeader_cases b row with ⟨_, known⟩ | ⟨_, new⟩
  · rw [known]
    exact Marked.unchanged rfl
  · rw [new]
    exact ⟨fun _ => ⟨headerText row, rfl, by simp⟩, fun changed => absurd rfl changed,
      fun changed => absurd rfl changed, fun _ lane _ => .inl (cleared_lane b _ rfl rfl lane)⟩

private theorem onRounds_marked (b : Board) (row : Row) :
    Marked (boardMarks b) (boardMarks (b.onRounds row).1) (b.onRounds row).2 gate (b.onRounds row).1.pRound := by
  refine ⟨fun changed => absurd rfl changed, fun changed => ?_, fun changed => absurd rfl changed,
    fun _ lane changed => absurd changed (by simp [boardMarks, Board.onRounds])⟩
  by_cases same : b.rounds = some (roundsText row)
  · exact absurd (by simp [boardMarks, Board.onRounds, same]) changed
  · simp [Board.onRounds, same]

/-- Every frame marks only what it hands over. -/
theorem frame_marked (b : Board) (f : Segment) :
    Marked (boardMarks b) (boardMarks (b.frame f).1) (b.frame f).2 b.clock.sendActiveState
      (b.frame f).1.pRound := by
  have reply := frame_reply b f
  generalize b.frame f = answer at reply
  cases reply with
  | lane at_ number => exact (onLane_marked (b.stored f) at_ (b.read f)).among (by simp)
  | clock channel =>
      obtain ⟨clock, rest⟩ := onTime_frame ((b.stored f).onStartStop (b.read f)).1 (b.read f)
      have marked (round : Int) : Marked (boardMarks b) (boardMarks ((b.stored f).onStartStop (b.read f)).1)
          ((b.stored f).onStartStop (b.read f)).2 b.clock.sendActiveState round :=
        onStartStop_marked (b.stored f) (b.read f)
      simp only [rest]
      exact (marked _).among fun e member => by simp [member]
  | header channel => exact (onHeader_marked (b.stored f) (b.read f)).among (by simp)
  | rounds channel => exact (onRounds_marked (b.stored f) (b.read f)).among (by simp)
  | nothing channel => exact Marked.unchanged rfl

/-- What a frame would tell is marked already. -/
def Known (m : Marks) (f : Segment) (row : Row) : Prop :=
  (∃ lane : Lane, lane.number = f.channel ∧
    m.heat.get lane.index = .ok (shortText row) ∧ m.place.get lane.index = .ok (placeText row)) ∨
  (f.channel = 0x0C ∧ m.header = .ok (headerText row)) ∨
  (f.channel = 0x12 ∧ m.rounds = .ok (roundsText row)) ∨
  (f.channel = 0x00 ∧ m.bStopping = rowNotNull row)

private theorem recordText_some {r : Option (List Char)} {s : List Char} (record : recordText r = .ok s) :
    r = some s := by
  cases r with
  | none => cases record
  | some s' => exact congrArg some (Except.ok.inj record)

private theorem onStartStop_known {b : Board} {row : Row} (pending : b.startStop.pending = b.startStop.bStopping)
    (known : b.startStop.bStopping = rowNotNull row) : (b.onStartStop row).2 = [] := by
  rcases onStartStop_cases b row with ⟨_, stays⟩ | ⟨changed, _⟩
  · rw [stays]
  · rw [watch_bRunning, ← known, pending, ite_self] at changed
    exact absurd rfl changed

/-- A frame whose content is marked hands over nothing but the time. -/
theorem frame_known {b : Board} {f : Segment} (pending : b.startStop.pending = b.startStop.bStopping)
    (known : Known (boardMarks b) f (b.read f)) :
    (∀ s, .sendLaneData s ∉ (b.frame f).2) ∧
      ∀ s, .mqttSend s ∈ (b.frame f).2 → f.channel = 0x00 ∧ kindOf s = .time := by
  rcases known with ⟨lane, number, heat, place⟩ | ⟨channel, header⟩ | ⟨channel, rounds⟩ | ⟨channel, detector⟩
  · have time : b.heat.get lane.index = shortText (b.read f) := by simpa [boardMarks] using heat
    have rank : b.place.get lane.index = placeText (b.read f) := by simpa [boardMarks] using place
    have silent : ((b.stored f).onLane lane (b.read f)).2 = [] := by
      rcases onLane_cases (b.stored f) lane (b.read f) with ⟨told, _⟩ | ⟨_, silent, _⟩
      · have same : announces (b.heat.get lane.index) (b.place.get lane.index) (b.read f) = true := told
        simp [announces, time, rank] at same
      · exact silent
    rw [frame_lane b number, silent]
    simp
  · have last : b.header = some (headerText (b.read f)) := recordText_some header
    rw [frame_header b channel]
    rcases onHeader_cases (b.stored f) (b.read f) with ⟨_, stays⟩ | ⟨new, _⟩
    · simp [stays]
    · exact absurd (.inr last) new
  · have last : b.rounds = some (roundsText (b.read f)) := recordText_some rounds
    have silent : ((b.stored f).onRounds (b.read f)).2 = [] := if_pos last
    rw [frame_rounds b channel, silent]
    simp
  · have silent := onStartStop_known (b := b.stored f) pending detector
    rw [frame_detector b channel, silent]
    rcases onTime_cases ((b.stored f).onStartStop (b.read f)).1 (b.read f) with ⟨_, counts⟩ | ⟨_, samples⟩
    · simp [counts]
    · simp [samples, channel]

/-- Sending is fire and forget. The marks and everything handed to mqtt_send are the same whatever the broker answers.
Each byte marks only content that it hands to mqtt_send, and a frame whose content is marked hands over nothing, though
the broker may never have got it. -/
theorem marks_follow_sends (bytes : List UInt8) :
    (∀ host₁ host₂, ∃ g₁ g₂, run host₁ bytes = .ok g₁ ∧ run host₂ bytes = .ok g₂ ∧
      marks g₁ = marks g₂ ∧ g₁.trace = g₂.trace) ∧
    ∀ host x, ∃ g g' es, run host bytes = .ok g ∧ run host (bytes ++ [x]) = .ok g' ∧
      g'.trace = g.trace ++ es ∧ Marked (marks g) (marks g') es g.clock.sendActiveState g'.pRound ∧
      ∀ f, countingFrames (bytes ++ [x]) = countingFrames bytes ++ [f] →
        Known (marks g) f (rowOf (storeFrame g.coloradoData f) f) →
          (∀ s, .sendLaneData s ∉ es) ∧ ∀ s, .mqttSend s ∈ es → f.channel = 0x00 ∧ kindOf s = .time := by
  constructor
  · intro host₁ host₂
    obtain ⟨g₁, ran₁, tracks₁⟩ := run_tracks host₁ bytes
    obtain ⟨g₂, ran₂, tracks₂⟩ := run_tracks host₂ bytes
    exact ⟨g₁, g₂, ran₁, ran₂, by rw [shows_marks tracks₁.shows, shows_marks tracks₂.shows],
      by rw [tracks₁.trace, tracks₂.trace]⟩
  · intro host x
    obtain ⟨g, ran, tracks⟩ := run_tracks host bytes
    obtain ⟨g', ran', tracks'⟩ := run_tracks host (bytes ++ [x])
    have trace' := tracks'.trace
    have shown := shows_marks tracks.shows
    have shown' := shows_marks tracks'.shows
    rcases countingFrames_snoc bytes x with same | ⟨f, _, _, _, more⟩
    · rw [same] at trace' shown'
      refine ⟨g, g', [], ran, ran', by rw [trace', tracks.trace, List.append_nil], .unchanged (by rw [shown, shown']), ?_⟩
      intro f completes
      rw [same] at completes
      exact absurd (congrArg List.length completes) (by simp)
    · have round := tracks'.shows.pRound
      rw [more, after_snoc] at trace' shown' round
      refine ⟨g, g', ((after (countingFrames bytes)).1.frame f).2, ran, ran', ?_, ?_, ?_⟩
      · rw [trace', tracks.trace, List.cons_append]
      · rw [shown, shown', tracks.shows.clock, round]
        exact frame_marked _ f
      · intro f' completes known
        obtain rfl : f = f' := by simpa using more.symm.trans completes
        rw [shown, shows_read tracks.shows] at known
        exact frame_known (settled_after _).pending known

def refusing : Host := ⟨true, fun _ => 1, fun _ => 0, 8⟩

def twoHeaders : List UInt8 :=
  [0xA6, 0x0F, 0x1F, 0x2E, 0x3F, 0x4F, 0x5F, 0x6F, 0x7D, 0xA6, 0x0F, 0x1F, 0x2E, 0x3F, 0x4F, 0x5F, 0x6F, 0x7D]

/-- The second header frame hands over nothing, though the broker refused all messages before it. -/
theorem marks_follow_sends_header :
    ∃ g g' es f, run refusing twoHeaders = .ok g ∧ run refusing (twoHeaders ++ [0x80]) = .ok g' ∧
      g'.trace = g.trace ++ es ∧ countingFrames (twoHeaders ++ [0x80]) = countingFrames twoHeaders ++ [f] ∧
      f.channel = 0x0C ∧ (∀ call ∈ g.mqtt.calls, call.returned = 1) ∧ ∀ s, .mqttSend s ∉ es := by
  obtain ⟨g, g', es, ran, ran', trace, _, known⟩ := (marks_follow_sends twoHeaders).2 refusing 0x80
  let f : Segment := ⟨0xA6, [0x0F, 0x1F, 0x2E, 0x3F, 0x4F, 0x5F, 0x6F, 0x7D]⟩
  have completes : countingFrames (twoHeaders ++ [0x80]) = countingFrames twoHeaders ++ [f] := by decide
  have computed : (run refusing twoHeaders).map (fun g =>
      ((marks g).header, headerText (rowOf (storeFrame g.coloradoData f) f), g.mqtt.calls.map MqttCall.returned)) =
      .ok (.ok "header 001 002".toList, "header 001 002".toList, [1, 1, 1]) := by
    decide +kernel
  rw [ran] at computed
  simp only [Except.map, Except.ok.injEq, Prod.mk.injEq] at computed
  obtain ⟨header, same, returned⟩ := computed
  have channel : f.channel = 0x0C := by decide
  obtain ⟨_, silent⟩ := known f completes (.inr (.inl ⟨channel, by rw [header, same]⟩))
  refine ⟨g, g', es, f, ran, ran', trace, completes, channel, ?_, ?_⟩
  · intro call member
    have among : call.returned ∈ g.mqtt.calls.map MqttCall.returned := List.mem_map_of_mem member
    rw [returned] at among
    simpa using among
  · intro s sent
    exact absurd (channel.symm.trans (silent s sent).1) (by decide)

/-- The header is marked as delivered, and nothing was ever published. -/
theorem header_marked_unsent :
    ∃ g, run refusing [0xA6, 0x0F, 0x1F, 0x2E, 0x3F, 0x4F, 0x5F, 0x6F, 0x7D, 0x80] = .ok g ∧
      (marks g).header = .ok "header 001 002".toList ∧
      g.mqtt.calls.map MqttCall.message = [greeting, "header 001 002".toList, "header 001 002".toList] ∧
      ∀ call ∈ g.mqtt.calls, call.published = none ∧ call.returned = 1 := by
  obtain ⟨g, ran, _⟩ := run_tracks refusing [0xA6, 0x0F, 0x1F, 0x2E, 0x3F, 0x4F, 0x5F, 0x6F, 0x7D, 0x80]
  have computed : (run refusing [0xA6, 0x0F, 0x1F, 0x2E, 0x3F, 0x4F, 0x5F, 0x6F, 0x7D, 0x80]).map
      (fun g => ((marks g).header, g.mqtt.calls)) =
      .ok (.ok "header 001 002".toList,
        [⟨greeting, 25, 8, some 1, none, 1⟩, ⟨"header 001 002".toList, 14, 8, some 1, none, 1⟩,
          ⟨"header 001 002".toList, 14, 8, some 1, none, 1⟩]) := by
    decide +kernel
  rw [ran] at computed
  simp only [Except.map, Except.ok.injEq, Prod.mk.injEq] at computed
  obtain ⟨header, calls⟩ := computed
  refine ⟨g, ran, header, ?_, ?_⟩
  · rw [calls]
    rfl
  · rw [calls]
    decide

end SerialTiming.Laws.Records
