/- module: SerialTiming/Laws/Publishing
   digest: Which messages are long enough for the buffer that mqtt_send clears and never uses. -/

import SerialTiming.Decoder.Sender
import SerialTiming.Laws.Framing
import SerialTiming.Scoreboard.Sampler

set_option autoImplicit false
set_option relaxedAutoImplicit false

namespace SerialTiming.Laws.Publishing

open CLib.Objects CLib.Strings CLib.Outcomes Line.Segments Scoreboard.Display Scoreboard.Clocks Scoreboard.Boards
open Scoreboard.Answers Scoreboard.Sampler Decoder.State Decoder.ReadData Decoder.Sender Framing

def wide (host : Host) : Host := { host with pointerSize := 8 }

/-- memset stays within what malloc gave, in each call of mqtt_send. -/
def ClearsWithin (g : Globals) : Prop := ∀ call ∈ g.mqtt.calls, call.cleared ≤ call.allocated

/-- mqtt_send allocates the length of its message and clears the size of a pointer, on each of its paths. -/
def Sized (host : Host) (m : Mqtt) : Prop :=
  ∀ call ∈ m.calls, call.allocated = call.message.length ∧ call.cleared = host.pointerSize

theorem send_sized (host : Host) (message : List Char) (m : Mqtt) (sized : Sized host m) :
    Sized host (m.send host message).2 := by
  have appended : ∃ call : MqttCall, (m.send host message).2.calls = m.calls ++ [call] ∧
      call.allocated = call.message.length ∧ call.cleared = host.pointerSize := by
    unfold Mqtt.send
    split
    · dsimp only
      split <;> split <;> (try split) <;> exact ⟨_, rfl, rfl, rfl⟩
    · exact ⟨_, rfl, rfl, rfl⟩
  obtain ⟨last, calls, fits⟩ := appended
  intro call among
  rw [calls, List.mem_append, List.mem_singleton] at among
  rcases among with earlier | rfl
  · exact sized call earlier
  · exact fits

theorem clearsWithin_iff (host : Host) {bytes : List UInt8} {g : Globals} (ran : run (wide host) bytes = .ok g)
    (tracks : Tracks bytes g) :
    ClearsWithin g ↔ ∀ m, .mqttSend m ∈ (after (countingFrames bytes)).2 → 8 ≤ m.length := by
  have sized : Sized (wide host) g.mqtt :=
    run_keeps (wide host) (send_sized (wide host)) (by intro call among; cases among) bytes g ran
  have messages : ∀ m, (∃ call ∈ g.mqtt.calls, call.message = m) ↔
      m = greeting ∨ .mqttSend m ∈ (after (countingFrames bytes)).2 := by
    intro m
    rw [← List.mem_map, tracks.shows.calls, tracks.trace, List.mem_filterMap]
    constructor
    · rintro ⟨e, among, sent⟩
      cases e with
      | mqttSend message =>
          obtain rfl := Option.some.inj sent
          rcases List.mem_cons.mp among with greets | later
          · exact .inl (Event.mqttSend.inj greets)
          · exact .inr later
      | _ => cases sent
    · rintro (rfl | among)
      · exact ⟨_, List.mem_cons_self, rfl⟩
      · exact ⟨_, List.mem_cons_of_mem _ among, rfl⟩
  constructor
  · intro within m sent
    obtain ⟨call, among, rfl⟩ := (messages m).mpr (.inr sent)
    obtain ⟨allocated, cleared⟩ := sized call among
    have inside := within call among
    rw [allocated, cleared] at inside
    exact inside
  · intro long call among
    obtain ⟨allocated, cleared⟩ := sized call among
    rw [allocated, cleared]
    rcases (messages call.message).mp ⟨call, among, rfl⟩ with greets | sent
    · rw [greets]
      show 8 ≤ greeting.length
      decide
    · exact long call.message sent

/-- The frame is no rounds frame, and if it is a clock frame, its row holds zeros and blanks only. -/
def Harmless (row : Row) (f : Segment) : Prop := ¬ f.channel = 0x12 ∧ (f.channel = 0x00 → NullCells row)

/-- As long as every frame is harmless nothing has started, no rounds are recorded, and all messages are long. -/
structure Waiting (b : Board) (events : List Event) : Prop where
  rounds : b.rounds = none ∧ b.pRound = 0
  settled : Settled b.startStop
  stopped : b.startStop.bStopping = false
  long : ∀ m, .mqttSend m ∈ events → 8 ≤ m.length

theorem Waiting.watch {b : Board} {events : List Event} (waiting : Waiting b events) (row : Row) :
    (b.startStop.watch row).bRunning = rowNotNull row := by
  rw [watch_bRunning, if_pos (waiting.settled.looks waiting.stopped)]

theorem waiting_frame {b : Board} {events : List Event} {f : Segment} (waiting : Waiting b events)
    (harmless : Harmless (b.read f) f) : Waiting (b.frame f).1 (events ++ (b.frame f).2) := by
  obtain ⟨noRounds, blank⟩ := harmless
  have others := frame_rounds_other b noRounds
  have detector := frame_startStop b f
  refine ⟨⟨others.1.trans waiting.rounds.1, others.2.trans waiting.rounds.2⟩, ?_, ?_, ?_⟩
  · rw [detector]
    split
    · exact settled_observe (b.read f)
    · exact waiting.settled
  · rw [detector]
    split
    · rename_i clock
      rw [settle_bStopping, waiting.watch, (rowNotNull_false _).mpr (blank clock)]
    · exact waiting.stopped
  · intro m sent
    rcases List.mem_append.mp sent with earlier | now
    · exact waiting.long m earlier
    rcases frame_message now with ⟨lane, _, rfl, _⟩ | ⟨clock, switched⟩ | ⟨_, rfl⟩ | ⟨channel, _⟩
    · exact Nat.le_trans (by decide) (laneText_length_ge lane.number (b.read f))
    · obtain ⟨rest, given, timed⟩ := frame_clock b clock
      have silent : ((b.stored f).onStartStop (b.read f)).2 = [] := by
        rcases onStartStop_cases (b.stored f) (b.read f) with ⟨_, stays⟩ | ⟨switches, _⟩
        · rw [stays]
        · refine absurd ?_ switches
          exact (waiting.watch (b.read f)).trans (((rowNotNull_false _).mpr (blank clock)).trans waiting.stopped.symm)
      rw [given, silent] at now
      have timed : m = timeText (b.read f) := timed m (by simpa using now)
      rw [timed]
      exact Nat.le_trans (by decide) (timeText_length_ge (b.read f))
    · exact Nat.le_trans (by decide) (headerText_length_ge (b.read f))
    · exact absurd channel noRounds

theorem waiting_short {b : Board} {events : List Event} {f : Segment} (waiting : Waiting b events)
    (harmful : ¬ Harmless (b.read f) f) : ∃ m, .mqttSend m ∈ (b.frame f).2 ∧ m.length < 8 := by
  by_cases rounds : f.channel = 0x12
  · have new : ¬ (b.stored f).rounds = some (roundsText (b.read f)) := by
      have nothing : (b.stored f).rounds = none := waiting.rounds.1
      rw [nothing]
      exact Option.some_ne_none _ ∘ Eq.symm
    have zero : (b.stored f).pRound = 0 := waiting.rounds.2
    rw [frame_rounds b rounds]
    simp only [Board.onRounds, if_neg new, zero]
    split
    · exact ⟨roundText 0, by simp, by decide⟩
    · exact ⟨roundText (Board.nextRound 0), by simp, by decide⟩
  · have clock : f.channel = 0x00 ∧ ¬ NullCells (b.read f) := by
      by_contra none
      exact harmful ⟨rounds, fun clock => by_contra fun shows => none ⟨clock, shows⟩⟩
    have seen : (b.startStop.watch (b.read f)).bRunning = true := by
      rw [waiting.watch]
      exact Bool.eq_true_of_not_eq_false fun blank => clock.2 ((rowNotNull_false _).mp blank)
    obtain ⟨rest, given, _⟩ := frame_clock b clock.1
    have starts : ((b.stored f).onStartStop (b.read f)).2 = [.mqttSend startText] := by
      rcases onStartStop_cases (b.stored f) (b.read f) with ⟨stays, _⟩ | ⟨_, switches⟩
      · have same : (b.startStop.watch (b.read f)).bRunning = b.startStop.bStopping := stays
        rw [seen, waiting.stopped] at same
        cases same
      · rw [switches]
        exact congrArg (fun running => [Event.mqttSend (if running then startText else stopText)]) seen
    refine ⟨startText, ?_, by decide⟩
    rw [given, starts]
    simp

def AllHarmless (frames : List Segment) : Prop :=
  ∀ (before : List Segment) (f : Segment) (later : List Segment), frames = before ++ f :: later →
    Harmless ((after before).1.read f) f

theorem waiting_after {frames : List Segment} (harmless : AllHarmless frames) :
    Waiting (after frames).1 (after frames).2 := by
  apply after_invariant_if Waiting (fun b f => Harmless (b.read f) f)
  · refine ⟨⟨rfl, rfl⟩, ⟨rfl, rfl, Nat.zero_le 5⟩, rfl, ?_⟩
    intro m sent
    cases sent
  · intro b events f ok waiting
    exact waiting_frame waiting ok
  · exact harmless

theorem long_iff (frames : List Segment) :
    (∀ m, .mqttSend m ∈ (after frames).2 → 8 ≤ m.length) ↔ AllHarmless frames := by
  refine ⟨fun long => ?_, fun harmless => (waiting_after harmless).long⟩
  induction frames using List.reverseRecOn with
  | nil =>
      intro before f later split
      exact absurd (congrArg List.length split) (by simp)
  | append_singleton frames last ih =>
      rw [after_snoc] at long
      have earlier := ih fun m sent => long m (List.mem_append_left _ sent)
      intro before f later split
      rcases List.eq_nil_or_concat later with rfl | ⟨front, x, rfl⟩
      · obtain ⟨rfl, rfl⟩ := List.append_inj' split rfl |>.imp id List.singleton_inj.mp
        by_contra harmful
        obtain ⟨m, sent, short⟩ := waiting_short (waiting_after earlier) harmful
        have enough := long m (List.mem_append_right _ sent)
        omega
      · have rest : frames = before ++ f :: front := by
          have same : frames ++ [last] = (before ++ f :: front) ++ [x] := by simpa using split
          exact (List.append_inj' same rfl).1
        exact earlier before f front rest

/-- The sender's buffer. On a 64-bit build, whatever client and broker answer, mqtt_send stays within the buffer it
allocates exactly on the lines on which no rounds frame counts and each clock frame that counts reads zeros and
blanks. -/
theorem publishing_within (host : Host) (bytes : List UInt8) :
    ∃ g, run (wide host) bytes = .ok g ∧
      (ClearsWithin g ↔ ∀ (g' : Globals) (f : Segment), Meets (wide host) bytes g' f →
        Harmless (rowOf (storeFrame g'.coloradoData f) f) f) := by
  obtain ⟨g, ran, tracks⟩ := run_tracks (wide host) bytes
  refine ⟨g, ran, ?_⟩
  rw [clearsWithin_iff host ran tracks, long_iff]
  constructor
  · intro harmless g' f meets
    obtain ⟨before, later, split, shows⟩ := meets_split meets
    rw [shows_read shows f]
    exact harmless before f later split
  · intro harmless before f later split
    obtain ⟨g', meets, shows⟩ := split_meets (wide host) split
    rw [← shows_read shows f]
    exact harmless g' f meets

def raceClock : List UInt8 := [0xBE, 0x10, 0x20, 0x36, 0x4A, 0x56, 0x66, 0xBE]

/-- The start message is five bytes long, and eight are cleared. -/
theorem start_overflows :
    ∃ g, run (wide Host.reliable) raceClock = .ok g ∧ ¬ ClearsWithin g := by
  obtain ⟨g, ran, tracks⟩ := run_tracks (wide Host.reliable) raceClock
  refine ⟨g, ran, ?_⟩
  intro within
  have sent : .mqttSend startText ∈ (after (countingFrames raceClock)).2 := by decide +kernel
  have long := (clearsWithin_iff Host.reliable ran tracks).mp within startText sent
  exact absurd long (by decide)

end SerialTiming.Laws.Publishing
