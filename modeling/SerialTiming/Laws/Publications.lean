/- module: SerialTiming/Laws/Publications
   digest: The decoder's messages behind the client library and the broker: none altered, none twice, none lost. -/

import SerialTiming.Decoder.Sender
import SerialTiming.Program.Exchange
import SerialTiming.Scoreboard.Answers

set_option autoImplicit false
set_option relaxedAutoImplicit false

namespace SerialTiming.Laws.Publications

open CLib.Objects CLib.Outcomes Line.Segments Scoreboard.Display Scoreboard.Boards Scoreboard.Answers
open Decoder.Header Decoder.State Decoder.ReadData Decoder.Sender
open Mosquitto.Packets Mosquitto.Connect Program.MqttUtils Program.Contexts Program.Exchange

/-- The messages that the decoder hands to mqtt_send. -/
def told (bytes : List UInt8) : List (List Char) :=
  greeting :: (after (countingFrames bytes)).2.filterMap sentText

/-- A rounds counter is an int, and the messages fit into the buffers that they are printed to. -/
def Sized (b : Board) (es : List Event) : Prop :=
  (-2 ^ 31 ≤ b.pRound ∧ b.pRound < 2 ^ 31) ∧ ∀ m, .mqttSend m ∈ es → m.length ≤ 25

theorem frame_pRound {b : Board} (inside : -2 ^ 31 ≤ b.pRound ∧ b.pRound < 2 ^ 31) (f : Segment) :
    -2 ^ 31 ≤ (b.frame f).1.pRound ∧ (b.frame f).1.pRound < 2 ^ 31 := by
  by_cases channel : f.channel = 0x12
  · rw [frame_rounds b channel]
    simp only [Board.onRounds]
    split
    · decide
    split
    · exact inside
    · exact nextRound_range _
  · rw [(frame_rounds_other b channel).2]
    exact inside

theorem frame_sized {b : Board} (inside : -2 ^ 31 ≤ b.pRound ∧ b.pRound < 2 ^ 31) {f : Segment} {m : List Char}
    (sent : .mqttSend m ∈ (b.frame f).2) : m.length ≤ 25 := by
  have range := frame_pRound inside f
  rcases frame_message sent with ⟨lane, _, rfl, _⟩ | ⟨_, rfl | rfl | rfl⟩ | ⟨_, rfl⟩ | ⟨channel, _⟩
  · exact laneText_length _ lane.inRange.2
  · decide
  · decide
  · exact (timeText_length _).trans (show 17 ≤ 25 by decide)
  · exact (headerText_length _).trans (show 20 ≤ 25 by decide)
  · rw [frame_rounds b channel] at sent range
    simp only [Board.onRounds, List.mem_cons, reduceCtorEq, false_or] at sent range
    rw [List.mem_ite_nil_left] at sent
    obtain rfl := Event.mqttSend.inj (List.mem_singleton.mp sent.2)
    exact (roundText_length range.1 range.2).trans (show 17 ≤ 25 by decide)

theorem after_sized (frames : List Segment) : Sized (after frames).1 (after frames).2 := by
  refine after_invariant Sized ⟨by decide, by simp⟩ ?_ frames
  rintro b out f ⟨inside, short⟩
  refine ⟨frame_pRound inside f, ?_⟩
  intro m sent
  rcases List.mem_append.mp sent with before | now
  · exact short m before
  · exact frame_sized inside now

theorem told_short {bytes : List UInt8} {message : List Char} (among : message ∈ told bytes) : Short message := by
  have few : message.length ≤ 25 := by
    rcases List.mem_cons.mp among with rfl | later
    · decide
    · obtain ⟨e, member, sent⟩ := List.mem_filterMap.mp later
      cases e with
      | mqttSend m =>
          obtain rfl := Option.some.inj sent
          exact (after_sized _).2 m member
      | _ => cases sent
  have named : topic.length = 7 := by decide
  rw [Short, publishBody_length, publishLength, octets, List.length_map, named]
  simp only [gt_iff_lt, UInt8.lt_irrefl, ↓reduceIte]
  omega

def sends (host : Host) (texts : List (List Char)) : Mqtt :=
  texts.foldl (fun m message => (m.send host message).2) Mqtt.start

def Own (host : Host) (m : Mqtt) : Prop := m = sends host (m.calls.map MqttCall.message)

theorem send_own (host : Host) (message : List Char) (m : Mqtt) (own : Own host m) :
    Own host (m.send host message).2 := by
  rw [Own, Mqtt.send_calls, sends, List.foldl_append, ← sends, ← own]
  rfl

theorem run_sends {host : Host} {bytes : List UInt8} {g : Globals} (ran : run host bytes = .ok g) :
    g.mqtt = sends host (told bytes) := by
  have own : Own host g.mqtt := Decoder.Sender.run_keeps host (send_own host) rfl bytes g ran
  obtain ⟨g', same, tracks⟩ := run_tracks host bytes
  obtain rfl := Except.ok.inj (ran.symm.trans same)
  have texts : g.mqtt.calls.map MqttCall.message = told bytes := by
    rw [tracks.shows.calls, tracks.trace]
    rfl
  rw [← texts]
  exact own

theorem clientid_length (number : Int) : (clientid number).length ≤ 22 := by
  rw [clientid, octets, List.length_map]
  exact List.length_take_le _ _

def introduction (number : Int) : List UInt8 := connectBody 60 true (clientid number)

theorem introduction_short (number : Int) : (introduction number).length < 128 ^ 4 := by
  have few := clientid_length number
  rw [introduction, connectBody_length, connectLength]
  omega

theorem start_linked (good : Prop) (memory : Bool) (number : Int) (outside : Outside) :
    Linked good (frame cmdConnect (introduction number)) outside [] (Network.start memory number) [] := by
  have none : (Network.start memory number).publisher.connections = [] := by
    simp only [Network.start, mqttConnect, mosquittoNew, Publisher.connections]
    split <;> rfl
  exact {
    client := by
      intro c made
      simp only [Network.start, mqttConnect, mosquittoNew] at made
      split at made
      · obtain rfl := Option.some.inj made
        exact ⟨Nat.lt_of_le_of_lt (clientid_length number) (by decide), rfl, rfl⟩
      · cases made
    length := by rw [none]; rfl
    taken := rfl
    link := by
      intro k line mark connection
      rw [none] at connection
      cases connection
    fresh := fun _ _ => rfl
    lossless := fun _ _ => ⟨rfl, rfl, none⟩ }

theorem send_prefix (host : Host) (message : List Char) (m : Mqtt) : m.calls <+: (m.send host message).2.calls := by
  unfold Mqtt.send
  split
  · dsimp only
    split <;> split <;> (try split) <;> exact List.prefix_append _ _
  · exact List.prefix_append _ _

theorem sends_prefix (host : Host) (texts more : List (List Char)) :
    (sends host texts).calls <+: (sends host (texts ++ more)).calls := by
  induction more using List.reverseRecOn with
  | nil => rw [List.append_nil]
  | append_singleton more last ih =>
      refine ih.trans ?_
      rw [← List.append_assoc, sends, sends, List.foldl_append (l := texts ++ more)]
      exact send_prefix host last _

theorem sends_texts (host : Host) (texts : List (List Char)) :
    (sends host texts).calls.map MqttCall.message = texts := by
  induction texts using List.reverseRecOn with
  | nil => rfl
  | append_singleton texts last ih =>
      rw [sends, List.foldl_append, ← sends]
      show ((sends host texts).send host last).2.calls.map MqttCall.message = _
      rw [Mqtt.send_calls, ih]

def calm : World where
  outside := ⟨fun _ => true, fun _ => .success, fun _ => .takes 40⟩
  pointerSize := 8
  policy :=
    { maxPacketSize := 0, messageSizeLimit := 0, retainAvailable := true
      connects := fun _ _ => (.success, .active)
      others := fun _ _ _ => (.protocol, .disconnected)
      accessCheck := fun _ _ => .success
      queues := fun _ _ => true }

/-- A header frame and the address byte behind it. -/
def headerLine : List UInt8 := [0xA6, 0x0E, 0x1E, 0x2E, 0x3E, 0x4E, 0x5E, 0x6E, 0x7E, 0xA6]

/-- The broker reads from the connections while the greeting and the header, which is sent twice, are published. -/
def headerRun : List Action :=
  let reads (number : Nat) : Action := .poll number fun _ => .gives 4
  let header := "header 111 111".toList
  [.mqttSend greeting, reads 0, .mqttSend header, reads 1, reads 0, .mqttSend header, reads 2, reads 1, reads 2]

private theorem headerRun_calls : messages headerRun = told headerLine := by decide +kernel

/-- Publishing, once at most. Whatever the library is answered, and whenever and however far the broker reads, the
decoder's calls of mqtt_send are those over the library with the answers that it gave. What the broker hands on,
connection by connection, is a part of what mosquitto_publish took of the decoder's messages: in their order, unaltered,
and one on each connection at most. -/
theorem messages_reach_broker_once (memory : Bool) (number : Int) (world : World) {bytes : List UInt8}
    {actions : List Action} (calls : messages actions <+: told bytes) :
    ∃ s g, (Network.start memory number).run world actions = .ok s ∧
      run (s.publisher.host world.pointerSize) bytes = .ok g ∧
      s.publisher.calls <+: g.mqtt.calls ∧ s.publisher.calls.map MqttCall.message = messages actions ∧
      s.received.Sublist (s.publisher.taken.map publication) ∧ ∀ k, (s.contexts k).published.length ≤ 1 := by
  have short : ∀ message ∈ messages actions, Short message := fun message among => told_short (calls.subset among)
  obtain ⟨s, marks, ran, linked⟩ := run_linked (nofun : False → Open world.policy) (introduction_short number) short
    (start_linked False memory number world.outside)
  obtain ⟨g, decoded, -⟩ := run_tracks (s.publisher.host world.pointerSize) bytes
  have sender := run_sends decoded
  have published := run_publishes ran
  have refines := publish_refines published (m := Mqtt.start) (publish_calls published).2 rfl
    (host_answers s.publisher world.pointerSize) ⟨rfl, rfl, rfl, rfl⟩
  have same : (sends (s.publisher.host world.pointerSize) (messages actions)).calls = s.publisher.calls := refines.calls
  have before : s.publisher.calls <+: g.mqtt.calls := by
    obtain ⟨more, all⟩ := calls
    rw [sender, ← all, ← same]
    exact sends_prefix _ _ more
  refine ⟨s, g, ran, decoded, before, ?_, received_sublist linked, received_once linked⟩
  rw [← same, sends_texts]

theorem messages_reach_broker_once_header :
    ∃ s g, (Network.start true 1).run calm headerRun = .ok s ∧
      run (s.publisher.host calm.pointerSize) headerLine = .ok g ∧
      s.publisher.calls <+: g.mqtt.calls ∧ s.publisher.calls.map MqttCall.message = messages headerRun ∧
      s.received.Sublist (s.publisher.taken.map publication) ∧ ∀ k, (s.contexts k).published.length ≤ 1 :=
  messages_reach_broker_once true 1 calm (headerRun_calls ▸ List.prefix_rfl)

/-- Publishing, with nothing lost. Where the library gets all that it asks for and the broker takes everything, it has
handed on all messages of the decoder, in their order, once it has read what was written to each connection. -/
theorem all_messages_reach_broker (number : Int) {world : World} (lossless : world.outside.Lossless)
    (takes : Open world.policy) {bytes : List UInt8} {actions : List Action} (calls : messages actions = told bytes)
    {s : Network} (ran : (Network.start true number).run world actions = .ok s) (read : s.ReadAll) :
    s.received = (told bytes).map publication := by
  have short : ∀ message ∈ messages actions, Short message := by
    intro message among
    rw [calls] at among
    exact told_short among
  obtain ⟨s', marks, ran', linked⟩ := run_linked (fun _ : True => takes) (introduction_short number) short
    (start_linked True true number world.outside)
  obtain rfl := Except.ok.inj (ran.symm.trans ran')
  rw [List.nil_append, calls] at linked
  have client : s.publisher.mosq.isSome = true := by
    rw [(publish_calls (run_publishes ran)).2]
    exact mqttConnect_made number
  exact received_all trivial lossless client (introduction_short number) read linked

private theorem calm_read : ((Network.start true 1).run calm headerRun).toOption.any (fun s => s.ReadAll) = true := by
  decide +kernel

theorem all_messages_reach_broker_header :
    ∃ s, (Network.start true 1).run calm headerRun = .ok s ∧ s.received = (told headerLine).map publication := by
  have lossless : calm.outside.Lossless := ⟨fun _ => rfl, fun _ => rfl, fun _ => ⟨40, rfl⟩⟩
  have takes : Open calm.policy := ⟨rfl, fun _ _ => rfl, fun _ _ => rfl⟩
  have read := calm_read
  cases ran : (Network.start true 1).run calm headerRun with
  | error e =>
      rw [ran] at read
      cases read
  | ok s =>
      rw [ran] at read
      exact ⟨s, rfl, all_messages_reach_broker 1 lossless takes headerRun_calls ran (of_decide_eq_true read)⟩

end SerialTiming.Laws.Publications
