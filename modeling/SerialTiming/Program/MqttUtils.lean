/- module: SerialTiming/Program/MqttUtils
   digest: mqttUtils.cpp over the client library, and what each call of mqtt_send leaves on which connection. -/

import SerialTiming.CLib.Outcomes
import SerialTiming.Decoder.State
import SerialTiming.Mosquitto.Connect

set_option autoImplicit false
set_option relaxedAutoImplicit false

namespace SerialTiming.Program.MqttUtils

open CLib.Objects CLib.Strings CLib.Outcomes Decoder.State Mosquitto.Packets Mosquitto.Connect

def octets (s : List Char) : List UInt8 := s.map fun c => UInt8.ofNat c.toNat

/-- snprintf leaves 22 chars and the terminator. The number is getpid(), or 1 on Windows. -/
def clientid (number : Int) : List UInt8 := octets ((format "mysql_log_%d".toList [number]).take 22)

def mqttHost : List UInt8 := ascii "localhost"

def mqttPort : Int := 1883

def topic : List UInt8 := ascii "rawdata"

/-- The globals `mosq` and `error_state`, and the calls of mqtt_send. -/
structure Publisher where
  mosq : Option Client
  errorState : Bool
  calls : List MqttCall
  deriving DecidableEq, Repr

def mqttConnect (memory : Bool) (number : Int) : Publisher :=
  ⟨mosquittoNew memory (clientid number) true, false, []⟩

theorem clientid_text (number : Int) : format "mysql_log_%d".toList [number] = "mysql_log_".toList ++ decimal number := by
  simp [format]

theorem byte_printable {c : Char} (low : 0x20 ≤ c.toNat) (high : c.toNat ≤ 0x7E) :
    0x20 ≤ UInt8.ofNat c.toNat ∧ UInt8.ofNat c.toNat ≤ 0x7E := by
  have number : (UInt8.ofNat c.toNat).toNat = c.toNat := UInt8.toNat_ofNat_of_lt' (Nat.lt_of_le_of_lt high (by decide))
  rw [UInt8.le_iff_toNat_le, UInt8.le_iff_toNat_le, number]
  exact ⟨low, high⟩

theorem decimal_printable (number : Int) {c : Char} (among : c ∈ decimal number) : 0x20 ≤ c.toNat ∧ c.toNat ≤ 0x7E := by
  have digits (m : Nat) (among : c ∈ Nat.toDigits 10 m) : 0x20 ≤ c.toNat ∧ c.toNat ≤ 0x7E := by
    have digit := Nat.isDigit_of_mem_toDigits (by omega) (by omega) among
    simp only [Char.isDigit, Bool.and_eq_true, decide_eq_true_eq] at digit
    have low := UInt32.le_iff_toNat_le.mp digit.1
    have high := UInt32.le_iff_toNat_le.mp digit.2
    exact ⟨Nat.le_trans (by decide) low, Nat.le_trans high (by decide)⟩
  cases number with
  | ofNat m => exact digits m among
  | negSucc m =>
      rcases List.mem_cons.mp among with rfl | rest
      · decide
      · exact digits (m + 1) rest

theorem clientid_printable (number : Int) : ∀ b ∈ clientid number, 0x20 ≤ b ∧ b ≤ 0x7E := by
  intro b among
  obtain ⟨c, member, rfl⟩ := List.mem_map.mp among
  have inside : c ∈ "mysql_log_".toList ++ decimal number := clientid_text number ▸ List.mem_of_mem_take member
  have plain : ∀ c ∈ "mysql_log_".toList, 0x20 ≤ c.toNat ∧ c.toNat ≤ 0x7E := by simp
  rcases List.mem_append.mp inside with name | figures
  · exact byte_printable (plain c name).1 (plain c name).2
  · exact byte_printable (decimal_printable number figures).1 (decimal_printable number figures).2

theorem mqttConnect_made (number : Int) : (mqttConnect true number).mosq.isSome = true := by
  have valid : mosquittoValidateUtf8 (clientid number) = .success := by
    have few : ¬ (clientid number).length > 65536 := by
      rw [clientid, octets, List.length_map]
      have most := List.length_take_le 22 (format "mysql_log_%d".toList [number])
      omega
    rw [mosquittoValidateUtf8, if_neg few, if_pos (validSequences_printable (clientid_printable number))]
  have named : clientid number ≠ [] := by
    intro none
    rw [clientid, clientid_text] at none
    cases none
  rw [mqttConnect, mosquittoNew, if_pos ⟨rfl, named, valid⟩, Option.isSome_some]

/-- mosquitto_reconnect is called after an error, and its result is not looked at. -/
def reconnected (outside : Outside) (errorState : Bool) (mosq : Client) : Checked Client :=
  if errorState then (mosquittoReconnect outside mosq).map Prod.snd else .ok mosq

namespace Publisher

def mqttSend (outside : Outside) (pointerSize : Nat) (message : List Char) (p : Publisher) :
    Checked (Int × Publisher) :=
  let call : MqttCall := ⟨message, message.length, pointerSize, none, none, 0⟩
  match p.mosq with
  | none => .ok (0, { p with calls := p.calls ++ [call] })
  | some mosq => do
      let mosq ← reconnected outside p.errorState mosq
      let (rc, mosq) ← mosquittoConnect outside mqttHost mqttPort 60 mosq
      let call := { call with connected := some rc.code, returned := rc.code }
      if rc.code ≠ 0 then .ok (rc.code, ⟨some mosq, true, p.calls ++ [call]⟩)
      else do
        let (rc, mosq) ← mosquittoPublish outside topic (octets message) false mosq
        let call := { call with published := some rc.code, returned := rc.code }
        if rc.code ≠ 0 then .ok (rc.code, ⟨some mosq, true, p.calls ++ [call]⟩)
        else .ok (0, ⟨some mosq, false, p.calls ++ [call]⟩)

def publish (outside : Outside) (pointerSize : Nat) (messages : List (List Char)) (p : Publisher) :
    Checked Publisher :=
  messages.foldlM (fun p message => (p.mqttSend outside pointerSize message).map Prod.snd) p

def connections (p : Publisher) : List (List UInt8) := (p.mosq.map Client.connections).getD []

def taken (p : Publisher) : List (List Char) :=
  (p.calls.filter fun call => call.published = some 0).map MqttCall.message

end Publisher

/-- What goes over a connection on which a message is published, behind the packet with which the client introduces
itself. -/
def session (hello : List UInt8) (message : List Char) : List UInt8 :=
  hello ++ frame (publishCommand false 0 false) (publishBody topic (octets message))

def Short (message : List Char) : Prop := (publishBody topic (octets message)).length < 128 ^ 4

instance (message : List Char) : Decidable (Short message) := inferInstanceAs (Decidable (_ < _))

/-- A connection carries the beginning of the session of the message that it is marked with, or less than a session. -/
def Carries (hello w : List UInt8) : Option (List Char) → Prop
  | some message => Short message ∧ w <+: session hello message
  | none => ∃ message, Short message ∧ w <+: session hello message ∧ w ≠ session hello message

/-- A client that introduces itself so. -/
structure Ready (hello : List UInt8) (c : Client) : Prop where
  short : c.id.length < 65526
  keepalive : c.keepalive = 60
  packet : c.connectPacket = hello

/-- A call of mqtt_send appends `call` to the calls, and to the connections of the client `news` with their `marks`. -/
structure Told (hello : List UInt8) (outside : Outside) (message : List Char) (p p' : Publisher) (c c' : Client)
    (call : MqttCall) (news : List (List UInt8)) (marks : List (Option (List Char))) : Prop where
  client : p'.mosq = some c'
  ready : Ready hello c'
  calls : p'.calls = p.calls ++ [call]
  text : call.message = message
  connections : c'.connections = c.connections ++ news
  carries : List.Forall₂ (Carries hello) news marks
  taken : marks.reduceOption = if call.published = some 0 then [message] else []
  lossless : outside.Lossless → p.errorState = false →
    call.published = some 0 ∧ p'.errorState = false ∧ news = [session hello message]

section Sessions
variable {hello w : List UInt8}

theorem session_longer (hello : List UInt8) (message : List Char) : hello.length < (session hello message).length := by
  have some := List.length_pos_of_ne_nil (frame_ne_nil (publishCommand false 0 false) (publishBody topic (octets message)))
  rw [session, List.length_append]
  omega

theorem carries_hello (first : w <+: hello) : Carries hello w none := by
  refine ⟨[], by decide, first.trans (List.prefix_append _ _), ?_⟩
  rintro rfl
  have longer := session_longer hello []
  have shorter := first.length_le
  omega

theorem Ready.alike {c c' : Client} (ready : Ready hello c) (alike : c.Alike c') : Ready hello c' := by
  obtain ⟨id, -, keepalive⟩ := id alike
  exact ⟨by rw [id]; exact ready.short, keepalive.trans ready.keepalive, alike.connectPacket.trans ready.packet⟩

theorem joined_carries {good : Prop} {c : Client} {answer : MosqErr × Client} (joined : Joined good c answer)
    (ready : Ready hello c) : ∃ news : List (List UInt8), answer.2.connections = c.connections ++ news ∧
      ∀ w ∈ news, Carries hello w none := by
  by_cases ok : answer.1 = .success
  · obtain ⟨closed, -, w, sock, packet⟩ := joined.success ok
    refine ⟨[w], by rw [Client.connections, closed, sock, Option.toList_some], ?_⟩
    intro v same
    obtain rfl := List.mem_singleton.mp same
    refine carries_hello ?_
    rw [← ready.packet, ← packet]
    exact List.prefix_append _ _
  · obtain ⟨new, connections, part⟩ := joined.failed ok
    refine ⟨new.toList, connections, fun w among => carries_hello ?_⟩
    rw [← ready.packet]
    exact (part w (Option.mem_toList.mp among)).1

theorem unmarked {news : List (List UInt8)} (part : ∀ w ∈ news, Carries hello w none) :
    List.Forall₂ (Carries hello) news (news.map fun _ => none) := by
  induction news with
  | nil => exact .nil
  | cons w news ih =>
      refine .cons (part w List.mem_cons_self) (ih ?_)
      intro v among
      exact part v (List.mem_cons_of_mem w among)

end Sessions

section Sending
variable {hello : List UInt8} (outside : Outside)

theorem publish_carries {c : Client} {w : List UInt8} (sock : c.sock = some w) (state : c.state = .connected)
    (packet : w ++ c.pending = hello) (ready : Ready hello c) {message : List Char} (short : Short message) :
    ∃ rc c', mosquittoPublish outside topic (octets message) false c = .ok (rc, c') ∧ Ready hello c' ∧
      ∃ v, c'.connections = c.closed ++ [v] ∧
        Carries hello v (if rc = .success then some message else none) ∧
        (outside.Lossless → rc = .success ∧ v = session hello message) := by
  obtain ⟨⟨rc, c'⟩, published, wrote⟩ := mosquittoPublish_wrote outside sock (by rw [state]; decide)
    (show topic ≠ [] by decide) (by decide) (by decide) (by decide) (octets message) false
  obtain ⟨taken, sock', first, success, failed⟩ := wrote.written
  have closed : c'.closed = c.closed := wrote.closed
  have sock' : c'.sock = some (w ++ taken) := sock'
  have part : w ++ taken <+: session hello message := by
    rw [session, ← packet, List.append_assoc]
    exact (List.prefix_append_right_inj w).mpr first
  refine ⟨rc, c', published, ready.alike wrote.alike, w ++ taken, ?_, ?_, ?_⟩
  · rw [Client.connections, closed, sock', Option.toList_some]
  · by_cases ok : rc = .success
    · rw [if_pos ok]
      exact ⟨short, part⟩
    · rw [if_neg ok]
      refine ⟨message, short, part, fun same => failed ok ?_⟩
      rw [session, ← packet, List.append_assoc, List.append_cancel_left_eq] at same
      exact same
  · intro lossless
    obtain ⟨ok, nothing⟩ := wrote.lossless ⟨lossless, short⟩
    have all := success ok
    rw [nothing, List.append_nil] at all
    exact ⟨ok, by rw [all, session, ← packet, List.append_assoc]⟩

theorem reconnect_carries (errorState : Bool) {c : Client} (ready : Ready hello c) :
    ∃ c', reconnected outside errorState c = .ok c' ∧ Ready hello c' ∧ ∃ news : List (List UInt8),
      c'.connections = c.connections ++ news ∧ (∀ w ∈ news, Carries hello w none) ∧
        (errorState = false → news = []) := by
  cases errorState with
  | false => exact ⟨c, rfl, ready, [], by simp, by simp, fun _ => rfl⟩
  | true =>
      obtain ⟨⟨rc, c'⟩, joins, joined⟩ := mosquittoReconnect_joined outside ready.short
      obtain ⟨news, connections, part⟩ := joined_carries joined ready
      refine ⟨c', ?_, ready.alike joined.alike, news, connections, part, nofun⟩
      rw [reconnected, if_pos rfl, joins]
      rfl

theorem mqttSend_told (pointerSize : Nat) {message : List Char} (short : Short message) {p : Publisher} {c : Client}
    (client : p.mosq = some c) (ready : Ready hello c) : ∃ rc p' c' call news marks, p.mqttSend outside pointerSize message = .ok (rc, p') ∧
      Told hello outside message p p' c c' call news marks := by
  obtain ⟨c₁, again, ready₁, broken, connections₁, part, unbroken⟩ :=
    reconnect_carries outside p.errorState ready
  obtain ⟨⟨rc₂, c₂⟩, joins, joined⟩ := mosquittoConnect_joined outside ready₁.short mqttHost
    (show 0 < mqttPort by decide) (show (5 : Int) ≤ 60 by decide) (by rw [ready₁.keepalive]; decide)
  have ready₂ : Ready hello c₂ := ready₁.alike joined.alike
  simp only [Publisher.mqttSend, client, again, ok_bind, joins]
  by_cases connected : rc₂ = .success
  · -- the message follows on the new connection
    obtain ⟨closed, state, w, sock, packet⟩ := joined.success connected
    rw [ready₁.packet] at packet
    obtain ⟨rc₃, c₃, published, ready₃, v, connections₃, carried, whole⟩ :=
      publish_carries outside sock state packet ready₂ short
    have closed : c₂.closed = c₁.connections := closed
    have connections : c₃.connections = c.connections ++ (broken ++ [v]) := by
      rw [connections₃, closed, connections₁, List.append_assoc]
    subst connected
    simp only [MosqErr.code_success, ne_eq, not_true_eq_false, ↓reduceIte, published, ok_bind]
    by_cases ok : rc₃ = .success
    · subst ok
      rw [if_pos rfl] at carried
      simp only [MosqErr.code_success, not_true_eq_false, ↓reduceIte]
      refine ⟨_, _, c₃, _, broken ++ [v], broken.map (fun _ => none) ++ [some message], rfl,
        { client := rfl, ready := ready₃, calls := rfl, text := rfl, connections := connections, carries := ?_,
          taken := ?_, lossless := ?_ }⟩
      · exact List.rel_append (unmarked part) (.cons carried .nil)
      · simp [List.reduceOption_append]
      · intro lossless calm
        obtain ⟨-, all⟩ := whole lossless
        exact ⟨rfl, rfl, by rw [unbroken calm, all]; rfl⟩
    · have failed : rc₃.code ≠ 0 := fun zero => ok ((MosqErr.code_zero rc₃).mp zero)
      rw [if_neg ok] at carried
      simp only [failed, not_false_eq_true, ↓reduceIte]
      refine ⟨_, _, c₃, _, broken ++ [v], broken.map (fun _ => none) ++ [none], rfl,
        { client := rfl, ready := ready₃, calls := rfl, text := rfl, connections := connections, carries := ?_,
          taken := ?_, lossless := ?_ }⟩
      · exact List.rel_append (unmarked part) (.cons carried .nil)
      · simp [List.reduceOption_append, failed]
      · intro lossless _
        exact absurd (whole lossless).1 ok
  · have failed : rc₂.code ≠ 0 := fun zero => connected ((MosqErr.code_zero rc₂).mp zero)
    obtain ⟨news, connections₂, part₂⟩ := joined_carries joined ready₁
    simp only [ne_eq, failed, not_false_eq_true, ↓reduceIte]
    refine ⟨_, _, c₂, _, broken ++ news, (broken ++ news).map fun _ => none, rfl,
      { client := rfl, ready := ready₂, calls := rfl, text := rfl, connections := ?_, carries := ?_,
        taken := ?_, lossless := ?_ }⟩
    · exact connections₂.trans (by rw [connections₁, List.append_assoc])
    · refine unmarked fun w among => ?_
      rcases List.mem_append.mp among with before | behind
      · exact part w before
      · exact part₂ w behind
    · simp
    · intro lossless _
      exact absurd (joined.lossless lossless).1 connected

end Sending

section Refining
variable (outside : Outside) (pointerSize : Nat)

/-- What a call of mqtt_send can come to: there is no client, mosquitto_connect or mosquitto_publish fails, or neither
does. -/
inductive Outcome (message : List Char) (p : Publisher) : Int × Publisher → Prop
  | idle (client : p.mosq = none) :
      Outcome message p
        (0, ⟨none, p.errorState, p.calls ++ [⟨message, message.length, pointerSize, none, none, 0⟩]⟩)
  | unconnected {rc : Int} {mosq : Client} (client : p.mosq.isSome = true) (bad : rc ≠ 0) :
      Outcome message p
        (rc, ⟨some mosq, true, p.calls ++ [⟨message, message.length, pointerSize, some rc, none, rc⟩]⟩)
  | unpublished {rc : Int} {mosq : Client} (client : p.mosq.isSome = true) (bad : rc ≠ 0) :
      Outcome message p
        (rc, ⟨some mosq, true, p.calls ++ [⟨message, message.length, pointerSize, some 0, some rc, rc⟩]⟩)
  | published {mosq : Client} (client : p.mosq.isSome = true) :
      Outcome message p
        (0, ⟨some mosq, false, p.calls ++ [⟨message, message.length, pointerSize, some 0, some 0, 0⟩]⟩)

theorem mqttSend_outcome (message : List Char) (p : Publisher) :
    Ensures (Outcome pointerSize message p) (p.mqttSend outside pointerSize message) := by
  unfold Publisher.mqttSend
  cases client : p.mosq with
  | none => exact Ensures.ok (.idle client)
  | some c =>
      have client : p.mosq.isSome = true := by rw [client, Option.isSome_some]
      refine Ensures.next fun mosq => Ensures.next fun joined => Ensures.ite (fun bad => Ensures.ok ?_) fun good => ?_
      · exact .unconnected client bad
      have zero : joined.1.code = 0 := not_not.mp good
      rw [zero]
      refine Ensures.next fun sent => Ensures.ite (fun bad => Ensures.ok ?_) fun good => Ensures.ok ?_
      · exact .unpublished client bad
      · rw [not_not.mp good]
        exact .published client

structure Answers (host : Host) (calls : List MqttCall) : Prop where
  connect : ∀ n rc, (calls.filterMap MqttCall.connected)[n]? = some rc → host.connect n = rc
  publish : ∀ n rc, (calls.filterMap MqttCall.published)[n]? = some rc → host.publish n = rc

/-- The sender of the decoder stands where the publisher does. -/
structure Refines (p : Publisher) (m : Mqtt) : Prop where
  errorState : m.errorState = p.errorState
  connects : m.connects = (p.calls.filterMap MqttCall.connected).length
  publishes : m.publishes = (p.calls.filterMap MqttCall.published).length
  calls : m.calls = p.calls

variable {outside pointerSize}

theorem Answers.next {host : Host} {calls : List MqttCall} {call : MqttCall} (answers : Answers host (calls ++ [call])) :
    (∀ rc, call.connected = some rc → host.connect (calls.filterMap MqttCall.connected).length = rc) ∧
      ∀ rc, call.published = some rc → host.publish (calls.filterMap MqttCall.published).length = rc := by
  constructor
  · intro rc connected
    refine answers.connect _ rc ?_
    rw [List.filterMap_append, List.getElem?_append_right (Nat.le_refl _), Nat.sub_self]
    simp [connected]
  · intro rc published
    refine answers.publish _ rc ?_
    rw [List.filterMap_append, List.getElem?_append_right (Nat.le_refl _), Nat.sub_self]
    simp [published]

theorem outcome_refines {message : List Char} {p : Publisher} {answer : Int × Publisher} {m : Mqtt} {host : Host}
    (came : Outcome pointerSize message p answer) (client : host.client = p.mosq.isSome)
    (size : host.pointerSize = pointerSize) (answers : Answers host answer.2.calls) (refines : Refines p m) :
    (m.send host message).1 = answer.1 ∧ Refines answer.2 (m.send host message).2 := by
  obtain ⟨errorState, connects, publishes, calls⟩ := m
  obtain ⟨rfl, rfl, rfl, rfl⟩ := refines
  subst size
  cases came with
  | idle none =>
      rw [none, Option.isSome_none] at client
      simp only [Mqtt.send, client, Bool.false_eq_true, ↓reduceIte, true_and]
      exact ⟨rfl, by simp, by simp, rfl⟩
  | unconnected some bad =>
      have connected := answers.next.1 _ rfl
      rw [some] at client
      cases error : p.errorState <;> refine ⟨?_, ?_, ?_, ?_, ?_⟩ <;> simp [Mqtt.send, client, connected, bad]
  | unpublished some bad =>
      have connected := answers.next.1 _ rfl
      have published := answers.next.2 _ rfl
      rw [some] at client
      cases error : p.errorState <;> refine ⟨?_, ?_, ?_, ?_, ?_⟩ <;>
        simp [Mqtt.send, client, connected, published, bad]
  | published some =>
      have connected := answers.next.1 _ rfl
      have published := answers.next.2 _ rfl
      rw [some] at client
      cases error : p.errorState <;> refine ⟨?_, ?_, ?_, ?_, ?_⟩ <;> simp [Mqtt.send, client, connected, published]

theorem Outcome.calls {message : List Char} {p : Publisher} {answer : Int × Publisher}
    (came : Outcome pointerSize message p answer) :
    p.calls <+: answer.2.calls ∧ answer.2.mosq.isSome = p.mosq.isSome := by
  cases came with
  | idle none => exact ⟨List.prefix_append _ _, by rw [none]⟩
  | unconnected some bad => exact ⟨List.prefix_append _ _, some.symm⟩
  | unpublished some bad => exact ⟨List.prefix_append _ _, some.symm⟩
  | published some => exact ⟨List.prefix_append _ _, some.symm⟩

theorem Answers.before {host : Host} {earlier calls : List MqttCall} (answers : Answers host calls)
    (before : earlier <+: calls) : Answers host earlier := by
  obtain ⟨later, rfl⟩ := before
  constructor
  · intro n rc connected
    obtain ⟨inside, -⟩ := List.getElem?_eq_some_iff.mp connected
    exact answers.connect n rc (by rw [List.filterMap_append, List.getElem?_append_left inside, connected])
  · intro n rc published
    obtain ⟨inside, -⟩ := List.getElem?_eq_some_iff.mp published
    exact answers.publish n rc (by rw [List.filterMap_append, List.getElem?_append_left inside, published])

theorem publish_cons {message : List Char} {messages : List (List Char)} {p p' : Publisher}
    (ran : p.publish outside pointerSize (message :: messages) = .ok p') : ∃ answer,
      p.mqttSend outside pointerSize message = .ok answer ∧ answer.2.publish outside pointerSize messages = .ok p' := by
  rw [Publisher.publish, List.foldlM_cons] at ran
  cases sent : p.mqttSend outside pointerSize message with
  | error e =>
      rw [sent] at ran
      cases ran
  | ok answer =>
      rw [sent] at ran
      exact ⟨answer, rfl, ran⟩

theorem publish_calls {messages : List (List Char)} {p p' : Publisher}
    (ran : p.publish outside pointerSize messages = .ok p') :
    p.calls <+: p'.calls ∧ p'.mosq.isSome = p.mosq.isSome := by
  induction messages generalizing p with
  | nil =>
      obtain rfl := Except.ok.inj ran
      exact ⟨List.prefix_rfl, rfl⟩
  | cons message messages ih =>
      obtain ⟨answer, sent, rest⟩ := publish_cons ran
      have first := (mqttSend_outcome outside pointerSize message p answer sent).calls
      have second := ih rest
      exact ⟨first.1.trans second.1, second.2.trans first.2⟩

/-- With the answers of the library the decoder's sender makes the calls that mqttUtils.cpp makes over it. -/
theorem publish_refines {messages : List (List Char)} {p p' : Publisher} {m : Mqtt} {host : Host}
    (ran : p.publish outside pointerSize messages = .ok p') (client : host.client = p.mosq.isSome)
    (size : host.pointerSize = pointerSize) (answers : Answers host p'.calls) (refines : Refines p m) :
    Refines p' (messages.foldl (fun m message => (m.send host message).2) m) := by
  induction messages generalizing p m with
  | nil =>
      obtain rfl := Except.ok.inj ran
      exact refines
  | cons message messages ih =>
      obtain ⟨answer, sent, rest⟩ := publish_cons ran
      have came := mqttSend_outcome outside pointerSize message p answer sent
      have step := (outcome_refines came client size (answers.before (publish_calls rest).1) refines).2
      exact ih rest (client.trans came.calls.2.symm) step

/-- The host that answers as the library did. -/
def Publisher.host (p : Publisher) (pointerSize : Nat) : Host where
  client := p.mosq.isSome
  connect := fun n => (p.calls.filterMap MqttCall.connected)[n]?.getD 0
  publish := fun n => (p.calls.filterMap MqttCall.published)[n]?.getD 0
  pointerSize := pointerSize

theorem host_answers (p : Publisher) (pointerSize : Nat) : Answers (p.host pointerSize) p.calls where
  connect := fun n rc connected => by simp [Publisher.host, connected]
  publish := fun n rc published => by simp [Publisher.host, published]

end Refining

end SerialTiming.Program.MqttUtils
