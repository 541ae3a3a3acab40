/- module: SerialTiming/Program/Contexts
   digest: A connection of the decoder at the broker: what is made of its bytes, however they come. -/

import SerialTiming.Mosquitto.Broker
import SerialTiming.Program.MqttUtils

set_option autoImplicit false
set_option relaxedAutoImplicit false

namespace SerialTiming.Program.Contexts

open Machines Mosquitto.Packets Mosquitto.Broker MqttUtils

/-- A connection at the broker between two calls of packet__read, with the number of bytes that were read from it. A
connection that was given up stays as it was. -/
structure Context where
  state : State
  inPacket : InPacket
  read : Nat
  calls : Nat
  published : List Publication
  gone : Bool
  deriving DecidableEq, Repr

namespace Context

def start : Context := ⟨.new, .start, 0, 0, [], false⟩

/-- A call of packet__read when the client has written `line`. Where it fails the broker gives up the connection. -/
def poll (policy : Policy) (readings : Nat → Reading) (number : Nat) (line : List UInt8) (c : Context) : Context :=
  if c.gone then c
  else
    let (rc, r, published) := packetRead policy readings number ⟨c.state, c.inPacket, line.drop c.read, c.calls⟩
    if rc = .success then
      ⟨r.state, r.inPacket, line.length - r.unread.length, r.calls, c.published ++ published, false⟩
    else { c with published := c.published ++ published, gone := true }

/-- The broker gives up a connection for any other reason. -/
def drop (c : Context) : Context := { c with gone := true }

end Context

def publication (message : List Char) : Publication := ⟨topic, octets message, false⟩

/-- The broker takes everything. -/
structure Open (policy : Policy) : Prop where
  size : policy.messageSizeLimit = 0
  connects : ∀ number body, policy.connects number body = (.success, .active)
  access : ∀ number p, policy.accessCheck number p = .success

/-- Where a connection stands when so much of a session was read: the client has not introduced itself, or it has, or
the message was read too. -/
inductive Stands (good : Prop) (hello : List UInt8) (message : List Char) (seen : List UInt8) :
    State → InPacket → List Publication → Prop
  | fresh {p : InPacket} (reaches : InPacket.start.Reaches seen p) (part : p.whole = false) :
      Stands good hello message seen .new p []
  | greeted {state : State} {p : InPacket} {rest : List UInt8} (bytes : seen = hello ++ rest)
      (reaches : InPacket.start.Reaches rest p) (part : p.whole = false) (active : good → state = .active) :
      Stands good hello message seen state p []
  | done {state : State} {published : List Publication} (bytes : seen = session hello message)
      (once : published = [] ∨ published = [publication message]) (all : good → published = [publication message]) :
      Stands good hello message seen state .start published

section Handling
variable (policy : Policy) (number : Nat) (state : State)

theorem readString_publishBody (payload : List UInt8) : readString (publishBody topic payload) = some (topic, payload) := by
  have bytes : publishBody topic payload = 0 :: 7 :: (topic ++ payload) := rfl
  have length : topic.length = 7 := by decide
  have valid : mosquittoValidateUtf8 topic = .success := by decide
  have number : (0 : UInt8).toNat * 256 + (7 : UInt8).toNat = 7 := by decide
  have room : ¬ (topic ++ payload).length < 7 := by
    rw [List.length_append]
    omega
  simp only [readString, bytes, readUint16, number, room, List.take_left' length, List.drop_left' length, valid]
  rfl

theorem handlePacket_connect (body : List UInt8) :
    handlePacket policy number .new (received cmdConnect body) =
      ((policy.connects number body).1, (policy.connects number body).2, []) := by
  have other : ¬ (cmdConnect &&& 0xF0 = cmdPublish ∧ cmdConnect &&& 0x06 = 0) := by decide
  have connect : cmdConnect &&& 0xF0 = cmdConnect := by decide
  rw [handlePacket, received, if_neg other, if_pos connect, if_neg (not_not_intro rfl)]

theorem handlePublish_active (message : List Char) : ∃ rc published,
    handlePublish policy number .active (received (publishCommand false 0 false) (publishBody topic (octets message))) =
      (rc, published) ∧ (published = [] ∨ published = [publication message]) ∧
      (Open policy → published = [publication message]) := by
  have read := readString_publishBody (octets message)
  have retained : ¬ (publishCommand false 0 false &&& 0x01 ≠ 0) := by decide
  have named : topic ≠ [] := by decide
  have utf8 : mosquittoValidateUtf8 topic = .success := by decide
  have plain : mosquittoPubTopicCheck (some topicHierarchyLimit) topic = .success := by decide
  simp only [handlePublish, received, read, retained, named, utf8, plain, ne_eq, not_true_eq_false, false_and,
    ↓reduceIte, decide_false]
  -- the limit, the access check and the subscriptions decide
  split
  · rename_i limited
    exact ⟨_, _, rfl, .inl rfl, fun takes => absurd limited.2.1 (by simp [takes.size])⟩
  split
  · rename_i denied
    refine ⟨_, _, rfl, .inl rfl, fun takes => ?_⟩
    rw [takes.access] at denied
    cases denied
  split
  · rename_i failed
    exact ⟨_, _, rfl, .inl rfl, fun takes => absurd (takes.access _ _) failed⟩
  split
  · exact ⟨_, _, rfl, .inr rfl, fun _ => rfl⟩
  · exact ⟨_, _, rfl, .inr rfl, fun _ => rfl⟩

theorem handlePacket_publish (message : List Char) : ∃ rc published,
    handlePacket policy number state (received (publishCommand false 0 false) (publishBody topic (octets message))) =
      (rc, state, published) ∧ (published = [] ∨ published = [publication message]) ∧
      (Open policy → state = .active → published = [publication message]) := by
  have publish : publishCommand false 0 false &&& 0xF0 = cmdPublish ∧ publishCommand false 0 false &&& 0x06 = 0 := by
    decide
  by_cases active : state = .active
  · obtain ⟨rc, published, handled, once, all⟩ := handlePublish_active policy number message
    subst active
    refine ⟨rc, published, ?_, once, fun takes _ => all takes⟩
    rw [handlePacket, received, if_pos publish, ← received, handled]
  · refine ⟨.protocol, [], ?_, .inl rfl, fun _ same => absurd same active⟩
    rw [handlePacket, received, if_pos publish, handlePublish, if_pos active]

end Handling

section Reading
variable {p q : InPacket} {xs : List UInt8}

theorem feed_command (begun : p.command ≠ 0) (b : UInt8) : (p.feed b).command = p.command := by
  unfold InPacket.feed
  rw [if_neg begun]
  repeat' split
  all_goals rfl

theorem reaches_command (reaches : p.Reaches xs q) (begun : p.command ≠ 0) : q.command ≠ 0 := by
  induction reaches with
  | nil => exact begun
  | cons part rest ih => exact ih (by rw [feed_command begun]; exact begun)

theorem reaches_begun {command : UInt8} (known : command ≠ 0) {line : List UInt8}
    (reaches : InPacket.start.Reaches xs p) (left : xs <+: command :: line) (fresh : p.command = 0) : xs = [] := by
  cases reaches with
  | nil => rfl
  | cons part rest =>
      obtain ⟨rfl, -⟩ := List.cons_prefix_cons.mp left
      exact absurd fresh (reaches_command rest known)

theorem received_whole (command : UInt8) (body : List UInt8) : (received command body).whole = true := by
  have groups := List.length_pos_of_ne_nil (Wire.Varint.encode_ne_nil 3 body.length)
  simp [received, InPacket.whole, groups]

theorem frame_whole {command : UInt8} (known : command ≠ 0) {body later : List UInt8} (short : body.length < 128 ^ 4)
    (reaches : InPacket.start.Reaches xs q) (whole : q.whole = true) (left : xs <+: frame command body ++ later) :
    xs = frame command body ∧ q = received command body := by
  obtain ⟨bytes, packet⟩ := reaches.whole_unique whole (frame_reaches known short) (received_whole command body) left
    (List.prefix_append _ _)
  exact ⟨bytes, packet⟩

end Reading

section Standing
variable {good : Prop} {body : List UInt8} {message : List Char} {seen more : List UInt8} {state : State}
variable {p q : InPacket} {published : List Publication}

theorem Stands.ready (stands : Stands good (frame cmdConnect body) message seen state p published)
    (line : seen ++ more <+: session (frame cmdConnect body) message) (calls : Nat) :
    p.whole = false ∧ (Reader.mk state p more calls).Known := by
  have connect : cmdConnect ≠ 0 := by decide
  have publish : publishCommand false 0 false ≠ 0 := by decide
  cases stands with
  | fresh reaches part =>
      refine ⟨part, ?_⟩
      intro fresh b next
      have left : seen <+: session (frame cmdConnect body) message := (List.prefix_append _ _).trans line
      obtain rfl := reaches_begun connect reaches left fresh
      obtain ⟨rest, rfl⟩ := List.head?_eq_some_iff.mp next
      obtain ⟨rfl, -⟩ := List.cons_prefix_cons.mp line
      exact connect
  | @greeted _ _ rest bytes reaches part active =>
      refine ⟨part, ?_⟩
      intro fresh b next
      subst bytes
      rw [session, List.append_assoc, List.prefix_append_right_inj] at line
      have left := (List.prefix_append rest more).trans line
      obtain rfl := reaches_begun publish reaches left fresh
      obtain ⟨rest, rfl⟩ := List.head?_eq_some_iff.mp next
      obtain ⟨rfl, -⟩ := List.cons_prefix_cons.mp line
      exact publish
  | done bytes once all =>
      refine ⟨rfl, ?_⟩
      intro _ b next
      have nothing := line.length_le
      rw [bytes, List.length_append] at nothing
      obtain ⟨rest, rfl⟩ := List.head?_eq_some_iff.mp next
      rw [List.length_cons] at nothing
      omega

theorem Stands.waits (stands : Stands good (frame cmdConnect body) message seen state p published)
    (line : seen ++ more <+: session (frame cmdConnect body) message) (reaches : p.Reaches more q)
    (part : q.whole = false) : Stands good (frame cmdConnect body) message (seen ++ more) state q published := by
  cases stands with
  | fresh before _ => exact .fresh (before.trans reaches) part
  | greeted bytes before _ active =>
      exact .greeted (by rw [bytes, List.append_assoc]) (before.trans reaches) part active
  | done bytes once all =>
      have nothing := line.length_le
      rw [bytes, List.length_append] at nothing
      obtain rfl : more = [] := List.eq_nil_of_length_eq_zero (by omega)
      cases reaches
      rw [List.append_nil]
      exact .done bytes once all

theorem Stands.handled {policy : Policy} {number : Nat} (takes : good → Open policy) (introduces : body.length < 128 ^ 4)
    (short : Short message) (stands : Stands good (frame cmdConnect body) message seen state p published)
    (line : seen ++ more <+: session (frame cmdConnect body) message) (reaches : p.Reaches more q)
    (whole : q.whole = true) {rc : MosqErr} {state' : State} {told : List Publication}
    (answer : handlePacket policy number state q = (rc, state', told)) :
    Stands good (frame cmdConnect body) message (seen ++ more) state' .start (published ++ told) := by
  cases stands with
  | fresh before _ =>
      obtain ⟨bytes, rfl⟩ := frame_whole (by decide) introduces (before.trans reaches) whole line
      rw [handlePacket_connect] at answer
      obtain ⟨rfl, rfl, rfl⟩ : (policy.connects number body).1 = rc ∧ (policy.connects number body).2 = state' ∧
          told = [] := by simpa using answer
      have none : InPacket.start.Reaches [] .start := .nil _
      refine .greeted (by rw [bytes, List.append_nil]) none rfl fun fine => ?_
      rw [(takes fine).connects]
  | @greeted _ _ rest bytes before _ active =>
      subst bytes
      rw [session, List.append_assoc, List.prefix_append_right_inj] at line
      have publish : publishCommand false 0 false ≠ 0 := by decide
      rw [← List.append_nil (frame _ _)] at line
      obtain ⟨bytes, rfl⟩ := frame_whole publish short (before.trans reaches) whole line
      obtain ⟨rc', published, handled, once, all⟩ := handlePacket_publish policy number state message
      obtain ⟨rfl, rfl, rfl⟩ : rc' = rc ∧ state = state' ∧ published = told := by
        simpa using handled.symm.trans answer
      exact .done (by rw [session, List.append_assoc, bytes]) once fun fine => all (takes fine) (active fine)
  | done bytes once all =>
      have nothing := line.length_le
      rw [bytes, List.length_append] at nothing
      obtain rfl : more = [] := List.eq_nil_of_length_eq_zero (by omega)
      cases reaches
      cases whole

end Standing

/-- What the broker holds of a connection on which the client wrote `line` of the session of a message. Where the last
call failed the message may have been handed on before. -/
structure Holds (good : Prop) (hello : List UInt8) (message : List Char) (line : List UInt8) (c : Context) : Prop where
  inside : c.read ≤ line.length
  stands : Stands good hello message (line.take c.read) c.state c.inPacket c.published ∨
    (c.gone = true ∧ c.published = [publication message] ∧ line = session hello message)

section Holding
variable {good : Prop} {hello : List UInt8} {body : List UInt8} {message : List Char} {line : List UInt8} {c : Context}

theorem holds_start (good : Prop) (hello : List UInt8) (message : List Char) (line : List UInt8) :
    Holds good hello message line .start :=
  ⟨Nat.zero_le _, .inl (.fresh (.nil _) rfl)⟩

theorem Holds.drop (holds : Holds good hello message line c) : Holds good hello message line c.drop := by
  obtain ⟨inside, stands | ⟨-, published, whole⟩⟩ := holds
  · exact ⟨inside, .inl stands⟩
  · exact ⟨inside, .inr ⟨rfl, published, whole⟩⟩

theorem Stands.ended {seen : List UInt8} {state : State} {p : InPacket} {published : List Publication}
    (stands : Stands good hello message seen state p published) (left : seen <+: line)
    (part : line <+: session hello message) :
    published = [] ∨ published = [publication message] ∧ line = session hello message := by
  cases stands with
  | fresh => exact .inl rfl
  | greeted => exact .inl rfl
  | done bytes once all =>
      rcases once with none | one
      · exact .inl none
      · refine .inr ⟨one, part.eq_of_length_le ?_⟩
        rw [← bytes]
        exact left.length_le

theorem read_on {before unread : List UInt8} (cut : line = before ++ unread) :
    line.take (line.length - unread.length) = before := by
  subst cut
  exact List.take_left' (by rw [List.length_append]; omega)

theorem Holds.poll {policy : Policy} {readings : Nat → Reading} {number : Nat} (takes : good → Open policy)
    (introduces : body.length < 128 ^ 4) (short : Short message) (part : line <+: session (frame cmdConnect body) message)
    (holds : Holds good (frame cmdConnect body) message line c) :
    Holds good (frame cmdConnect body) message line (c.poll policy readings number line) := by
  unfold Context.poll
  by_cases gone : c.gone = true
  · rw [if_pos gone]
    exact holds
  rw [if_neg gone]
  obtain ⟨inside, stands⟩ := holds
  replace stands := stands.resolve_right fun given => gone given.1
  have whole : line.take c.read ++ line.drop c.read = line := List.take_append_drop c.read line
  obtain ⟨idle, known⟩ := stands.ready (whole.symm ▸ part) c.calls
  have came := packetRead_came policy readings number idle known
  generalize packetRead policy readings number ⟨c.state, c.inPacket, line.drop c.read, c.calls⟩ = answer at came ⊢
  cases came with
  | @waits r' advances unfinished =>
      obtain ⟨state, bytes, unread, reaches⟩ := advances
      have cut : line = line.take c.read ++ bytes ++ r'.unread := by
        rw [List.append_assoc, ← unread]
        exact whole.symm
      have before : line.take c.read ++ bytes <+: line := ⟨r'.unread, cut.symm⟩
      have next := stands.waits (before.trans part) reaches unfinished
      refine ⟨Nat.sub_le _ _, .inl ?_⟩
      simp only [↓reduceIte, read_on cut, List.append_nil]
      rw [state]
      exact next
  | @handled rc r' told q bytes unread reaches done fresh answer =>
      have cut : line = line.take c.read ++ bytes ++ r'.unread := by
        rw [List.append_assoc, ← unread]
        exact whole.symm
      have before : line.take c.read ++ bytes <+: line := ⟨r'.unread, cut.symm⟩
      have next := stands.handled takes introduces short (before.trans part) reaches done answer
      by_cases ok : rc = .success
      · refine ⟨?_, .inl ?_⟩
        · simp only [ok, ↓reduceIte]
          exact Nat.sub_le _ _
        · simp only [ok, ↓reduceIte, read_on cut, fresh]
          exact next
      · -- the handler failed, perhaps behind the message
        simp only [ok, ↓reduceIte]
        rcases next.ended before part with none | ⟨one, all⟩
        · refine ⟨inside, .inl ?_⟩
          have nothing : c.published = [] := (List.append_eq_nil_iff.mp none).1
          show Stands good (frame cmdConnect body) message (line.take c.read) c.state c.inPacket (c.published ++ told)
          rw [none, ← nothing]
          exact stands
        · exact ⟨inside, .inr ⟨rfl, one, all⟩⟩
  | fails bad =>
      simp only [bad, ↓reduceIte, List.append_nil]
      exact ⟨inside, .inl stands⟩

theorem Holds.once (part : line <+: session hello message) (holds : Holds good hello message line c) :
    c.published = [] ∨ c.published = [publication message] ∧ line = session hello message := by
  rcases holds.stands with stands | ⟨-, published, all⟩
  · exact stands.ended (List.take_prefix _ _) part
  · exact .inr ⟨published, all⟩

theorem Stands.whole {state : State} {p : InPacket} {published : List Publication} (fine : good)
    (introduces : body.length < 128 ^ 4) (short : Short message)
    (stands : Stands good (frame cmdConnect body) message (session (frame cmdConnect body) message) state p published) :
    published = [publication message] := by
  have connect : cmdConnect ≠ 0 := by decide
  have publish : publishCommand false 0 false ≠ 0 := by decide
  cases stands with
  | fresh reaches part =>
      -- the packet with which the client introduces itself is whole before
      obtain ⟨p, first, rest⟩ := reaches.split
      obtain rfl := first.determined (frame_reaches connect introduces)
      exact absurd (rest.ends (received_whole cmdConnect body)) (Mosquitto.Connect.frame_ne_nil _ _)
  | greeted bytes reaches part active =>
      rw [session, List.append_cancel_left_eq] at bytes
      subst bytes
      obtain rfl := reaches.determined (frame_reaches publish short)
      rw [received_whole] at part
      cases part
  | done bytes once all => exact all fine

theorem Holds.handed (fine : good) (introduces : body.length < 128 ^ 4) (short : Short message)
    (all : line = session (frame cmdConnect body) message) (read : c.read = line.length)
    (holds : Holds good (frame cmdConnect body) message line c) : c.published = [publication message] := by
  rcases holds.stands with stands | ⟨-, published, -⟩
  · rw [read, List.take_length, all] at stands
    exact stands.whole fine introduces short
  · exact published

end Holding

end SerialTiming.Program.Contexts
