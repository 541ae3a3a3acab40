/- module: SerialTiming/Program/Exchange
   digest: The decoder's publisher and the broker, which reads its connections whenever and however far it likes. -/

import SerialTiming.Program.Contexts

set_option autoImplicit false
set_option relaxedAutoImplicit false

namespace SerialTiming.Program.Exchange

open CLib.Objects Decoder.State Mosquitto.Packets Mosquitto.Connect Mosquitto.Broker MqttUtils Contexts

/-- What surrounds the program: the system under the library, the size of a pointer, and the broker's configuration. -/
structure World where
  outside : Outside
  pointerSize : Nat
  policy : Policy

/-- The publisher, and what the broker holds of each of its connections. -/
structure Network where
  publisher : Publisher
  contexts : Nat → Context

/-- The program calls mqtt_send, or the broker reads from a connection or gives it up. A connection that the client
writes to is read as if the broker had found all that came later delayed. -/
inductive Action where
  | mqttSend (message : List Char)
  | poll (number : Nat) (readings : Nat → Reading)
  | drop (number : Nat)

def sent : Action → Option (List Char)
  | .mqttSend message => some message
  | _ => none

def messages (actions : List Action) : List (List Char) := actions.filterMap sent

namespace Network

def start (memory : Bool) (number : Int) : Network := ⟨mqttConnect memory number, fun _ => .start⟩

def setContext (s : Network) (number : Nat) (c : Context) : Network :=
  { s with contexts := Function.update s.contexts number c }

/-- There is nothing to read or to give up before the connection is made. -/
def step (world : World) (s : Network) : Action → Checked Network
  | .mqttSend message =>
      (s.publisher.mqttSend world.outside world.pointerSize message).map fun answer => { s with publisher := answer.2 }
  | .poll number readings =>
      match s.publisher.connections[number]? with
      | none => .ok s
      | some line => .ok (s.setContext number ((s.contexts number).poll world.policy readings number line))
  | .drop number =>
      match s.publisher.connections[number]? with
      | none => .ok s
      | some _ => .ok (s.setContext number (s.contexts number).drop)

def run (world : World) (actions : List Action) (s : Network) : Checked Network := actions.foldlM (step world) s

/-- What the broker handed on, connection by connection. -/
def received (s : Network) : List Publication :=
  (List.range s.publisher.connections.length).flatMap fun k => (s.contexts k).published

def ReadAll (s : Network) : Prop :=
  ∀ k line, s.publisher.connections[k]? = some line → (s.contexts k).read = line.length

instance (s : Network) : Decidable s.ReadAll :=
  decidable_of_iff (∀ k < s.publisher.connections.length, ∀ line ∈ s.publisher.connections[k]?,
    (s.contexts k).read = line.length) <| by
      constructor
      · intro read k line connection
        obtain ⟨inside, -⟩ := List.getElem?_eq_some_iff.mp connection
        exact read k inside line connection
      · intro read k _ line connection
        exact read k line connection

end Network

/-- A connection with its mark: the client wrote the beginning of the session of the message, and the broker holds what
it read of that. -/
def Link (good : Prop) (hello line : List UInt8) (c : Context) : Option (List Char) → Prop
  | some message => Short message ∧ line <+: session hello message ∧ Holds good hello message line c
  | none => ∃ message, Short message ∧ line <+: session hello message ∧ line ≠ session hello message ∧
      Holds good hello message line c

/-- The broker's side of each connection fits what was written to it, and the marks tell what mosquitto_publish took. -/
structure Linked (good : Prop) (hello : List UInt8) (outside : Outside) (told : List (List Char)) (s : Network)
    (marks : List (Option (List Char))) : Prop where
  client : ∀ c, s.publisher.mosq = some c → Ready hello c
  length : marks.length = s.publisher.connections.length
  taken : marks.reduceOption = s.publisher.taken
  link : ∀ k line mark, s.publisher.connections[k]? = some line → marks[k]? = some mark →
    Link good hello line (s.contexts k) mark
  fresh : ∀ k, s.publisher.connections.length ≤ k → s.contexts k = .start
  lossless : outside.Lossless → s.publisher.mosq.isSome = true → s.publisher.errorState = false ∧
    marks = told.map some ∧ s.publisher.connections = told.map (session hello)

section Links
variable {good : Prop} {hello line : List UInt8} {c c' : Context} {mark : Option (List Char)}

theorem link_start (carries : Carries hello line mark) : Link good hello line .start mark := by
  cases mark with
  | some message => exact ⟨carries.1, carries.2, holds_start good hello message line⟩
  | none =>
      obtain ⟨message, short, part, less⟩ := carries
      exact ⟨message, short, part, less, holds_start good hello message line⟩

theorem Link.map (next : ∀ message, Short message → line <+: session hello message →
    Holds good hello message line c → Holds good hello message line c') (link : Link good hello line c mark) :
    Link good hello line c' mark := by
  cases mark with
  | some message =>
      obtain ⟨short, part, holds⟩ := link
      exact ⟨short, part, next message short part holds⟩
  | none =>
      obtain ⟨message, short, part, less, holds⟩ := link
      exact ⟨message, short, part, less, next message short part holds⟩

theorem Link.once (link : Link good hello line c mark) :
    c.published = [] ∨ c.published = (mark.map publication).toList := by
  cases mark with
  | some message =>
      obtain ⟨-, part, holds⟩ := link
      rcases holds.once part with none | ⟨one, -⟩
      · exact .inl none
      · exact .inr one
  | none =>
      obtain ⟨message, -, part, less, holds⟩ := link
      rcases holds.once part with none | ⟨-, all⟩
      · exact .inl none
      · exact absurd all less

end Links

section Steps
variable {good : Prop} {body : List UInt8} {world : World} {told : List (List Char)} {s : Network}
variable {marks : List (Option (List Char))}

theorem connections_some {p : Publisher} {c : Client} (client : p.mosq = some c) : p.connections = c.connections := by
  rw [Publisher.connections, client, Option.map_some, Option.getD_some]

theorem taken_append {p p' : Publisher} {call : MqttCall} (calls : p'.calls = p.calls ++ [call]) :
    p'.taken = p.taken ++ if call.published = some 0 then [call.message] else [] := by
  rw [Publisher.taken, Publisher.taken, calls, List.filter_append, List.map_append]
  congr 1
  by_cases published : call.published = some 0 <;> simp [published]

theorem mqttSend_idle (world : World) (message : List Char) {p : Publisher} (client : p.mosq = none) :
    ∃ answer, p.mqttSend world.outside world.pointerSize message = .ok answer ∧ answer.2.mosq = none ∧
      answer.2.taken = p.taken := by
  refine ⟨_, by simp only [Publisher.mqttSend, client]; rfl, rfl, ?_⟩
  exact (taken_append rfl).trans (List.append_nil _)

theorem carries_at {hello : List UInt8} {news : List (List UInt8)} {marks : List (Option (List Char))}
    (carries : List.Forall₂ (Carries hello) news marks) {k : Nat} {line : List UInt8} {mark : Option (List Char)}
    (connection : news[k]? = some line) (marked : marks[k]? = some mark) : Carries hello line mark := by
  obtain ⟨inside, rfl⟩ := List.getElem?_eq_some_iff.mp connection
  obtain ⟨inside', rfl⟩ := List.getElem?_eq_some_iff.mp marked
  exact carries.get inside inside'

theorem marked_one {mark : Option (List Char)} {message : List Char} (only : [mark].reduceOption = [message]) :
    [mark] = [some message] := by
  cases mark with
  | none => cases only
  | some other =>
      obtain rfl : other = message := by simpa using only
      rfl

theorem mqttSend_linked {message : List Char} (short : Short message) {hello : List UInt8}
    (linked : Linked good hello world.outside told s marks) :
    ∃ s' marks', s.step world (.mqttSend message) = .ok s' ∧
      Linked good hello world.outside (told ++ [message]) s' marks' := by
  cases client : s.publisher.mosq with
  | none =>
      -- without a client there are no connections
      have none : s.publisher.connections = [] := by rw [Publisher.connections, client]; rfl
      obtain ⟨answer, ran, same, calls⟩ := mqttSend_idle world message client
      have still : answer.2.connections = [] := by rw [Publisher.connections, same]; rfl
      refine ⟨{ s with publisher := answer.2 }, marks, by rw [Network.step, ran]; rfl, ?_⟩
      exact {
        client := by
          intro d other
          rw [same] at other
          cases other
        length := linked.length.trans (congrArg List.length (none.trans still.symm))
        taken := linked.taken.trans calls.symm
        link := by
          intro k line mark connection
          rw [still] at connection
          cases connection
        fresh := fun k _ => linked.fresh k (by rw [none]; exact Nat.zero_le k)
        lossless := by
          intro _ some
          rw [same] at some
          cases some }
  | some c =>
      obtain ⟨rc, p', c', call, news, marks', ran, spec⟩ :=
        mqttSend_told world.outside world.pointerSize short client (linked.client c client)
      have before := connections_some client
      have behind := (connections_some spec.client).trans (spec.connections.trans (by rw [← before]))
      refine ⟨{ s with publisher := p' }, marks ++ marks', by rw [Network.step, ran]; rfl, ?_⟩
      exact {
        client := by
          intro d same
          obtain rfl : c' = d := Option.some.inj (spec.client.symm.trans same)
          exact spec.ready
        length := by
          show (marks ++ marks').length = p'.connections.length
          rw [behind, List.length_append, List.length_append, linked.length, spec.carries.length_eq]
        taken := by
          show (marks ++ marks').reduceOption = p'.taken
          rw [List.reduceOption_append, linked.taken, spec.taken, taken_append spec.calls, spec.text]
        link := by
          intro k line mark connection marked
          have connection : p'.connections[k]? = some line := connection
          rw [behind] at connection
          rcases Nat.lt_or_ge k s.publisher.connections.length with early | late
          · rw [List.getElem?_append_left early] at connection
            rw [List.getElem?_append_left (by rw [linked.length]; exact early)] at marked
            exact linked.link k line mark connection marked
          · rw [List.getElem?_append_right late] at connection
            rw [List.getElem?_append_right (by rw [linked.length]; exact late), linked.length] at marked
            have new := carries_at spec.carries connection marked
            show Link good hello line (s.contexts k) mark
            rw [linked.fresh k late]
            exact link_start new
        fresh := by
          intro k late
          refine linked.fresh k ?_
          have late : p'.connections.length ≤ k := late
          rw [behind, List.length_append] at late
          omega
        lossless := by
          intro lossless some
          obtain ⟨calm, all, connections⟩ := linked.lossless lossless (by rw [client, Option.isSome_some])
          obtain ⟨published, calm', whole⟩ := spec.lossless lossless calm
          refine ⟨calm', ?_, ?_⟩
          · have one := spec.carries.length_eq
            have only := spec.taken
            rw [if_pos published] at only
            rw [whole] at one
            obtain ⟨mark, rfl⟩ := List.length_eq_one_iff.mp one.symm
            rw [all, List.map_append, List.map_singleton, marked_one only]
          · show p'.connections = _
            rw [behind, connections, whole, List.map_append, List.map_singleton] }

theorem setContext_linked {hello line : List UInt8} {number : Nat} {c : Context}
    (linked : Linked good hello world.outside told s marks) (connection : s.publisher.connections[number]? = some line)
    (next : ∀ mark, Link good hello line (s.contexts number) mark → Link good hello line c mark) :
    Linked good hello world.outside told (s.setContext number c) marks where
  client := linked.client
  length := linked.length
  taken := linked.taken
  link := by
    intro k other mark written marked
    by_cases same : k = number
    · subst same
      obtain rfl : line = other := Option.some.inj (connection.symm.trans written)
      show Link good hello line (Function.update s.contexts k c k) mark
      rw [Function.update_self]
      exact next mark (linked.link k line mark written marked)
    · show Link good hello other (Function.update s.contexts number c k) mark
      rw [Function.update_of_ne same]
      exact linked.link k other mark written marked
  fresh := by
    intro k late
    obtain ⟨inside, -⟩ := List.getElem?_eq_some_iff.mp connection
    have late : s.publisher.connections.length ≤ k := late
    have other : k ≠ number := by omega
    show Function.update s.contexts number c k = .start
    rw [Function.update_of_ne other]
    exact linked.fresh k late
  lossless := linked.lossless

theorem step_linked (takes : good → Open world.policy) (introduces : body.length < 128 ^ 4) {action : Action}
    (short : ∀ message ∈ sent action, Short message)
    (linked : Linked good (frame cmdConnect body) world.outside told s marks) : ∃ s' marks',
      s.step world action = .ok s' ∧
        Linked good (frame cmdConnect body) world.outside (told ++ (sent action).toList) s' marks' := by
  cases action with
  | mqttSend message => exact mqttSend_linked (short message rfl) linked
  | poll number readings =>
      have quiet : told ++ (sent (.poll number readings)).toList = told := List.append_nil told
      rw [quiet]
      cases connection : s.publisher.connections[number]? with
      | none => exact ⟨s, marks, by rw [Network.step, connection], linked⟩
      | some line =>
          refine ⟨_, marks, by rw [Network.step, connection], ?_⟩
          refine setContext_linked linked connection fun mark link => link.map fun message short part holds => ?_
          exact holds.poll takes introduces short part
  | drop number =>
      have quiet : told ++ (sent (.drop number)).toList = told := List.append_nil told
      rw [quiet]
      cases connection : s.publisher.connections[number]? with
      | none => exact ⟨s, marks, by rw [Network.step, connection], linked⟩
      | some line =>
          refine ⟨_, marks, by rw [Network.step, connection], ?_⟩
          exact setContext_linked linked connection fun mark link => link.map fun message _ _ holds => holds.drop

theorem run_linked (takes : good → Open world.policy) (introduces : body.length < 128 ^ 4) {actions : List Action}
    (short : ∀ message ∈ messages actions, Short message)
    (linked : Linked good (frame cmdConnect body) world.outside told s marks) : ∃ s' marks',
      s.run world actions = .ok s' ∧
        Linked good (frame cmdConnect body) world.outside (told ++ messages actions) s' marks' := by
  induction actions generalizing told s marks with
  | nil => exact ⟨s, marks, rfl, by rw [messages, List.filterMap_nil, List.append_nil]; exact linked⟩
  | cons action actions ih =>
      have all : messages (action :: actions) = (sent action).toList ++ messages actions := by
        rw [messages, messages, List.filterMap_cons]
        cases sent action <;> rfl
      rw [all] at short ⊢
      obtain ⟨s₁, marks₁, first, linked₁⟩ := step_linked takes introduces
        (fun message among => short message (List.mem_append_left _ (Option.mem_toList.mpr among))) linked
      obtain ⟨s₂, marks₂, rest, linked₂⟩ := ih (fun message among => short message (List.mem_append_right _ among)) linked₁
      refine ⟨s₂, marks₂, ?_, by rw [← List.append_assoc]; exact linked₂⟩
      rw [Network.run, List.foldlM_cons, first]
      exact rest

theorem step_quiet {action : Action} (quiet : sent action = none) :
    ∃ s', s.step world action = .ok s' ∧ s'.publisher = s.publisher := by
  cases action with
  | mqttSend message => cases quiet
  | poll number readings =>
      cases connection : s.publisher.connections[number]? with
      | none => exact ⟨s, by rw [Network.step, connection], rfl⟩
      | some line => exact ⟨s.setContext number _, by rw [Network.step, connection], rfl⟩
  | drop number =>
      cases connection : s.publisher.connections[number]? with
      | none => exact ⟨s, by rw [Network.step, connection], rfl⟩
      | some line => exact ⟨s.setContext number _, by rw [Network.step, connection], rfl⟩

theorem run_publishes {actions : List Action} {s' : Network} (ran : s.run world actions = .ok s') :
    s.publisher.publish world.outside world.pointerSize (messages actions) = .ok s'.publisher := by
  induction actions generalizing s with
  | nil =>
      obtain rfl := Except.ok.inj ran
      rfl
  | cons action actions ih =>
      rw [Network.run, List.foldlM_cons] at ran
      cases told : sent action with
      | none =>
          obtain ⟨s₁, first, same⟩ := step_quiet told
          rw [first] at ran
          rw [messages, List.filterMap_cons_none told, ← same]
          exact ih ran
      | some message =>
          obtain rfl : action = .mqttSend message := by
            cases action with
            | mqttSend other => rw [Option.some.inj told]
            | _ => cases told
          cases first : s.publisher.mqttSend world.outside world.pointerSize message with
          | error e =>
              rw [Network.step, first] at ran
              cases ran
          | ok answer =>
              rw [Network.step, first] at ran
              rw [messages, List.filterMap_cons_some told, Publisher.publish, List.foldlM_cons, first]
              exact ih ran

theorem received_sublist {hello : List UInt8} (linked : Linked good hello world.outside told s marks) :
    s.received.Sublist (s.publisher.taken.map publication) := by
  have first : ∀ n ≤ s.publisher.connections.length,
      ((List.range n).flatMap fun k => (s.contexts k).published).Sublist
        ((marks.take n).reduceOption.map publication) := by
    intro n
    induction n with
    | zero => exact fun _ => List.Sublist.refl []
    | succ n ih =>
        intro inside
        have within : n < marks.length := by
          rw [linked.length]
          omega
        have mark := List.getElem?_eq_getElem within
        have line := List.getElem?_eq_getElem (show n < s.publisher.connections.length by omega)
        rw [List.range_succ, List.flatMap_append, List.take_add_one, mark, Option.toList_some, List.reduceOption_append,
          List.map_append, List.flatMap_singleton]
        refine (ih (by omega)).append ?_
        rcases (linked.link n _ _ line mark).once with none | one
        · rw [none]
          exact List.nil_sublist _
        · rw [one]
          cases marks[n] with
          | none => exact List.Sublist.refl _
          | some message => exact List.Sublist.refl _
  have all := first _ (Nat.le_refl _)
  rw [← linked.length, List.take_length, linked.taken, linked.length] at all
  exact all

theorem received_once {hello : List UInt8} (linked : Linked good hello world.outside told s marks) (k : Nat) :
    (s.contexts k).published.length ≤ 1 := by
  rcases Nat.lt_or_ge k s.publisher.connections.length with inside | late
  · have within : k < marks.length := by
      rw [linked.length]
      exact inside
    rcases (linked.link k _ _ (List.getElem?_eq_getElem inside) (List.getElem?_eq_getElem within)).once with none | one
    · rw [none]
      exact Nat.zero_le 1
    · rw [one]
      cases marks[k] <;> simp
  · rw [linked.fresh k late]
    exact Nat.zero_le 1

/-- Where nothing fails and everything was read, the broker handed on all messages. -/
theorem received_all (fine : good) (lossless : world.outside.Lossless) (client : s.publisher.mosq.isSome = true)
    (introduces : body.length < 128 ^ 4) (read : s.ReadAll)
    (linked : Linked good (frame cmdConnect body) world.outside told s marks) :
    s.received = told.map publication := by
  obtain ⟨-, marked, written⟩ := linked.lossless lossless client
  have first : ∀ n ≤ told.length,
      ((List.range n).flatMap fun k => (s.contexts k).published) = (told.take n).map publication := by
    intro n
    induction n with
    | zero => exact fun _ => rfl
    | succ n ih =>
        intro inside
        have within : told[n]? = some told[n] := List.getElem?_eq_getElem (show n < told.length by omega)
        have line : s.publisher.connections[n]? = some (session (frame cmdConnect body) told[n]) := by
          rw [written, List.getElem?_map, within, Option.map_some]
        have mark : marks[n]? = some (some told[n]) := by rw [marked, List.getElem?_map, within, Option.map_some]
        obtain ⟨short, -, holds⟩ := linked.link n _ _ line mark
        have handed := holds.handed fine introduces short rfl (read n _ line)
        rw [List.range_succ, List.flatMap_append, List.flatMap_singleton, ih (by omega), handed, List.take_add_one, within,
          Option.toList_some, List.map_append, List.map_singleton]
  have all := first _ (Nat.le_refl _)
  rw [List.take_length] at all
  rw [Network.received, written, List.length_map]
  exact all

end Steps

end SerialTiming.Program.Exchange
