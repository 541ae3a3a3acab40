/- module: SerialTiming/Mosquitto/Connect
   digest: The client library and its socket: connecting, queueing packets and writing as much as is taken. -/

import SerialTiming.Mosquitto.Packets

set_option autoImplicit false
set_option relaxedAutoImplicit false

namespace SerialTiming.Mosquitto.Connect

open CLib.Objects Packets

/-- What a call of net__write does: it takes a byte and some more, or fails with EAGAIN, ECONNRESET or otherwise. -/
inductive Written where
  | takes (more : Nat)
  | again
  | reset
  | fails
  deriving DecidableEq, Repr

/-- What the rest of the system answers to the successive allocations, calls of net__socket_connect and calls of
net__write. -/
structure Outside where
  memory : Nat → Bool
  connects : Nat → MosqErr
  writes : Nat → Written

inductive State where
  | new
  | connected
  | connectPending
  deriving DecidableEq, Repr

structure Outgoing where
  packet : Packet
  unsent : List UInt8
  deriving DecidableEq, Repr

/-- struct mosquitto. `queue` is the packet current_out_packet and the list out_packet behind it, `sock` holds what
was written to the open connection, and `closed` what was written to each connection before. -/
structure Client where
  id : List UInt8
  cleanStart : Bool
  keepalive : UInt16
  host : Option (List UInt8)
  port : Int
  state : State
  lastMid : UInt16
  queue : List Outgoing
  sock : Option (List UInt8)
  closed : List (List UInt8)
  allocations : Nat
  connects : Nat
  writes : Nat
  deriving DecidableEq, Repr

/-- mosquitto_new with an identifier. -/
def mosquittoNew (memory : Bool) (id : List UInt8) (cleanStart : Bool) : Option Client :=
  if memory ∧ id ≠ [] ∧ mosquittoValidateUtf8 id = .success then
    some ⟨id, cleanStart, 60, none, 1883, .new, 0, [], none, [], 0, 0, 0⟩
  else none

namespace Client

/-- All that was written to each connection, in the order in which they were made. -/
def connections (c : Client) : List (List UInt8) := c.closed ++ c.sock.toList

def pending (c : Client) : List UInt8 := c.queue.flatMap Outgoing.unsent

def allocated (c : Client) : Client := { c with allocations := c.allocations + 1 }

def netSocketClose (c : Client) : Client := { c with sock := none, closed := c.closed ++ c.sock.toList }

def packetCleanupAll (c : Client) : Client := { c with queue := [] }

def dialled (c : Client) : Client := { c with connects := c.connects + 1 }

def opened (c : Client) : Client := { c with sock := some [], state := .connected }

end Client

structure Progress where
  taken : List UInt8
  unsent : List UInt8
  writes : Nat
  stopped : Option MosqErr
  deriving DecidableEq, Repr

/-- The inner loop of packet__write. A call of net__write that takes `more` bytes besides the first lets them pass,
but no bytes of another packet. -/
def writeBytes (outside : Outside) (writes more : Nat) : List UInt8 → Progress
  | [] => ⟨[], [], writes, none⟩
  | b :: unsent =>
      match more with
      | more + 1 =>
          let rest := writeBytes outside writes more unsent
          { rest with taken := b :: rest.taken }
      | 0 =>
          match outside.writes writes with
          | .takes more =>
              let rest := writeBytes outside (writes + 1) more unsent
              { rest with taken := b :: rest.taken }
          | .again => ⟨[], b :: unsent, writes + 1, some .success⟩
          | .reset => ⟨[], b :: unsent, writes + 1, some .connLost⟩
          | .fails => ⟨[], b :: unsent, writes + 1, some .errno⟩

def writeQueue (outside : Outside) : List Outgoing → Client → MosqErr × Client
  | [], c => (.success, { c with queue := [] })
  | p :: queue, c =>
      let progress := writeBytes outside c.writes 0 p.unsent
      let c := { c with sock := c.sock.map (· ++ progress.taken), writes := progress.writes }
      match progress.stopped with
      | none => writeQueue outside queue c
      | some rc => (rc, { c with queue := { p with unsent := progress.unsent } :: queue })

def packetWrite (outside : Outside) (c : Client) : MosqErr × Client :=
  if c.sock = none then (.noConn, c)
  else if c.state = .connectPending then (.success, c)
  else writeQueue outside c.queue c

/-- A packet is written at once: no thread of the library runs, and no callback. -/
def packetQueue (outside : Outside) (p : Packet) (c : Client) : Checked (MosqErr × Client) :=
  if p.payload.length = p.packetLength then
    .ok (packetWrite outside { c with queue := c.queue ++ [⟨p, p.payload⟩] })
  else .error .unwritten

def sendPacket (outside : Outside) (command : UInt8) (mid : UInt16) (remainingLength : Nat)
    (fill : Packet → Checked Packet) (c : Client) : Checked (MosqErr × Client) :=
  if outside.memory c.allocations then
    match packetAlloc (outside.memory (c.allocations + 1)) command mid remainingLength with
    | .error rc => .ok (rc, c.allocated.allocated)
    | .ok p => do
        let p ← fill p
        packetQueue outside p c.allocated.allocated
  else .ok (.nomem, c.allocated)

def sendConnect (outside : Outside) (c : Client) : Checked (MosqErr × Client) :=
  sendPacket outside cmdConnect 0 (connectLength c.id) (fillConnect c.keepalive c.cleanStart c.id) c

/-- mosquitto__reconnect. -/
def mosquittoReconnect (outside : Outside) (c : Client) : Checked (MosqErr × Client) :=
  if c.host = none ∨ c.port ≤ 0 then .ok (.inval, c)
  else
    let rc := outside.connects c.connects
    let c := c.packetCleanupAll.netSocketClose.dialled
    if rc ≠ .success then .ok (rc, { c with state := .connectPending })
    else do
      let (rc, c) ← sendConnect outside c.opened
      if rc ≠ .success then .ok (rc, { c.packetCleanupAll.netSocketClose with state := .new }) else .ok (rc, c)

/-- The old host name is given back before the new one is copied. -/
def mosquittoConnectInit (outside : Outside) (host : List UInt8) (port keepalive : Int) (c : Client) :
    MosqErr × Client :=
  if port ≤ 0 then (.inval, c)
  else if keepalive < 5 then (.inval, c)
  else if outside.memory c.allocations then
    (.success, { c.allocated with host := some host, port := port, keepalive := UInt16.ofNat keepalive.toNat })
  else (.nomem, { c.allocated with host := none })

def mosquittoConnect (outside : Outside) (host : List UInt8) (port keepalive : Int) (c : Client) :
    Checked (MosqErr × Client) :=
  let (rc, c) := mosquittoConnectInit outside host port keepalive c
  if rc ≠ .success then .ok (rc, c) else mosquittoReconnect outside { c with state := .new }

def mosquittoMidGenerate (c : Client) : UInt16 × Client :=
  let mid := c.lastMid + 1
  let mid := if mid = 0 then mid + 1 else mid
  (mid, { c with lastMid := mid })

def sendPublish (outside : Outside) (mid : UInt16) (topic payload : List UInt8) (retain : Bool) (c : Client) :
    Checked (MosqErr × Client) :=
  if c.sock = none then .ok (.noConn, c)
  else sendPacket outside (publishCommand false 0 retain) mid (publishLength topic 0 payload)
    (fillPublish topic 0 mid payload) c

/-- mosquitto_publish with quality of service 0. -/
def mosquittoPublish (outside : Outside) (topic payload : List UInt8) (retain : Bool) (c : Client) :
    Checked (MosqErr × Client) :=
  if topic = [] then .ok (.inval, c)
  else if mosquittoValidateUtf8 topic ≠ .success then .ok (.malformedUtf8, c)
  else if payload.length > mqttMaxPayload then .ok (.payloadSize, c)
  else if mosquittoPubTopicCheck none topic ≠ .success then .ok (.inval, c)
  else
    let (mid, c) := mosquittoMidGenerate c
    sendPublish outside mid topic payload retain c

namespace Client
variable (c : Client)

/-- The packet with which a client introduces itself. -/
def connectPacket : List UInt8 := frame cmdConnect (connectBody c.keepalive c.cleanStart c.id)

def Alike (c' : Client) : Prop := c'.id = c.id ∧ c'.cleanStart = c.cleanStart ∧ c'.keepalive = c.keepalive

variable {c} in
theorem Alike.connectPacket {c' : Client} (alike : c.Alike c') : c'.connectPacket = c.connectPacket := by
  obtain ⟨id, cleanStart, keepalive⟩ := alike
  rw [Client.connectPacket, Client.connectPacket, id, cleanStart, keepalive]

variable {c} in
theorem Alike.trans {c' c'' : Client} (first : c.Alike c') (second : c'.Alike c'') : c.Alike c'' :=
  ⟨second.1.trans first.1, second.2.1.trans first.2.1, second.2.2.trans first.2.2⟩

end Client

/-- Nothing is short and nothing fails. -/
structure Outside.Lossless (outside : Outside) : Prop where
  memory : ∀ n, outside.memory n = true
  connects : ∀ n, outside.connects n = .success
  writes : ∀ n, ∃ more, outside.writes n = .takes more

section Loops
variable (outside : Outside)

theorem writeBytes_split (writes more : Nat) (unsent : List UInt8) :
    (writeBytes outside writes more unsent).taken ++ (writeBytes outside writes more unsent).unsent = unsent ∧
      ((writeBytes outside writes more unsent).stopped = none ↔
        (writeBytes outside writes more unsent).unsent = []) := by
  induction unsent generalizing writes more with
  | nil => simp [writeBytes]
  | cons b unsent ih =>
      cases more with
      | succ more =>
          obtain ⟨all, ended⟩ := ih writes more
          simp only [writeBytes, List.cons_append, all, ended, and_self]
      | zero =>
          simp only [writeBytes]
          split
          · rename_i more _
            obtain ⟨all, ended⟩ := ih (writes + 1) more
            simp only [List.cons_append, all, ended, and_self]
          all_goals simp

theorem writeBytes_lossless (lossless : outside.Lossless) (writes more : Nat) (unsent : List UInt8) :
    (writeBytes outside writes more unsent).stopped = none := by
  induction unsent generalizing writes more with
  | nil => rfl
  | cons b unsent ih =>
      cases more with
      | succ more => exact ih writes more
      | zero =>
          obtain ⟨more, takes⟩ := lossless.writes writes
          simp only [writeBytes, takes]
          exact ih (writes + 1) more

end Loops

/-- A client with the open connection `w` writes to it some first part of `bytes`. If it succeeds the rest waits in
the queue, and if all is `good` nothing does. -/
structure Wrote (good : Prop) (w bytes : List UInt8) (c : Client) (answer : MosqErr × Client) : Prop where
  closed : answer.2.closed = c.closed
  alike : c.Alike answer.2
  state : answer.2.state = c.state
  written : ∃ taken, answer.2.sock = some (w ++ taken) ∧ taken <+: bytes ∧
    (answer.1 = .success → taken ++ answer.2.pending = bytes) ∧ (answer.1 ≠ .success → taken ≠ bytes)
  lossless : good → answer.1 = .success ∧ answer.2.pending = []

section Writing
variable (outside : Outside) {c : Client} {w : List UInt8}

theorem writeQueue_wrote (queue : List Outgoing) (sock : c.sock = some w) :
    Wrote outside.Lossless w (queue.flatMap Outgoing.unsent) c (writeQueue outside queue c) := by
  induction queue generalizing c w with
  | nil => exact ⟨rfl, ⟨rfl, rfl, rfl⟩, rfl, ⟨[], by simp [writeQueue, sock], List.prefix_rfl, by simp [writeQueue, Client.pending],
      by simp [writeQueue]⟩, fun _ => ⟨rfl, rfl⟩⟩
  | cons p queue ih =>
      obtain ⟨all, ended⟩ := writeBytes_split outside c.writes 0 p.unsent
      have never := fun lossless => writeBytes_lossless outside lossless c.writes 0 p.unsent
      simp only [writeQueue]
      generalize writeBytes outside c.writes 0 p.unsent = progress at all ended never ⊢
      obtain ⟨taken, unsent, writes, stopped⟩ := progress
      cases stopped with
      | none =>
          have rest : unsent = [] := ended.mp rfl
          have whole : taken = p.unsent := by simpa [rest] using all
          show Wrote outside.Lossless w _ c
            (writeQueue outside queue { c with sock := c.sock.map (· ++ taken), writes := writes })
          obtain ⟨closed, alike, state, ⟨later, now, first, success, failed⟩, lossless⟩ :=
            ih (c := { c with sock := c.sock.map (· ++ taken), writes := writes }) (w := w ++ taken) (by simp [sock])
          refine ⟨closed, alike, state, ⟨taken ++ later, by rw [now, List.append_assoc], ?_, ?_, ?_⟩, lossless⟩
          · rw [List.flatMap_cons, ← whole]
            exact (List.prefix_append_right_inj _).mpr first
          · intro ok
            rw [List.flatMap_cons, ← whole, List.append_assoc, success ok]
          · intro bad same
            rw [List.flatMap_cons, ← whole, List.append_cancel_left_eq] at same
            exact failed bad same
      | some rc =>
          have left : unsent ≠ [] := by
            intro none
            cases ended.mpr none
          refine ⟨rfl, ⟨rfl, rfl, rfl⟩, rfl, ⟨taken, by simp [sock], ?_, ?_, ?_⟩, fun lossless => by cases never lossless⟩
          · rw [List.flatMap_cons, ← all, List.append_assoc]
            exact List.prefix_append _ _
          · intro _
            simp only [Client.pending, List.flatMap_cons, ← List.append_assoc, all]
          · intro _ same
            have longer := congrArg List.length same
            have parts := congrArg List.length all
            have positive := List.length_pos_of_ne_nil left
            simp only [List.flatMap_cons, List.length_append] at longer parts
            omega

theorem Wrote.refused {good : Prop} {bytes : List UInt8} {rc : MosqErr} {c' : Client} (sock : c'.sock = some w)
    (closed : c'.closed = c.closed) (alike : c.Alike c') (state : c'.state = c.state)
    (bad : rc ≠ .success) (some : bytes ≠ []) (why : ¬ good) : Wrote good w bytes c (rc, c') :=
  ⟨closed, alike, state, ⟨[], by simp [sock], List.nil_prefix, fun ok => absurd ok bad, fun _ none => some none.symm⟩,
    fun good => absurd good why⟩

theorem frame_ne_nil (command : UInt8) (body : List UInt8) : frame command body ≠ [] := by
  simp [frame]

theorem packetQueue_wrote (sock : c.sock = some w) (ready : c.state ≠ .connectPending) {p : Packet}
    (full : p.payload.length = p.packetLength) :
    ∃ answer, packetQueue outside p c = .ok answer ∧ Wrote outside.Lossless w (c.pending ++ p.payload) c answer := by
  have wrote := writeQueue_wrote outside (c := { c with queue := c.queue ++ [⟨p, p.payload⟩] })
    (c.queue ++ [⟨p, p.payload⟩]) sock
  have bytes : (c.queue ++ [Outgoing.mk p p.payload]).flatMap Outgoing.unsent = c.pending ++ p.payload := by
    simp [Client.pending]
  rw [bytes] at wrote
  refine ⟨_, if_pos full, ?_⟩
  have isOpen : ¬ c.sock = none := by simp [sock]
  rw [packetWrite, if_neg isOpen, if_neg ready]
  exact ⟨wrote.closed, wrote.alike, wrote.state, wrote.written, wrote.lossless⟩

theorem sendPacket_wrote (sock : c.sock = some w) (ready : c.state ≠ .connectPending) (command : UInt8) (mid : UInt16)
    {fill : Packet → Checked Packet} {body : List UInt8} (appends : Appends fill body) :
    ∃ answer, sendPacket outside command mid body.length fill c = .ok answer ∧
      Wrote (outside.Lossless ∧ body.length < 128 ^ 4) w (c.pending ++ frame command body) c answer := by
  have filled : c.pending ++ frame command body ≠ [] := List.append_ne_nil_of_right_ne_nil _ (frame_ne_nil command body)
  rw [sendPacket]
  by_cases packet : outside.memory c.allocations = true
  · rw [if_pos packet]
    cases made : packetAlloc (outside.memory (c.allocations + 1)) command mid body.length with
    | error rc =>
        have failed := packetAlloc_error made
        refine ⟨_, rfl, Wrote.refused sock rfl ⟨rfl, rfl, rfl⟩ rfl ?_ filled ?_⟩
        · rcases failed with ⟨rfl, -⟩ | ⟨rfl, -⟩ <;> nofun
        · rintro ⟨lossless, short⟩
          rcases failed with ⟨-, long⟩ | ⟨-, memory⟩
          · omega
          · simp [lossless.memory] at memory
    | ok p =>
        obtain ⟨q, whole, payload, full⟩ := appends.frame made
        obtain ⟨answer, queued, wrote⟩ :=
          packetQueue_wrote outside (c := c.allocated.allocated) sock ready full
        rw [payload] at wrote
        refine ⟨answer, by simp only [whole, ok_bind, queued], ?_⟩
        exact ⟨wrote.closed, wrote.alike, wrote.state, wrote.written, fun good => wrote.lossless good.1⟩
  · rw [if_neg packet]
    refine ⟨_, rfl, Wrote.refused sock rfl ⟨rfl, rfl, rfl⟩ rfl nofun filled ?_⟩
    rintro ⟨lossless, -⟩
    exact packet (lossless.memory _)

end Writing

/-- A client gives up its connection and may make another one, to which it writes its connect packet: some first part
of it, and all of it but for what waits in the queue if it succeeds. -/
structure Joined (good : Prop) (c : Client) (answer : MosqErr × Client) : Prop where
  alike : c.Alike answer.2
  failed : answer.1 ≠ .success → ∃ new : Option (List UInt8),
    answer.2.connections = c.connections ++ new.toList ∧ ∀ w ∈ new, w <+: c.connectPacket ∧ w ≠ c.connectPacket
  success : answer.1 = .success → answer.2.closed = c.connections ∧ answer.2.state = .connected ∧
    ∃ w, answer.2.sock = some w ∧ w ++ answer.2.pending = c.connectPacket
  lossless : good → answer.1 = .success ∧ answer.2.pending = []

section Joining
variable (outside : Outside) {c : Client}

theorem sendConnect_wrote (short : c.id.length < 65526) (empty : c.queue = []) :
    ∃ answer, sendConnect outside c.opened = .ok answer ∧ Wrote outside.Lossless [] c.connectPacket c.opened answer := by
  have fill := fillConnect_appends c.keepalive c.cleanStart (show c.id.length < 65536 by omega)
  obtain ⟨answer, sent, wrote⟩ :=
    sendPacket_wrote outside (c := c.opened) rfl nofun cmdConnect 0 fill
  have nothing : c.opened.pending = [] := by simp [Client.pending, Client.opened, empty]
  have small : (connectBody c.keepalive c.cleanStart c.id).length < 128 ^ 4 := by
    rw [connectBody_length, connectLength]
    omega
  rw [connectBody_length] at sent
  rw [nothing, List.nil_append] at wrote
  exact ⟨answer, sent, wrote.closed, wrote.alike, wrote.state, wrote.written, fun good => wrote.lossless ⟨good, small⟩⟩

theorem mosquittoReconnect_joined (short : c.id.length < 65526) :
    ∃ answer, mosquittoReconnect outside c = .ok answer ∧
      Joined (outside.Lossless ∧ c.host ≠ none ∧ 0 < c.port) c answer := by
  rw [mosquittoReconnect]
  by_cases hosted : c.host = none ∨ c.port ≤ 0
  · rw [if_pos hosted]
    refine ⟨_, rfl, ⟨rfl, rfl, rfl⟩, fun _ => ⟨none, by simp, by simp⟩, nofun, ?_⟩
    rintro ⟨-, host, port⟩
    exact absurd hosted (by simp [host, port])
  rw [if_neg hosted]
  by_cases refused : outside.connects c.connects ≠ .success
  · refine ⟨_, if_pos refused, ⟨rfl, rfl, rfl⟩, fun _ => ⟨none, ?_, by simp⟩, fun ok => absurd ok refused, ?_⟩
    · simp [Client.connections, Client.netSocketClose, Client.packetCleanupAll, Client.dialled]
    · rintro ⟨lossless, -⟩
      exact absurd (lossless.connects _) refused
  -- the connection is there, and the connect packet is the first in an empty queue
  obtain ⟨⟨rc, d⟩, sent, wrote⟩ :=
    sendConnect_wrote outside (c := c.packetCleanupAll.netSocketClose.dialled) short rfl
  have alike : c.Alike d := wrote.alike
  have closed : d.closed = c.connections := wrote.closed
  obtain ⟨taken, sock, first, success, failed⟩ := wrote.written
  dsimp only
  rw [if_neg refused, sent, ok_bind]
  by_cases bad : rc ≠ .success
  · refine ⟨_, if_pos bad, alike, fun _ => ⟨some taken, ?_, ?_⟩, fun ok => absurd ok bad, fun good => ?_⟩
    · have sock : d.sock = some taken := sock
      simp [Client.connections, Client.netSocketClose, Client.packetCleanupAll, sock, closed]
    · intro w same
      obtain rfl : taken = w := Option.some.inj same
      exact ⟨first, failed bad⟩
    · exact absurd (wrote.lossless good.1).1 bad
  · refine ⟨_, if_neg bad, alike, fun failed => absurd failed bad, fun ok => ?_, fun good => wrote.lossless good.1⟩
    exact ⟨closed, wrote.state, taken, sock, success ok⟩

/-- mosquitto_connect keeps the connection when it cannot copy the host name, and else makes a new one. -/
theorem mosquittoConnect_joined (short : c.id.length < 65526) (host : List UInt8) {port keepalive : Int}
    (known : 0 < port) (enough : 5 ≤ keepalive) (kept : UInt16.ofNat keepalive.toNat = c.keepalive) :
    ∃ answer, mosquittoConnect outside host port keepalive c = .ok answer ∧ Joined outside.Lossless c answer := by
  rw [mosquittoConnect, mosquittoConnectInit, if_neg (by omega), if_neg (by omega)]
  by_cases memory : outside.memory c.allocations = true
  · rw [if_pos memory]
    obtain ⟨answer, joined, spec⟩ := mosquittoReconnect_joined outside (c := { c.allocated with
      host := some host, port := port, keepalive := UInt16.ofNat keepalive.toNat, state := .new }) short
    have alike : c.Alike { c.allocated with
        host := some host, port := port, keepalive := UInt16.ofNat keepalive.toNat, state := .new } := ⟨rfl, rfl, kept⟩
    refine ⟨answer, joined, alike.trans spec.alike, ?_, ?_, fun good => spec.lossless ⟨good, nofun, known⟩⟩
    · rw [← alike.connectPacket]
      exact spec.failed
    · rw [← alike.connectPacket]
      exact spec.success
  · rw [if_neg memory]
    refine ⟨_, rfl, ⟨rfl, rfl, rfl⟩, fun _ => ⟨none, by simp [Client.connections, Client.allocated], by simp⟩, nofun, ?_⟩
    exact fun good => absurd (good.memory _) memory

theorem mosquittoPublish_wrote {w : List UInt8} (sock : c.sock = some w) (ready : c.state ≠ .connectPending)
    {topic : List UInt8} (named : topic ≠ []) (utf8 : mosquittoValidateUtf8 topic = .success)
    (plain : mosquittoPubTopicCheck none topic = .success) (short : topic.length < 65536) (payload : List UInt8)
    (retain : Bool) :
    ∃ answer, mosquittoPublish outside topic payload retain c = .ok answer ∧
      Wrote (outside.Lossless ∧ (publishBody topic payload).length < 128 ^ 4) w
        (c.pending ++ frame (publishCommand false 0 retain) (publishBody topic payload)) c answer := by
  have filled := List.append_ne_nil_of_right_ne_nil c.pending
    (frame_ne_nil (publishCommand false 0 retain) (publishBody topic payload))
  rw [mosquittoPublish, if_neg named, if_neg (not_not_intro utf8)]
  by_cases long : payload.length > mqttMaxPayload
  · rw [if_pos long]
    refine ⟨_, rfl, Wrote.refused sock rfl ⟨rfl, rfl, rfl⟩ rfl nofun filled ?_⟩
    rintro ⟨-, small⟩
    rw [publishBody_length, publishLength] at small
    simp only [mqttMaxPayload] at long
    omega
  rw [if_neg long, if_neg (not_not_intro plain)]
  obtain ⟨mid, number, generated⟩ : ∃ mid number, mosquittoMidGenerate c = (mid, { c with lastMid := number }) :=
    ⟨_, _, rfl⟩
  have isOpen : ¬ c.sock = none := by simp [sock]
  obtain ⟨answer, sent, wrote⟩ := sendPacket_wrote outside (c := { c with lastMid := number }) sock ready
    (publishCommand false 0 retain) mid (fillPublish_appends mid payload short)
  rw [publishBody_length] at sent
  refine ⟨answer, ?_, wrote.closed, wrote.alike, wrote.state, wrote.written, wrote.lossless⟩
  rw [generated]
  dsimp only
  rw [sendPublish, if_neg isOpen, sent]

end Joining

end SerialTiming.Mosquitto.Connect
