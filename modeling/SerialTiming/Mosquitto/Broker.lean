/- module: SerialTiming/Mosquitto/Broker
   digest: The broker's side of a connection: packets read as their bytes arrive, and what is published of them. -/

import SerialTiming.Machines.Scanner
import SerialTiming.Mosquitto.Packets

set_option autoImplicit false
set_option relaxedAutoImplicit false

namespace SerialTiming.Mosquitto.Broker

open Wire Packets Machines

/-- What a call of net__read does: it gives what is there, up to a byte and so many more, or it fails with EAGAIN,
tells the end of the connection, or fails with ECONNRESET or otherwise. -/
inductive Reading where
  | gives (more : Nat)
  | again
  | ends
  | reset
  | fails
  deriving DecidableEq, Repr

/-- in_packet: `payload` holds the bytes up to `pos`. -/
structure InPacket where
  command : UInt8
  remainingCount : Int
  remainingMult : Nat
  remainingLength : Nat
  toProcess : Nat
  payload : List UInt8
  deriving DecidableEq, Repr

def InPacket.start : InPacket := ⟨0, 0, 1, 0, 0, []⟩

def InPacket.group (b : UInt8) (p : InPacket) : InPacket :=
  { p with
    remainingCount := p.remainingCount - 1
    remainingLength := p.remainingLength + Varint.bits b * p.remainingMult
    remainingMult := p.remainingMult * 128 }

def InPacket.counted (p : InPacket) : InPacket := { p with remainingCount := -p.remainingCount }

def InPacket.measured (p : InPacket) : InPacket := { p with toProcess := p.remainingLength }

def InPacket.gets (bytes : List UInt8) (p : InPacket) : InPacket :=
  { p with toProcess := p.toProcess - bytes.length, payload := p.payload ++ bytes }

inductive State where
  | new
  | connected
  | active
  | disconnected
  deriving DecidableEq, Repr

/-- A connection of the broker while it is read: what was written to it and not read yet, and how often net__read was
called. -/
structure Reader where
  state : State
  inPacket : InPacket
  unread : List UInt8
  calls : Nat
  deriving DecidableEq, Repr

/-- A message that was handed to sub__messages_queue with quality of service 0. -/
structure Publication where
  topic : List UInt8
  payload : List UInt8
  retain : Bool
  deriving DecidableEq, Repr

/-- The broker's configuration, and what its parts that are not modelled decide on the connection of a number:
handle__connect on a connect packet, the handlers of other packets, the access check, and the subscriptions. A
message with another quality of service than 0 counts as another packet. -/
structure Policy where
  maxPacketSize : Nat
  messageSizeLimit : Nat
  retainAvailable : Bool
  connects : Nat → List UInt8 → MosqErr × State
  others : Nat → UInt8 → List UInt8 → MosqErr × State
  accessCheck : Nat → Publication → MosqErr
  queues : Nat → Publication → Bool

inductive Answer where
  | data (first : UInt8) (more : List UInt8)
  | again
  | ends
  | reset
  | fails
  deriving DecidableEq, Repr

/-- A call of net__read for so many bytes besides the first. -/
def netRead (readings : Nat → Reading) (most : Nat) (r : Reader) : Answer × Reader :=
  match readings r.calls, r.unread with
  | .gives more, b :: unread =>
      (.data b (unread.take (min more most)), { r with unread := unread.drop (min more most), calls := r.calls + 1 })
  | .gives _, [] => (.again, { r with calls := r.calls + 1 })
  | .again, _ => (.again, { r with calls := r.calls + 1 })
  | .ends, _ => (.ends, { r with calls := r.calls + 1 })
  | .reset, _ => (.reset, { r with calls := r.calls + 1 })
  | .fails, _ => (.fails, { r with calls := r.calls + 1 })

def readByte (readings : Nat → Reading) (r : Reader) : Except (MosqErr × Reader) (UInt8 × Reader) :=
  match netRead readings 0 r with
  | (.data byte _, r) => .ok (byte, r)
  | (.again, r) => .error (.success, r)
  | (.ends, r) => .error (.connLost, r)
  | (.reset, r) => .error (.connLost, r)
  | (.fails, r) => .error (.errno, r)

def readCommand (readings : Nat → Reading) (r : Reader) : Except (MosqErr × Reader) Reader :=
  if r.inPacket.command = 0 then
    match readByte readings r with
    | .error stop => .error stop
    | .ok (byte, r) =>
        let r := { r with inPacket := { r.inPacket with command := byte } }
        if r.state = .connected ∧ byte &&& 0xF0 ≠ cmdConnect then .error (.protocol, r) else .ok r
  else .ok r

/-- The loop over the groups of the length; the fifth one is an error. -/
def readGroups (readings : Nat → Reading) : Nat → Reader → Except (MosqErr × Reader) Reader
  | 0, r => .error (.protocol, r)
  | groups + 1, r =>
      match readByte readings r with
      | .error stop => .error stop
      | .ok (byte, r) =>
          let count := r.inPacket.remainingCount - 1
          if count < -4 then .error (.protocol, { r with inPacket := { r.inPacket with remainingCount := count } })
          else if Varint.marked byte then readGroups readings groups { r with inPacket := r.inPacket.group byte }
          else .ok { r with inPacket := (r.inPacket.group byte).counted }

def Reader.measured (r : Reader) : Reader := { r with inPacket := r.inPacket.measured }

def readLength (policy : Policy) (readings : Nat → Reading) (r : Reader) : Except (MosqErr × Reader) Reader :=
  if r.inPacket.remainingCount ≤ 0 then
    match readGroups readings 5 r with
    | .error stop => .error stop
    | .ok r =>
        if policy.maxPacketSize > 0 ∧ r.inPacket.remainingLength + 1 > policy.maxPacketSize then
          .error (.oversizePacket, r)
        else .ok r.measured
  else .ok r

/-- The loop over the body. An end of the connection is an error like the others here. -/
def readBody (readings : Nat → Reading) : Nat → Reader → Except (MosqErr × Reader) Reader
  | 0, r => .ok r
  | fuel + 1, r =>
      if r.inPacket.toProcess = 0 then .ok r
      else
        match netRead readings (r.inPacket.toProcess - 1) r with
        | (.data first more, r) =>
            readBody readings fuel { r with inPacket := r.inPacket.gets (first :: more) }
        | (.again, r) => .error (.success, r)
        | (.ends, r) => .error (.errno, r)
        | (.reset, r) => .error (.connLost, r)
        | (.fails, r) => .error (.errno, r)

/-- packet__read up to the point where all data of the packet is read. Each round of the last loop reads a byte. -/
def readPacket (policy : Policy) (readings : Nat → Reading) (r : Reader) : Except (MosqErr × Reader) Reader :=
  match readCommand readings r with
  | .error stop => .error stop
  | .ok r =>
      match readLength policy readings r with
      | .error stop => .error stop
      | .ok r => readBody readings r.inPacket.toProcess r

def readUint16 : List UInt8 → Option (Nat × List UInt8)
  | msb :: lsb :: rest => some (msb.toNat * 256 + lsb.toNat, rest)
  | _ => none

def readString (body : List UInt8) : Option (List UInt8 × List UInt8) :=
  match readUint16 body with
  | none => none
  | some (length, rest) =>
      if length = 0 then some ([], rest)
      else if rest.length < length then none
      else if mosquittoValidateUtf8 (rest.take length) ≠ .success then none
      else some (rest.take length, rest.drop length)

/-- The result 1 of a handler is the number of MOSQ_ERR_NOMEM. -/
def one : MosqErr := .nomem

def topicHierarchyLimit : Nat := 200

/-- handle__publish on a packet of protocol version 3.1.1 with quality of service 0. -/
def handlePublish (policy : Policy) (number : Nat) (state : State) (p : InPacket) : MosqErr × List Publication :=
  if state ≠ .active then (.protocol, [])
  else
    let retain := p.command &&& 0x01 ≠ 0
    if retain ∧ policy.retainAvailable = false then (one, [])
    else
      match readString p.payload with
      | none => (one, [])
      | some (topic, payload) =>
          if topic = [] then (one, [])
          else if mosquittoValidateUtf8 topic ≠ .success then (one, [])
          else if mosquittoPubTopicCheck (some topicHierarchyLimit) topic ≠ .success then (one, [])
          else
            let publication : Publication := ⟨topic, payload, retain⟩
            if payload.length > 0 ∧ policy.messageSizeLimit > 0 ∧ payload.length > policy.messageSizeLimit then
              (.success, [])
            else
              let rc := policy.accessCheck number publication
              if rc = .aclDenied then (.success, [])
              else if rc ≠ .success then (rc, [])
              else if policy.queues number publication then (.success, [publication])
              else (one, [publication])

/-- handle__packet, for the packets that are modelled: its result, the state afterwards and what was published. -/
def handlePacket (policy : Policy) (number : Nat) (state : State) (p : InPacket) :
    MosqErr × State × List Publication :=
  if p.command &&& 0xF0 = cmdPublish ∧ p.command &&& 0x06 = 0 then
    let (rc, published) := handlePublish policy number state p
    (rc, state, published)
  else if p.command &&& 0xF0 = cmdConnect then
    if state ≠ .new then (.protocol, state, [])
    else
      let (rc, state) := policy.connects number p.payload
      (rc, state, [])
  else
    let (rc, state) := policy.others number p.command p.payload
    (rc, state, [])

def packetRead (policy : Policy) (readings : Nat → Reading) (number : Nat) (r : Reader) :
    MosqErr × Reader × List Publication :=
  match readPacket policy readings r with
  | .error (rc, r) => (rc, r, [])
  | .ok r =>
      let (rc, state, published) := handlePacket policy number r.state r.inPacket
      (rc, { r with state := state, inPacket := .start }, published)

namespace InPacket

/-- What a byte does to the packet that is read. -/
def feed (p : InPacket) (b : UInt8) : InPacket :=
  if p.command = 0 then { p with command := b }
  else if p.remainingCount ≤ 0 then if Varint.marked b then p.group b else (p.group b).counted.measured
  else p.gets [b]

def whole (p : InPacket) : Bool := 0 < p.remainingCount && p.toProcess == 0

abbrev Reaches (p : InPacket) (bytes : List UInt8) (q : InPacket) : Prop :=
  Scanner.Reaches feed (fun p => p.whole = true) p bytes q

theorem Reaches.byte {p : InPacket} (part : p.whole = false) (b : UInt8) : p.Reaches [b] (p.feed b) :=
  .single (by simp [part])

end InPacket

def Advances (r r' : Reader) : Prop :=
  r'.state = r.state ∧ ∃ bytes, r.unread = bytes ++ r'.unread ∧ r.inPacket.Reaches bytes r'.inPacket

/-- A reader goes on, or returns without an error in the middle of a packet, as the bytes it read say. -/
def Goes (r : Reader) : Except (MosqErr × Reader) Reader → Prop
  | .ok r' => Advances r r'
  | .error (rc, r') => rc = .success → Advances r r' ∧ r'.inPacket.whole = false

section Reading
variable (readings : Nat → Reading) {r : Reader}

theorem Advances.refl (r : Reader) : Advances r r := ⟨rfl, [], rfl, .nil _⟩

theorem Advances.trans {r₁ r₂ : Reader} (first : Advances r r₁) (second : Advances r₁ r₂) : Advances r r₂ := by
  obtain ⟨state, xs, unread, reaches⟩ := first
  obtain ⟨state', ys, unread', reaches'⟩ := second
  exact ⟨state'.trans state, xs ++ ys, by rw [unread, unread', List.append_assoc], reaches.trans reaches'⟩

theorem Goes.after {r₁ : Reader} {x : Except (MosqErr × Reader) Reader} (second : Goes r₁ x)
    (first : Advances r r₁) : Goes r x := by
  cases x with
  | ok r₂ => exact first.trans second
  | error stop => exact fun ok => ⟨first.trans (second ok).1, (second ok).2⟩

theorem readByte_cases :
    (∃ b r', readByte readings r = .ok (b, r') ∧ r.unread = b :: r'.unread ∧ r'.inPacket = r.inPacket ∧
      r'.state = r.state) ∨
    ∃ rc r', readByte readings r = .error (rc, r') ∧ r'.unread = r.unread ∧ r'.inPacket = r.inPacket ∧
      r'.state = r.state := by
  unfold readByte netRead
  cases readings r.calls with
  | gives more =>
      cases unread : r.unread with
      | nil => exact .inr ⟨_, _, rfl, rfl, rfl, rfl⟩
      | cons b bytes => exact .inl ⟨b, _, rfl, by simp, rfl, rfl⟩
  | again => exact .inr ⟨_, _, rfl, rfl, rfl, rfl⟩
  | ends => exact .inr ⟨_, _, rfl, rfl, rfl, rfl⟩
  | reset => exact .inr ⟨_, _, rfl, rfl, rfl, rfl⟩
  | fails => exact .inr ⟨_, _, rfl, rfl, rfl, rfl⟩

private theorem Goes.stays {rc : MosqErr} {r' : Reader} (unread : r'.unread = r.unread)
    (inPacket : r'.inPacket = r.inPacket) (state : r'.state = r.state) (part : r.inPacket.whole = false) :
    Goes r (.error (rc, r')) := by
  intro _
  refine ⟨⟨state, [], unread.symm, ?_⟩, ?_⟩
  · rw [inPacket]
    exact .nil _
  · rw [inPacket]
    exact part

private theorem Advances.byte (part : r.inPacket.whole = false) {b : UInt8} {r' : Reader}
    (unread : r.unread = b :: r'.unread) (fed : r'.inPacket = r.inPacket.feed b) (state : r'.state = r.state) :
    Advances r r' := by
  refine ⟨state, [b], unread, ?_⟩
  rw [fed]
  exact .byte part b

/-- The command must not be 0: packet__read would go on with the length, but take the next byte for a command if it
returned before the body. -/
theorem readCommand_goes (part : r.inPacket.whole = false)
    (known : r.inPacket.command = 0 → ∀ b ∈ r.unread.head?, b ≠ 0) :
    Goes r (readCommand readings r) ∧
      ∀ r', readCommand readings r = .ok r' → r'.inPacket.command ≠ 0 ∧ r'.inPacket.whole = false := by
  rw [readCommand]
  by_cases fresh : r.inPacket.command = 0
  · rw [if_pos fresh]
    rcases readByte_cases readings (r := r) with ⟨b, r₁, read, unread, inPacket, state⟩ |
      ⟨rc, r₁, stop, unread, inPacket, state⟩
    · have fed : { r₁.inPacket with command := b } = r.inPacket.feed b := by
        rw [inPacket, InPacket.feed, if_pos fresh]
      have next : b ≠ 0 := known fresh b (by simp [unread])
      have kept : (r.inPacket.feed b).whole = false := by
        rw [InPacket.feed, if_pos fresh]
        exact part
      simp only [read]
      split
      · exact ⟨nofun, nofun⟩
      · refine ⟨Advances.byte part unread fed state, ?_⟩
        intro r' same
        obtain rfl := Except.ok.inj same
        exact ⟨next, by rw [fed]; exact kept⟩
    · simp only [stop]
      exact ⟨.stays unread inPacket state part, nofun⟩
  · rw [if_neg fresh]
    refine ⟨.refl r, ?_⟩
    intro r' same
    obtain rfl := Except.ok.inj same
    exact ⟨fresh, part⟩

theorem readGroups_goes (groups : Nat) (begun : r.inPacket.command ≠ 0) (unmeasured : r.inPacket.remainingCount ≤ 0) :
    (∀ r', readGroups readings groups r = .ok r' →
      Advances r r'.measured ∧ 0 < r'.inPacket.remainingCount ∧ r'.inPacket.command ≠ 0) ∧
    ∀ rc r', readGroups readings groups r = .error (rc, r') → Goes r (.error (rc, r')) := by
  induction groups generalizing r with
  | zero =>
      refine ⟨nofun, ?_⟩
      intro rc r' same
      obtain ⟨rfl, rfl⟩ := Prod.mk.inj (Except.error.inj same)
      nofun
  | succ groups ih =>
      have part : r.inPacket.whole = false := by simp [InPacket.whole, unmeasured]
      rw [readGroups]
      rcases readByte_cases readings (r := r) with ⟨b, r₁, read, unread, inPacket, state⟩ |
        ⟨rc, r₁, stop, unread, inPacket, state⟩
      · simp only [read, inPacket]
        by_cases fifth : r.inPacket.remainingCount - 1 < -4
        · rw [if_pos fifth]
          refine ⟨nofun, ?_⟩
          intro rc r' same
          obtain ⟨rfl, rfl⟩ := Prod.mk.inj (Except.error.inj same)
          nofun
        rw [if_neg fifth]
        by_cases mark : Varint.marked b = true
        · rw [if_pos mark]
          have first : Advances r { r₁ with inPacket := r.inPacket.group b } := by
            refine .byte part unread ?_ state
            rw [InPacket.feed, if_neg begun, if_pos unmeasured, if_pos mark]
          have below : (r.inPacket.group b).remainingCount ≤ 0 := by
            show r.inPacket.remainingCount - 1 ≤ 0
            omega
          obtain ⟨whole, stopped⟩ := ih (r := { r₁ with inPacket := r.inPacket.group b }) begun below
          exact ⟨fun r' same => ⟨first.trans (whole r' same).1, (whole r' same).2⟩,
            fun rc r' same => (stopped rc r' same).after first⟩
        · rw [if_neg mark]
          refine ⟨?_, nofun⟩
          intro r' same
          obtain rfl := Except.ok.inj same
          refine ⟨.byte part unread ?_ state, by show 0 < -(r.inPacket.remainingCount - 1); omega, begun⟩
          rw [InPacket.feed, if_neg begun, if_pos unmeasured, if_neg mark]
          rfl
      · simp only [stop]
        refine ⟨nofun, ?_⟩
        intro rc' r' same
        obtain ⟨rfl, rfl⟩ := Prod.mk.inj (Except.error.inj same)
        exact .stays unread inPacket state part

theorem readLength_goes (policy : Policy) (begun : r.inPacket.command ≠ 0) :
    Goes r (readLength policy readings r) ∧
      ∀ r', readLength policy readings r = .ok r' → 0 < r'.inPacket.remainingCount ∧ r'.inPacket.command ≠ 0 := by
  rw [readLength]
  by_cases unmeasured : r.inPacket.remainingCount ≤ 0
  · rw [if_pos unmeasured]
    obtain ⟨whole, stopped⟩ := readGroups_goes readings 5 begun unmeasured
    cases read : readGroups readings 5 r with
    | error stop => exact ⟨stopped stop.1 stop.2 read, nofun⟩
    | ok r₁ =>
        obtain ⟨advances, positive⟩ := whole r₁ read
        simp only
        split
        · exact ⟨nofun, nofun⟩
        · refine ⟨advances, ?_⟩
          intro r' same
          obtain rfl := Except.ok.inj same
          exact positive
  · rw [if_neg unmeasured]
    refine ⟨.refl r, ?_⟩
    intro r' same
    obtain rfl := Except.ok.inj same
    exact ⟨by omega, begun⟩

theorem netRead_data {most : Nat} {b : UInt8} {more : List UInt8} {r' : Reader}
    (read : netRead readings most r = (.data b more, r')) :
    r.unread = b :: more ++ r'.unread ∧ more.length ≤ most ∧ r'.inPacket = r.inPacket ∧ r'.state = r.state := by
  rw [netRead] at read
  split at read
  · rename_i more unread _ bytes
    obtain ⟨data, rfl⟩ := Prod.mk.inj read
    obtain ⟨rfl, rfl⟩ := Answer.data.inj data
    refine ⟨by rw [bytes, List.cons_append, List.take_append_drop], ?_, rfl, rfl⟩
    rw [List.length_take]
    omega
  all_goals cases read

theorem netRead_again {most : Nat} {r' : Reader} (read : netRead readings most r = (.again, r')) :
    r'.unread = r.unread ∧ r'.inPacket = r.inPacket ∧ r'.state = r.state := by
  rw [netRead] at read
  split at read
  · cases read
  all_goals
    obtain ⟨-, rfl⟩ := Prod.mk.inj read
    exact ⟨rfl, rfl, rfl⟩

theorem InPacket.gets_append (p : InPacket) (xs ys : List UInt8) : (p.gets xs).gets ys = p.gets (xs ++ ys) := by
  simp only [gets, List.append_assoc, List.length_append, Nat.sub_sub]

theorem InPacket.Reaches.body {p : InPacket} (begun : p.command ≠ 0) (measured : 0 < p.remainingCount)
    {bytes : List UInt8} (some : bytes ≠ []) (inside : bytes.length ≤ p.toProcess) :
    p.Reaches bytes (p.gets bytes) := by
  induction bytes generalizing p with
  | nil => exact absurd rfl some
  | cons b bytes ih =>
      have fed : p.feed b = p.gets [b] := by rw [feed, if_neg begun, if_neg (by omega)]
      have some : ¬ p.toProcess = 0 := by
        rw [List.length_cons] at inside
        omega
      have first := Reaches.byte (p := p) (by simp [whole, some]) b
      rw [fed] at first
      by_cases last : bytes = []
      · subst last
        exact first
      · have left := List.length_pos_of_ne_nil last
        rw [List.length_cons] at inside
        have rest := ih (p := p.gets [b]) begun measured last (by show bytes.length ≤ p.toProcess - 1; omega)
        rw [gets_append] at rest
        exact first.trans rest

theorem readBody_goes (fuel : Nat) (begun : r.inPacket.command ≠ 0) (measured : 0 < r.inPacket.remainingCount)
    (part : r.inPacket.whole = false) (enough : r.inPacket.toProcess ≤ fuel) :
    Goes r (readBody readings fuel r) ∧ ∀ r', readBody readings fuel r = .ok r' → r'.inPacket.whole = true := by
  induction fuel generalizing r with
  | zero =>
      have none : r.inPacket.toProcess = 0 := by omega
      simp [InPacket.whole, measured, none] at part
  | succ fuel ih =>
      have left : ¬ r.inPacket.toProcess = 0 := by
        intro none
        simp [InPacket.whole, measured, none] at part
      rw [readBody, if_neg left]
      split
      · rename_i first more r₁ read
        obtain ⟨unread, inside, inPacket, state⟩ := netRead_data readings read
        have taken : Advances r { r₁ with inPacket := r₁.inPacket.gets (first :: more) } := by
          refine ⟨state, first :: more, unread, ?_⟩
          rw [inPacket]
          refine .body begun measured (List.cons_ne_nil first more) ?_
          rw [List.length_cons]
          omega
        have count : (r₁.inPacket.gets (first :: more)).toProcess = r.inPacket.toProcess - (more.length + 1) := by
          rw [inPacket]
          rfl
        rw [← inPacket] at begun measured
        by_cases last : (r₁.inPacket.gets (first :: more)).toProcess = 0
        · have done : readBody readings fuel { r₁ with inPacket := r₁.inPacket.gets (first :: more) } =
              .ok { r₁ with inPacket := r₁.inPacket.gets (first :: more) } := by
            cases fuel with
            | zero => rfl
            | succ fuel => rw [readBody, if_pos last]
          rw [done]
          refine ⟨taken, ?_⟩
          intro r' same
          obtain rfl := Except.ok.inj same
          have positive : 0 < (r₁.inPacket.gets (first :: more)).remainingCount := measured
          simp [InPacket.whole, positive, last]
        · have kept : (r₁.inPacket.gets (first :: more)).whole = false := by simp [InPacket.whole, last]
          obtain ⟨rest, whole⟩ := ih (r := { r₁ with inPacket := r₁.inPacket.gets (first :: more) }) begun measured kept
            (by show (r₁.inPacket.gets (first :: more)).toProcess ≤ fuel; omega)
          exact ⟨rest.after taken, whole⟩
      · rename_i r₁ read
        obtain ⟨unread, inPacket, state⟩ := netRead_again readings read
        exact ⟨.stays unread inPacket state part, nofun⟩
      all_goals exact ⟨nofun, nofun⟩

def Reader.Known (r : Reader) : Prop := r.inPacket.command = 0 → ∀ b ∈ r.unread.head?, b ≠ 0

theorem readPacket_goes (policy : Policy) (part : r.inPacket.whole = false) (known : r.Known) :
    Goes r (readPacket policy readings r) ∧ ∀ r', readPacket policy readings r = .ok r' → r'.inPacket.whole = true := by
  rw [readPacket]
  obtain ⟨first, begun⟩ := readCommand_goes readings part known
  cases read : readCommand readings r with
  | error stop =>
      rw [read] at first
      exact ⟨first, nofun⟩
  | ok r₁ =>
      rw [read] at first
      obtain ⟨command, part₁⟩ := begun r₁ read
      obtain ⟨second, measured⟩ := readLength_goes readings policy command
      dsimp only
      cases length : readLength policy readings r₁ with
      | error stop =>
          rw [length] at second
          exact ⟨second.after first, nofun⟩
      | ok r₂ =>
          rw [length] at second
          dsimp only
          obtain ⟨count, command₂⟩ := measured r₂ length
          have before : Advances r r₂ := first.trans second
          cases part₂ : r₂.inPacket.whole with
          | false =>
              obtain ⟨third, whole⟩ := readBody_goes readings _ command₂ count part₂ (Nat.le_refl _)
              exact ⟨third.after before, whole⟩
          | true =>
              -- a packet without a body
              have nothing : r₂.inPacket.toProcess = 0 := by
                rw [InPacket.whole, Bool.and_eq_true, beq_iff_eq] at part₂
                exact part₂.2
              simp only [nothing, readBody]
              refine ⟨before, ?_⟩
              intro r' same
              obtain rfl := Except.ok.inj same
              exact part₂

end Reading

/-- What a call of packet__read may be: it leaves the packet unfinished, it hands a whole one to its handler, or it
fails before that. -/
inductive Came (policy : Policy) (number : Nat) (r : Reader) : MosqErr × Reader × List Publication → Prop
  | waits {r' : Reader} (advances : Advances r r') (part : r'.inPacket.whole = false) :
      Came policy number r (.success, r', [])
  | handled {rc : MosqErr} {r' : Reader} {published : List Publication} {q : InPacket} {bytes : List UInt8}
      (unread : r.unread = bytes ++ r'.unread) (reaches : r.inPacket.Reaches bytes q) (whole : q.whole = true)
      (fresh : r'.inPacket = .start) (answer : handlePacket policy number r.state q = (rc, r'.state, published)) :
      Came policy number r (rc, r', published)
  | fails {rc : MosqErr} {r' : Reader} (bad : rc ≠ .success) : Came policy number r (rc, r', [])

theorem packetRead_came (policy : Policy) (readings : Nat → Reading) (number : Nat) {r : Reader}
    (part : r.inPacket.whole = false) (known : r.Known) : Came policy number r (packetRead policy readings number r) := by
  obtain ⟨goes, whole⟩ := readPacket_goes readings policy part known
  rw [packetRead]
  cases read : readPacket policy readings r with
  | error stop =>
      obtain ⟨rc, r'⟩ := stop
      rw [read] at goes
      by_cases ok : rc = .success
      · obtain ⟨advances, part'⟩ := goes ok
        subst ok
        exact .waits advances part'
      · exact .fails ok
  | ok r₁ =>
      rw [read] at goes
      obtain ⟨state, bytes, unread, reaches⟩ := goes
      dsimp only
      cases answer : handlePacket policy number r₁.state r₁.inPacket with
      | mk rc rest =>
          rw [state] at answer
          exact .handled unread reaches (whole r₁ read) rfl answer

def received (command : UInt8) (body : List UInt8) : InPacket :=
  let groups := (Varint.encode 4 body.length).length
  ⟨command, groups, 128 ^ groups, body.length, 0, body⟩

theorem InPacket.Reaches.groups {p : InPacket} (begun : p.command ≠ 0) (unmeasured : p.remainingCount ≤ 0)
    {groups : List UInt8} (ended : Varint.Ended groups) :
    p.Reaches groups { p with
      remainingCount := groups.length - p.remainingCount
      remainingMult := p.remainingMult * 128 ^ groups.length
      remainingLength := p.remainingLength + Varint.value groups * p.remainingMult
      toProcess := p.remainingLength + Varint.value groups * p.remainingMult } := by
  induction groups generalizing p with
  | nil => exact absurd ended (by simp [Varint.Ended])
  | cons b groups ih =>
      have first := Reaches.byte (p := p) (by simp [whole, unmeasured]) b
      rw [feed, if_neg begun, if_pos unmeasured] at first
      rw [Varint.Ended] at ended
      split at ended
      · rename_i mark
        rw [if_pos mark] at first
        have below : (p.group b).remainingCount ≤ 0 := by
          show p.remainingCount - 1 ≤ 0
          omega
        have both := first.trans (ih (p := p.group b) begun below ended)
        have length : p.remainingLength + Varint.bits b * p.remainingMult +
            Varint.value groups * (p.remainingMult * 128) =
              p.remainingLength + Varint.value (b :: groups) * p.remainingMult := by
          rw [Varint.value]
          ring
        have mult : p.remainingMult * 128 * 128 ^ groups.length = p.remainingMult * 128 ^ (b :: groups).length := by
          rw [List.length_cons, pow_succ]
          ring
        have count : (groups.length : Int) - (p.remainingCount - 1) = (b :: groups).length - p.remainingCount := by
          rw [List.length_cons]
          omega
        simpa only [group, length, mult, count, List.singleton_append] using both
      · rename_i mark
        subst ended
        rw [if_neg mark] at first
        have value : Varint.value [b] = Varint.bits b := by simp [Varint.value]
        have count : ((1 : Nat) : Int) - p.remainingCount = -(p.remainingCount - 1) := by omega
        simp only [value, List.length_singleton, pow_one, count]
        exact first

def announced (command : UInt8) (length : Nat) : InPacket :=
  let groups := (Varint.encode 4 length).length
  ⟨command, groups, 128 ^ groups, length, length, []⟩

theorem header_reaches {command : UInt8} (known : command ≠ 0) {length : Nat} (short : length < 128 ^ 4) :
    InPacket.start.Reaches (command :: Varint.encode 4 length) (announced command length) := by
  have first : InPacket.start.Reaches [command] ⟨command, 0, 1, 0, 0, []⟩ := .byte rfl command
  have second := InPacket.Reaches.groups (p := ⟨command, 0, 1, 0, 0, []⟩) known (Int.le_refl 0)
    (Varint.encode_ended (k := 3) short)
  simp only [Varint.value_encode short, one_mul, mul_one, zero_add, sub_zero] at second
  exact first.trans second

/-- A packet on the wire is read as it is, and not before its last byte. -/
theorem frame_reaches {command : UInt8} (known : command ≠ 0) {body : List UInt8} (short : body.length < 128 ^ 4) :
    InPacket.start.Reaches (frame command body) (received command body) := by
  have header := header_reaches known short
  by_cases empty : body = []
  · subst empty
    exact header
  · have groups := List.length_pos_of_ne_nil (Varint.encode_ne_nil 3 body.length)
    have measured : 0 < (announced command body.length).remainingCount := Int.natCast_pos.mpr groups
    have rest := InPacket.Reaches.body (p := announced command body.length) known measured empty (Nat.le_refl _)
    have all : (announced command body.length).gets body = received command body := by
      simp [InPacket.gets, announced, received]
    rw [all] at rest
    exact header.trans rest

end SerialTiming.Mosquitto.Broker
