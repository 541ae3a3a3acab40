/- module: SerialTiming/Mosquitto/Packets
   digest: How the MQTT library puts its packets together: CONNECT and PUBLISH of protocol version 3.1.1. -/

import SerialTiming.CLib.Objects
import SerialTiming.Wire.Varint

set_option autoImplicit false
set_option relaxedAutoImplicit false

namespace SerialTiming.Mosquitto.Packets

open CLib.Objects Wire

/-- The results of mosq_err_t that the modelled functions return. -/
inductive MosqErr where
  | success
  | nomem
  | protocol
  | inval
  | noConn
  | connLost
  | payloadSize
  | aclDenied
  | errno
  | eai
  | malformedUtf8
  | oversizePacket
  deriving DecidableEq, Repr

def MosqErr.code : MosqErr → Int
  | .success => 0
  | .nomem => 1
  | .protocol => 2
  | .inval => 3
  | .noConn => 4
  | .connLost => 7
  | .payloadSize => 9
  | .aclDenied => 12
  | .errno => 14
  | .eai => 15
  | .malformedUtf8 => 18
  | .oversizePacket => 25

@[simp] theorem MosqErr.code_success : MosqErr.success.code = 0 := rfl

theorem MosqErr.code_zero (rc : MosqErr) : rc.code = 0 ↔ rc = .success := by
  cases rc <;> decide

def cmdConnect : UInt8 := 0x10

def cmdPublish : UInt8 := 0x30

def mqttMaxPayload : Nat := 268435455

def ascii (s : String) : List UInt8 := s.toList.map fun c => UInt8.ofNat c.toNat

/-- The length and the bits of the code point that the first byte of a UTF-8 sequence tells. -/
def leadByte (b : UInt8) : Option (Nat × Nat) :=
  if b = 0 then none
  else if b ≤ 0x7F then some (1, b.toNat)
  else if b &&& 0xE0 = 0xC0 then if b = 0xC0 ∨ b = 0xC1 then none else some (2, (b &&& 0x1F).toNat)
  else if b &&& 0xF0 = 0xE0 then some (3, (b &&& 0x0F).toNat)
  else if b &&& 0xF8 = 0xF0 then if b > 0xF4 then none else some (4, (b &&& 0x07).toNat)
  else none

/-- The code point after so many continuation bytes, and the bytes behind them. The terminator is none. -/
def continuation : Nat → Nat → List UInt8 → Option (Nat × List UInt8)
  | 0, codepoint, rest => some (codepoint, rest)
  | _ + 1, _, [] => none
  | n + 1, codepoint, b :: rest =>
      if b &&& 0xC0 ≠ 0x80 then none else continuation n (codepoint * 64 + (b &&& 0x3F).toNat) rest

def allowedCodepoint (codelen codepoint : Nat) : Bool :=
  !(0xD800 ≤ codepoint && codepoint ≤ 0xDFFF) &&
  !(codelen = 3 && codepoint < 0x0800) &&
  !(codelen = 4 && (codepoint < 0x10000 || codepoint > 0x10FFFF)) &&
  !(0xFDD0 ≤ codepoint && codepoint ≤ 0xFDEF) &&
  !(codepoint % 0x10000 = 0xFFFE || codepoint % 0x10000 = 0xFFFF) &&
  !(codepoint ≤ 0x001F || (0x007F ≤ codepoint && codepoint ≤ 0x009F))

/-- The sequences of a string; each takes at least one byte of it. -/
def validSequences : Nat → List UInt8 → Bool
  | _, [] => true
  | 0, _ :: _ => false
  | fuel + 1, b :: rest =>
      match leadByte b with
      | none => false
      | some (codelen, codepoint) =>
          match continuation (codelen - 1) codepoint rest with
          | none => false
          | some (codepoint, rest) => allowedCodepoint codelen codepoint && validSequences fuel rest

def mosquittoValidateUtf8 (str : List UInt8) : MosqErr :=
  if str.length > 65536 then .inval
  else if validSequences str.length str then .success
  else .malformedUtf8

theorem leadByte_printable {b : UInt8} (low : 0x20 ≤ b) (high : b ≤ 0x7E) :
    leadByte b = some (1, b.toNat) ∧ allowedCodepoint 1 b.toNat = true := by
  have table : ∀ n : Fin 256, 0x20 ≤ UInt8.ofNat n → UInt8.ofNat n ≤ 0x7E →
      leadByte (UInt8.ofNat n) = some (1, n.val) ∧ allowedCodepoint 1 n.val = true := by decide +kernel
  have row := table ⟨b.toNat, b.toNat_lt⟩
  rw [UInt8.ofNat_toNat] at row
  exact row low high

theorem validSequences_printable {str : List UInt8} (printable : ∀ b ∈ str, 0x20 ≤ b ∧ b ≤ 0x7E) :
    validSequences str.length str = true := by
  induction str with
  | nil => rfl
  | cons b str ih =>
      have first := printable b List.mem_cons_self
      obtain ⟨lead, allowed⟩ := leadByte_printable first.1 first.2
      have rest := ih fun c among => printable c (List.mem_cons_of_mem b among)
      simp only [List.length_cons, validSequences, lead, Nat.sub_self, continuation, allowed, Bool.true_and, rest]

/-- No wildcards, and on the broker's side no more than so many levels. -/
def mosquittoPubTopicCheck (levels : Option Nat) (str : List UInt8) : MosqErr :=
  let str := str.takeWhile (· ≠ 0)
  if 0x2B ∈ str ∨ 0x23 ∈ str then .inval
  else if str.length > 65535 then .inval
  else if levels.any (· < str.count 0x2F) then .inval
  else .success

/-- struct mosquitto__packet while it is put together: `payload` holds the bytes written so far, and `pos` stands
behind them. -/
structure Packet where
  command : UInt8
  mid : UInt16
  packetLength : Nat
  payload : List UInt8
  deriving DecidableEq, Repr

/-- packet__alloc: the command and the length go first. -/
def packetAlloc (memory : Bool) (command : UInt8) (mid : UInt16) (remainingLength : Nat) : Except MosqErr Packet :=
  let remainingBytes := Varint.encode 5 remainingLength
  if remainingBytes.length = 5 then .error .payloadSize
  else if memory then
    .ok ⟨command, mid, remainingLength + 1 + remainingBytes.length, command :: remainingBytes⟩
  else .error .nomem

namespace Packet

def writeByte (byte : UInt8) (p : Packet) : Checked Packet :=
  if p.payload.length + 1 ≤ p.packetLength then .ok { p with payload := p.payload ++ [byte] } else .error .outside

def writeBytes (bytes : List UInt8) (p : Packet) : Checked Packet :=
  if p.payload.length + bytes.length ≤ p.packetLength then .ok { p with payload := p.payload ++ bytes }
  else .error .outside

def writeUint16 (word : UInt16) (p : Packet) : Checked Packet := do
  let p ← p.writeByte ((word &&& 0xFF00) >>> 8).toUInt8
  p.writeByte (word &&& 0x00FF).toUInt8

/-- The length is passed as a uint16_t. -/
def writeString (str : List UInt8) (length : UInt16) (p : Packet) : Checked Packet := do
  let p ← p.writeUint16 length
  p.writeBytes (str.take length.toNat)

end Packet

def wordBytes (word : UInt16) : List UInt8 := [((word &&& 0xFF00) >>> 8).toUInt8, (word &&& 0x00FF).toUInt8]

def stringBytes (str : List UInt8) : List UInt8 := wordBytes (UInt16.ofNat str.length) ++ str

def protocolName : List UInt8 := ascii "MQTT"

def mqttProtocolV311 : UInt8 := 4

/-- What send__connect writes behind the length: no will, no user name and no password were ever set. -/
def fillConnect (keepalive : UInt16) (cleanSession : Bool) (clientid : List UInt8) (p : Packet) : Checked Packet := do
  let p ← p.writeString protocolName (UInt16.ofNat protocolName.length)
  let p ← p.writeByte mqttProtocolV311
  let p ← p.writeByte (if cleanSession then 0x02 else 0x00)
  let p ← p.writeUint16 keepalive
  p.writeString clientid (UInt16.ofNat clientid.length)

def connectLength (clientid : List UInt8) : Nat := 10 + (2 + clientid.length)

/-- What send__real_publish writes behind the length. -/
def fillPublish (topic : List UInt8) (qos : UInt8) (mid : UInt16) (payload : List UInt8) (p : Packet) :
    Checked Packet := do
  let p ← p.writeString topic (UInt16.ofNat topic.length)
  let p ← if qos > 0 then p.writeUint16 mid else .ok p
  if payload.length > 0 then p.writeBytes payload else .ok p

def publishLength (topic : List UInt8) (qos : UInt8) (payload : List UInt8) : Nat :=
  2 + topic.length + payload.length + if qos > 0 then 2 else 0

def publishCommand (dup : Bool) (qos : UInt8) (retain : Bool) : UInt8 :=
  let dupBit : UInt8 := if dup then 0x08 else 0x00
  let retainBit : UInt8 := if retain then 0x01 else 0x00
  cmdPublish ||| dupBit ||| (qos <<< 1) ||| retainBit

/-- A packet on the wire: the command, the length of the body and the body. -/
def frame (command : UInt8) (body : List UInt8) : List UInt8 := command :: Varint.encode 4 body.length ++ body

def connectBody (keepalive : UInt16) (cleanSession : Bool) (clientid : List UInt8) : List UInt8 :=
  stringBytes protocolName ++ [mqttProtocolV311, if cleanSession then 0x02 else 0x00] ++ wordBytes keepalive ++
    stringBytes clientid

def publishBody (topic payload : List UInt8) : List UInt8 := stringBytes topic ++ payload

/-- A writer appends these bytes wherever there is room for them. -/
def Appends (write : Packet → Checked Packet) (bytes : List UInt8) : Prop :=
  ∀ p : Packet, p.payload.length + bytes.length ≤ p.packetLength →
    write p = .ok { p with payload := p.payload ++ bytes }

section Writers
variable {f g : Packet → Checked Packet} {xs ys : List UInt8}

theorem Appends.next (first : Appends f xs) (second : Appends g ys) : Appends (fun p => f p >>= g) (xs ++ ys) := by
  intro p room
  rw [List.length_append] at room
  have behind : (p.payload ++ xs).length + ys.length ≤ p.packetLength := by
    rw [List.length_append]
    omega
  show f p >>= g = _
  rw [first p (by omega), ok_bind, second _ behind, List.append_assoc]

theorem writeByte_appends (byte : UInt8) : Appends (Packet.writeByte byte) [byte] := fun _ room => if_pos room

theorem writeBytes_appends (bytes : List UInt8) : Appends (Packet.writeBytes bytes) bytes := fun _ room => if_pos room

theorem writeUint16_appends (word : UInt16) : Appends (Packet.writeUint16 word) (wordBytes word) :=
  (writeByte_appends _).next (writeByte_appends _)

theorem writeString_appends {str : List UInt8} (short : str.length < 65536) :
    Appends (Packet.writeString str (UInt16.ofNat str.length)) (stringBytes str) := by
  have length : (UInt16.ofNat str.length).toNat = str.length := UInt16.toNat_ofNat_of_lt' short
  have bytes : Appends (Packet.writeBytes (str.take (UInt16.ofNat str.length).toNat)) str := by
    rw [length, List.take_length]
    exact writeBytes_appends str
  exact (writeUint16_appends _).next bytes

theorem fillConnect_appends (keepalive : UInt16) (cleanSession : Bool) {clientid : List UInt8}
    (short : clientid.length < 65536) :
    Appends (fillConnect keepalive cleanSession clientid) (connectBody keepalive cleanSession clientid) := by
  have name : Appends (Packet.writeString protocolName (UInt16.ofNat protocolName.length)) (stringBytes protocolName) :=
    writeString_appends (by decide)
  have parts : connectBody keepalive cleanSession clientid =
      stringBytes protocolName ++ ([mqttProtocolV311] ++ ([if cleanSession then 0x02 else 0x00] ++
        (wordBytes keepalive ++ stringBytes clientid))) := by
    simp only [connectBody, List.append_assoc, List.cons_append, List.nil_append]
  rw [parts]
  exact name.next ((writeByte_appends _).next ((writeByte_appends _).next ((writeUint16_appends _).next
    (writeString_appends short))))

theorem fillPublish_appends {topic : List UInt8} (mid : UInt16) (payload : List UInt8) (short : topic.length < 65536) :
    Appends (fillPublish topic 0 mid payload) (publishBody topic payload) := by
  refine (writeString_appends short).next ?_
  intro p room
  by_cases some : payload.length > 0
  · simp only [gt_iff_lt, UInt8.lt_irrefl, ↓reduceIte, ok_bind, some]
    exact writeBytes_appends payload p room
  · have none : payload = [] := List.eq_nil_of_length_eq_zero (by omega)
    simp [none]

end Writers

theorem connectBody_length (keepalive : UInt16) (cleanSession : Bool) (clientid : List UInt8) :
    (connectBody keepalive cleanSession clientid).length = connectLength clientid := by
  have name : protocolName.length = 4 := by decide
  simp only [connectLength, connectBody, stringBytes, wordBytes, List.length_append, List.length_cons,
    List.length_nil, name]

theorem publishBody_length (topic payload : List UInt8) :
    (publishBody topic payload).length = publishLength topic 0 payload := by
  simp only [publishLength, publishBody, stringBytes, wordBytes, List.length_append, List.length_cons,
    List.length_nil, gt_iff_lt, UInt8.lt_irrefl, ↓reduceIte, Nat.add_zero]

theorem packetAlloc_ok {memory : Bool} {command : UInt8} {mid : UInt16} {remainingLength : Nat} {p : Packet}
    (made : packetAlloc memory command mid remainingLength = .ok p) :
    p.payload = command :: Varint.encode 4 remainingLength ∧ p.packetLength = p.payload.length + remainingLength ∧
      remainingLength < 128 ^ 4 ∧ memory = true := by
  have most : (Varint.encode 5 remainingLength).length ≤ 5 := Varint.encode_length_le 5 remainingLength
  have enough : (Varint.encode 5 remainingLength).length ≤ 4 ↔ remainingLength < 128 ^ 4 :=
    Varint.encode_short_iff (k := 3)
  rw [packetAlloc] at made
  split at made
  · cases made
  · rename_i short
    have below : remainingLength < 128 ^ 4 := enough.mp (by omega)
    have bytes : Varint.encode 5 remainingLength = Varint.encode 4 remainingLength := Varint.encode_more (k := 3) below
    rw [bytes] at made
    split at made
    · rename_i memory
      obtain rfl := Except.ok.inj made
      exact ⟨rfl, by simp only [List.length_cons]; omega, below, memory⟩
    · cases made

theorem packetAlloc_error {memory : Bool} {command : UInt8} {mid : UInt16} {remainingLength : Nat} {e : MosqErr}
    (failed : packetAlloc memory command mid remainingLength = .error e) :
    (e = .payloadSize ∧ 128 ^ 4 ≤ remainingLength) ∨ (e = .nomem ∧ memory = false) := by
  have most : (Varint.encode 5 remainingLength).length ≤ 5 := Varint.encode_length_le 5 remainingLength
  have enough : (Varint.encode 5 remainingLength).length ≤ 4 ↔ remainingLength < 128 ^ 4 :=
    Varint.encode_short_iff (k := 3)
  rw [packetAlloc] at failed
  split at failed
  · exact .inl ⟨(Except.error.inj failed).symm, by omega⟩
  · split at failed
    · cases failed
    · rename_i memory
      exact .inr ⟨(Except.error.inj failed).symm, by simpa using memory⟩

/-- A packet that was allocated for a body and got it holds the body's frame to its last byte. -/
theorem Appends.frame {write : Packet → Checked Packet} {body : List UInt8} (appends : Appends write body)
    {memory : Bool} {command : UInt8} {mid : UInt16} {p : Packet}
    (made : packetAlloc memory command mid body.length = .ok p) :
    ∃ q, write p = .ok q ∧ q.payload = frame command body ∧ q.payload.length = q.packetLength := by
  obtain ⟨payload, length, -, -⟩ := packetAlloc_ok made
  refine ⟨_, appends p (by omega), ?_, ?_⟩
  · rw [payload, Packets.frame, List.cons_append]
  · show (p.payload ++ body).length = p.packetLength
    rw [List.length_append]
    omega

end SerialTiming.Mosquitto.Packets
