/- module: SerialTiming/Decoder/State
   digest: The decoder's globals, the MQTT sender, and what it means that globals show a board. -/

import SerialTiming.Scoreboard.Boards

set_option autoImplicit false
set_option relaxedAutoImplicit false

namespace SerialTiming.Decoder.State

open CLib.Objects CLib.Strings Line.Segments Scoreboard.Display Scoreboard.Clocks Scoreboard.Boards

/-- What lies outside the program: whether mosquitto_new gave a client, the results of the successive
calls of mosquitto_connect and mosquitto_publish, and the size of a pointer on the build. -/
structure Host where
  client : Bool
  connect : Nat → Int
  publish : Nat → Int
  pointerSize : Nat

def Host.reliable : Host := ⟨true, fun _ => 0, fun _ => 0, 8⟩

/-- One call of mqtt_send: the bytes malloc gave `remotechar`, the bytes memset wrote to it, the results
of the calls it got to, and what it returned. -/
structure MqttCall where
  message : List Char
  allocated : Nat
  cleared : Nat
  connected : Option Int
  published : Option Int
  returned : Int
  deriving DecidableEq, Repr

/-- The globals of mqttUtils.cpp that change, and how often the library was called. -/
structure Mqtt where
  errorState : Bool
  connects : Nat
  publishes : Nat
  calls : List MqttCall
  deriving DecidableEq, Repr

def Mqtt.start : Mqtt := ⟨false, 0, 0, []⟩

/-- mqtt_send on a message text: the result and the sender afterwards. -/
def Mqtt.send (host : Host) (message : List Char) (m : Mqtt) : Int × Mqtt :=
  let call : MqttCall := ⟨message, message.length, host.pointerSize, none, none, 0⟩
  if host.client then
    -- mosquitto_reconnect is called here after an error; nothing looks at its result
    let m := if m.errorState then { m with errorState := false } else m
    let rc := host.connect m.connects
    let m := { m with connects := m.connects + 1 }
    let call := { call with connected := some rc, returned := rc }
    if rc ≠ 0 then (rc, { m with errorState := true, calls := m.calls ++ [call] })
    else
      let rc := host.publish m.publishes
      let m := { m with publishes := m.publishes + 1 }
      let call := { call with published := some rc, returned := rc }
      if rc ≠ 0 then (rc, { m with errorState := true, calls := m.calls ++ [call] })
      else (0, { m with calls := m.calls ++ [call] })
  else (0, { m with calls := m.calls ++ [call] })

/-- The parser's globals in analyseData.cpp. -/
structure Input where
  coloradoStartDetected : UInt8
  buf : Vector UInt8 10
  inCount : UInt8
  coloradoControlChannel : UInt8
  coloradoControlBit : UInt8
  coloradoDigitNo : UInt8
  deriving DecidableEq, Repr

def Input.start : Input := ⟨0, Vector.replicate 10 0, 0, 0, 0, 0⟩

/-- All globals of the decoder, and the trace of what it did. -/
structure Globals where
  input : Input
  coloradoData : Vector Row 32
  coloradoHeatData : Vector CharBuf 10
  coloradoPlaceData : Vector CharBuf 10
  coloradoHeaderData : CharBuf
  storeRoundsData : CharBuf
  pRound : Int
  clock : RunningTime
  startStop : StartStop
  mqtt : Mqtt
  trace : List Event
  deriving DecidableEq, Repr

namespace Globals

def emit (e : Event) (g : Globals) : Globals := { g with trace := g.trace ++ [e] }

def setClock (clock : RunningTime) (g : Globals) : Globals := { g with clock := clock }

def setStartStop (startStop : StartStop) (g : Globals) : Globals := { g with startStop := startStop }

def setCells (coloradoData : Vector Row 32) (coloradoDigitNo : UInt8) (g : Globals) : Globals :=
  { g with coloradoData := coloradoData, input := { g.input with coloradoDigitNo := coloradoDigitNo } }

variable (g : Globals)

@[simp] theorem emit_coloradoData (e : Event) : (g.emit e).coloradoData = g.coloradoData := rfl

@[simp] theorem setCells_coloradoData (cells : Vector Row 32) (digit : UInt8) :
    (g.setCells cells digit).coloradoData = cells := rfl

@[simp] theorem setCells_trace (cells : Vector Row 32) (digit : UInt8) :
    (g.setCells cells digit).trace = g.trace := rfl

@[simp] theorem emit_input (e : Event) : (g.emit e).input = g.input := rfl

@[simp] theorem emit_trace (e : Event) : (g.emit e).trace = g.trace ++ [e] := rfl

@[simp] theorem setClock_clock (clock : RunningTime) : (g.setClock clock).clock = clock := rfl

@[simp] theorem setClock_input (clock : RunningTime) : (g.setClock clock).input = g.input := rfl

@[simp] theorem setClock_trace (clock : RunningTime) : (g.setClock clock).trace = g.trace := rfl

@[simp] theorem setStartStop_startStop (s : StartStop) : (g.setStartStop s).startStop = s := rfl

@[simp] theorem setStartStop_input (s : StartStop) : (g.setStartStop s).input = g.input := rfl

@[simp] theorem setStartStop_trace (s : StartStop) : (g.setStartStop s).trace = g.trace := rfl

end Globals

def displayLaneCount : Nat := 10

def mqttLongLength : Nat := 25

def Globals.handOver (host : Host) (message : List Char) (g : Globals) : Globals :=
  { g with mqtt := (g.mqtt.send host message).2, trace := g.trace ++ [.mqttSend message] }

def mqttSend (host : Host) (message : CharBuf) (g : Globals) : Checked (Int × Globals) := do
  let message ← text message
  .ok ((g.mqtt.send host message).1, g.handOver host message)

def sentText : Event → Option (List Char)
  | .mqttSend message => some message
  | _ => none

/-- A record buffer holds a recorded text, or the fill it got before the first one. -/
def Remembers (b : CharBuf) : Option (List Char) → Prop
  | none => b = List.replicate mqttLongLength (some '0')
  | some s => Holds b s ∧ b.length = mqttLongLength

theorem Remembers.length {b : CharBuf} {r : Option (List Char)} (remembers : Remembers b r) :
    b.length = mqttLongLength := by
  cases r with
  | none =>
      obtain rfl : b = _ := remembers
      exact List.length_replicate
  | some s => exact remembers.2

theorem Remembers.unique {b : CharBuf} {r r' : Option (List Char)} (first : Remembers b r)
    (second : Remembers b r') : r = r' := by
  have fill (s : List Char) : ¬ Holds (List.replicate mqttLongLength (some '0')) s := by
    intro holds
    have read := text_holds holds
    have outside : text (List.replicate mqttLongLength (some '0')) = .error .outside := by decide
    exact absurd (outside.symm.trans read) (by simp)
  cases r with
  | none =>
      obtain rfl : b = _ := first
      cases r' with
      | none => rfl
      | some t => exact absurd second.1 (fill t)
  | some s =>
      cases r' with
      | none =>
          obtain rfl : b = _ := second
          exact absurd first.1 (fill s)
      | some t =>
          have same := (text_holds first.1).symm.trans (text_holds second.1)
          rw [Except.ok.inj same]

/-- A text shorter than the buffer compares equal exactly to the recorded text. -/
theorem Remembers.strcmp {b c : CharBuf} {r : Option (List Char)} {s : List Char}
    (remembers : Remembers b r) (holds : Holds c s) (short : s.length < mqttLongLength) :
    ∃ v, strcmp c b = .ok v ∧ (v = 0 ↔ r = some s) := by
  cases r with
  | none =>
      obtain rfl : b = _ := remembers
      obtain ⟨v, value, nonzero⟩ := strcmp_fill (c := '0') holds (by decide) short
      exact ⟨v, value, by simpa using nonzero⟩
  | some t =>
      obtain ⟨v, value, meaning⟩ := strcmp_holds holds remembers.1
      exact ⟨v, value, by rw [meaning, Option.some.injEq, eq_comm]⟩

/-- The globals' memory holds what the board says. -/
structure Shows (g : Globals) (b : Board) : Prop where
  cells : g.coloradoData = b.cells
  heat : ∀ i, (h : i < 10) → Padded 9 g.coloradoHeatData[i] b.heat[i] ∧ g.coloradoHeatData[i].length = 18
  place : ∀ i, (h : i < 10) → Padded 3 g.coloradoPlaceData[i] b.place[i] ∧ g.coloradoPlaceData[i].length = 10
  header : Remembers g.coloradoHeaderData b.header
  rounds : Remembers g.storeRoundsData b.rounds
  pRound : g.pRound = b.pRound
  pRoundRange : -2 ^ 31 ≤ b.pRound ∧ b.pRound < 2 ^ 31
  clock : g.clock = b.clock
  startStop : g.startStop = b.startStop
  calls : g.mqtt.calls.map MqttCall.message = g.trace.filterMap sentText

/-- A part of the program that starts in `g` ends without a fault, leaves a board `b`, has appended
`es` to the trace and has not touched the parser. -/
def Does (result : Checked Globals) (g : Globals) (b : Board) (es : List Event) : Prop :=
  ∃ g', result = .ok g' ∧ Shows g' b ∧ g'.input = g.input ∧ g'.trace = g.trace ++ es

theorem Does.nothing {g : Globals} {b : Board} (shows : Shows g b) : Does (.ok g) g b [] :=
  ⟨g, rfl, shows, rfl, by simp⟩

theorem Does.setStartStop {g : Globals} {b : Board} (shows : Shows g b) (startStop : StartStop) :
    Does (.ok (g.setStartStop startStop)) g { b with startStop := startStop } [] :=
  ⟨_, rfl, { shows with startStop := rfl }, rfl, by simp [Globals.setStartStop]⟩

theorem Does.setClock {g : Globals} {b : Board} (shows : Shows g b) (clock : RunningTime) :
    Does (.ok (g.setClock clock)) g { b with clock := clock } [] :=
  ⟨_, rfl, { shows with clock := rfl }, rfl, by simp [Globals.setClock]⟩

theorem Does.bind {first : Checked Globals} {next : Globals → Checked Globals} {g : Globals}
    {b c : Board} {es fs : List Event} (does : Does first g b es)
    (rest : ∀ g', Shows g' b → Does (next g') g' c fs) : Does (first >>= next) g c (es ++ fs) := by
  obtain ⟨g', rfl, shows, input, trace⟩ := does
  obtain ⟨g'', result, shows', input', trace'⟩ := rest g' shows
  exact ⟨g'', result, shows', input'.trans input, by rw [trace', trace, List.append_assoc]⟩

theorem Shows.emit {g : Globals} {b : Board} {e : Event} (shows : Shows g b) (silent : sentText e = none) :
    Shows (g.emit e) b :=
  { shows with calls := by simpa [Globals.emit, silent] using shows.calls }

theorem Shows.setCells {g : Globals} {b : Board} (shows : Shows g b) (cells : Vector Row 32) (digit : UInt8) :
    Shows (g.setCells cells digit) { b with cells := cells } :=
  { shows with cells := rfl }

theorem Shows.setClock {g : Globals} {b : Board} (shows : Shows g b) (clock : RunningTime) :
    Shows (g.setClock clock) { b with clock := clock } :=
  { shows with clock := rfl }

theorem Shows.setStartStop {g : Globals} {b : Board} (shows : Shows g b) (startStop : StartStop) :
    Shows (g.setStartStop startStop) { b with startStop := startStop } :=
  { shows with startStop := rfl }

theorem Does.emit {result : Checked Globals} {g : Globals} {b : Board} {e : Event} {es : List Event}
    (does : Does result (g.emit e) b es) : Does result g b (e :: es) := by
  obtain ⟨g', result, shows, input, trace⟩ := does
  exact ⟨g', result, shows, input, by simpa [Globals.emit] using trace⟩

theorem Mqtt.send_calls (host : Host) (message : List Char) (m : Mqtt) :
    (m.send host message).2.calls.map MqttCall.message = m.calls.map MqttCall.message ++ [message] := by
  unfold Mqtt.send
  split
  · dsimp only
    split <;> split <;> (try split) <;> simp
  · simp

theorem mqttSend_holds (host : Host) {g : Globals} {message : CharBuf} {s : List Char}
    (holds : Holds message s) :
    mqttSend host message g = .ok ((g.mqtt.send host s).1, g.handOver host s) := by
  simp [mqttSend, text_holds holds]

/-- Whatever the broker answers, mqtt_send changes nothing but the sender's own globals. -/
theorem Shows.handOver {host : Host} {g : Globals} {b : Board} {s : List Char} (shows : Shows g b) :
    Shows (g.handOver host s) b :=
  { shows with calls := by simp [Globals.handOver, Mqtt.send_calls, shows.calls, sentText] }

theorem Does.send {host : Host} {g : Globals} {b c : Board} {message : CharBuf} {s : List Char}
    {es : List Event} {next : Int × Globals → Checked Globals} (shows : Shows g b) (holds : Holds message s)
    (rest : ∀ rc g', g' = g.handOver host s → Shows g' b → Does (next (rc, g')) g' c es) :
    Does (mqttSend host message g >>= next) g c (.mqttSend s :: es) := by
  rw [mqttSend_holds host holds, ok_bind]
  obtain ⟨g', result, shows', input, trace⟩ := rest (g.mqtt.send host s).1 _ rfl shows.handOver
  exact ⟨g', result, shows', input, by simpa [Globals.handOver] using trace⟩

end SerialTiming.Decoder.State
