/- module: SerialTiming/Program/Listener
   digest: listener.cpp: the loop that calls a receiver again and again, and the receivers as this loop sees them. -/

import SerialTiming.Receiver.PortNames
import SerialTiming.Receiver.Read
import SerialTiming.Receiver.ReadFTDI
import SerialTiming.Receiver.ReadGpio
import SerialTiming.Receiver.ReadWin

set_option autoImplicit false
set_option relaxedAutoImplicit false

namespace SerialTiming.Program.Listener

open CLib.Objects Decoder.State Decoder.ReadData Machines.Resources
open SerialTiming.Receiver SerialTiming.Receiver.Buffered SerialTiming.Receiver.Calls

/-- A receiver as startListen calls it. In a turn the system gives it some answers; it returns from there while
`*running` is not 0, or it does not: it still runs, it was stopped, or an assertion ended the program. Some turns stay
within its buffers and tables, some return and leave the source port open, and in some nothing is read from a port
that was not opened. -/
structure Station where
  Turn : Type
  Call : Type
  Port : Type
  serve : Host → Turn → Globals → Checked (Feed Call)
  returns : Turn → Bool
  Within : Turn → Prop
  leaves : Turn → Bool
  Grounded : Turn → Prop
  line : Call → Option Calls.Call
  ledger : Ledger Call Port
  source : Port → Bool

namespace Station

variable (S : Station)

/-- The loop of startListen over the turns that it comes to. What start and startftdi return is not looked at, and
once `*running` is 0 nothing sets it again. -/
def startListen (host : Host) : List S.Turn → Feed S.Call → Checked (Feed S.Call)
  | [], f => .ok f
  | t :: turns, f => do
      let session ← S.serve host t f.globals
      let f : Feed S.Call := { globals := session.globals, calls := f.calls ++ session.calls }
      if S.returns t then startListen host turns f else .ok f

def visited : List S.Turn → List S.Turn
  | [] => []
  | t :: turns => t :: if S.returns t then visited turns else []

def heard (calls : List S.Call) : List UInt8 := passed (calls.filterMap S.line)

end Station

inductive Port where
  | source | destination
  deriving DecidableEq, Repr

/-- The calls of read: it opens and closes ports around those that it makes in its loop. -/
inductive PortCall where
  | openPort (port : Port) (delivered : Bool)
  | closePort (port : Port)
  | line (call : Calls.Call)
  deriving DecidableEq, Repr

def PortCall.seen : PortCall → Option Calls.Call
  | .line call => some call
  | _ => none

def ports : Ledger PortCall Port where
  acquires
    | .openPort port delivered => if delivered then some port else none
    | _ => none
  needs
    | .closePort port => some port
    | _ => none
  releases
    | .closePort port => some port
    | _ => none

section Linux

/-- What open returned for the two ports, the buffer and the results of its loop, and whether `*running` ended it. -/
structure LinuxTurn where
  fd : Int
  fo : Int
  buf : Vector UInt8 Read.bufferLength
  results : List Read.Result
  stops : Bool
  deriving DecidableEq, Repr

namespace LinuxTurn

variable (forward : Bool) (t : LinuxTurn)

def begins : Bool := decide (0 ≤ t.fd) && (!forward || decide (0 ≤ t.fo))

def opens : List PortCall :=
  .openPort .source (decide (0 ≤ t.fd)) ::
    if 0 ≤ t.fd ∧ forward = true then [.openPort .destination (decide (0 ≤ t.fo))] else []

/-- Every read call leaves room for the terminator. -/
def Within : Prop := t.begins forward = true → ∀ result ∈ t.results, result.Fits

def leaves : Bool := decide (0 ≤ t.fd) && !t.begins forward

/-- read.cpp: no path of read closes a port. -/
def serve (host : Host) (t : LinuxTurn) (g : Globals) : Checked (Feed PortCall) := do
  let r ← (Read.Reader.opened t.buf g).read host t.fd t.fo forward t.results
  .ok { globals := r.feed.globals, calls := t.opens forward ++ r.feed.calls.map .line }

end LinuxTurn

def linux (forward : Bool) : Station where
  Turn := LinuxTurn
  Call := PortCall
  Port := Port
  serve := LinuxTurn.serve forward
  returns t := !t.begins forward
  Within := LinuxTurn.Within forward
  leaves := LinuxTurn.leaves forward
  Grounded _ := True
  line := PortCall.seen
  ledger := ports
  source port := port == .source

end Linux

section Raspberry

structure RaspberryTurn where
  gpioInitialise : Int
  serOpen : Int
  text : Vector UInt8 ReadGpio.textLength
  polls : List ReadGpio.Poll
  stops : Bool

namespace RaspberryTurn

variable (t : RaspberryTurn)

def begins : Bool := decide (0 ≤ t.gpioInitialise) && decide (0 ≤ t.serOpen)

def fails : Bool := t.begins && (ReadGpio.reached t.polls).any fun p => decide p.Fails

def opens : List PortCall := if 0 ≤ t.gpioInitialise then [.openPort .source (decide (0 ≤ t.serOpen))] else []

/-- What serRead stores has room in the buffer, and so does what was available. -/
def Within : Prop :=
  t.begins = true → ∀ p ∈ ReadGpio.reached t.polls, p.Fits

def closes : List PortCall := if (t.begins && !t.fails && t.stops) = true then [.closePort .source] else []

/-- readGPIO.cpp -/
def serve (host : Host) (t : RaspberryTurn) (g : Globals) : Checked (Feed PortCall) := do
  let r ← (ReadGpio.Reader.opened t.text g).read host t.gpioInitialise t.serOpen t.polls
  .ok { globals := r.feed.globals, calls := t.opens ++ (r.feed.calls.map .line ++ t.closes) }

end RaspberryTurn

def raspberry : Station where
  Turn := RaspberryTurn
  Call := PortCall
  Port := Port
  serve := RaspberryTurn.serve
  returns t := !t.begins || t.fails
  Within := RaspberryTurn.Within
  leaves := RaspberryTurn.fails
  Grounded _ := True
  line := PortCall.seen
  ledger := ports
  source port := port == .source

end Raspberry

section Windows

structure DestSetUp where
  createFile : Bool
  getCommState : Bool
  setCommState : Bool
  getCommStateAgain : Bool
  setCommTimeouts : Bool
  setCommMask : Bool
  writeFile : Bool
  deriving DecidableEq, Repr

/-- setDestSerialPort and what it returns: where a call fails it leaves the port open. -/
def setDestSerialPort (s : DestSetUp) : List PortCall × Nat :=
  ([.openPort .destination s.createFile],
    if s.createFile && s.getCommState && s.setCommState && s.getCommStateAgain && s.setCommTimeouts && s.setCommMask &&
      s.writeFile then 0 else 1)

structure WindowsTurn where
  setUp : PortNames.SetUp
  destination : DestSetUp
  readData : UInt8
  waits : List ReadWin.Wait
  results : List (Option UInt8)
  deriving DecidableEq, Repr

namespace WindowsTurn

variable (t : WindowsTurn)

def stops : Bool := (ReadWin.reached t.waits).any fun w => !w.running

def refused : Bool :=
  !(t.setUp.createFile && t.setUp.getCommState && t.setUp.setCommState && t.setUp.getCommStateAgain &&
    t.setUp.setCommTimeouts && t.setUp.setCommMask)

/-- The names tell ports of the table, the second one if it is needed. -/
def Within (ndebug : Bool) (portname dstname : List Char) (forward : Bool) (t : WindowsTurn) : Prop :=
  (∃ n, PortNames.Names portname n) ∧
    (forward = true → t.setUp.Succeeds ndebug → ∃ n, PortNames.Names dstname n)

def listens (forward : Bool) (host : Host) (t : WindowsTurn) (g : Globals) : Checked (Feed PortCall) := do
  let r ← (ReadWin.Reader.opened t.readData g).read host forward t.waits t.results
  let sends := if forward then (setDestSerialPort t.destination).1 else []
  let closes := if t.stops then [.closePort .source] else []
  .ok { globals := r.globals, calls := .openPort .source true :: (sends ++ (r.calls.map .line ++ closes)) }

/-- readwin.cpp: where the set-up of the source port fails it stays open. -/
def serve (ndebug : Bool) (portname dstname : List Char) (forward : Bool) (host : Host) (t : WindowsTurn)
    (g : Globals) : Checked (Feed PortCall) := do
  let names ← PortNames.read ndebug portname dstname forward t.setUp
  if names.exit = .loops then t.listens forward host g
  else .ok { globals := g, calls := [.openPort .source t.setUp.createFile] }

end WindowsTurn

def windows (ndebug : Bool) (portname dstname : List Char) (forward : Bool) : Station where
  Turn := WindowsTurn
  Call := PortCall
  Port := Port
  serve := WindowsTurn.serve ndebug portname dstname forward
  returns := WindowsTurn.refused
  Within := WindowsTurn.Within ndebug portname dstname forward
  leaves t := t.setUp.createFile && t.refused
  Grounded _ := True
  line := PortCall.seen
  ledger := ports
  source port := port == .source

end Windows

section Ftdi

structure FtdiTurn where
  numFtdisvs : Nat
  openings : Nat → ReadFTDI.Opening
  running : ReadFTDI.Running
  pcBufRead : Vector UInt8 ReadFTDI.bufSize

namespace FtdiTurn

/-- readFTDI.cpp -/
def serve (privileged outputdata : Bool) (host : Host) (t : FtdiTurn) (g : Globals) :
    Checked (Feed ReadFTDI.FtCall) := do
  let (s, _) ← (ReadFTDI.Ftdi.started t.pcBufRead g).readftdi host t.numFtdisvs t.openings privileged outputdata
    t.running
  .ok s.feed

def returns (privileged : Bool) (t : FtdiTurn) : Bool :=
  !privileged || t.running.rounds.any fun r => decide (¬ r.Succeeds t.numFtdisvs)

/-- There is a device to read from, and a second one to close where the loop comes to its end. -/
def Within (privileged : Bool) (t : FtdiTurn) : Prop :=
  (¬ (t.running.granted privileged).rounds = [] → 0 < t.numFtdisvs) ∧
    ((t.running.granted privileged).stops = true →
      (∀ r ∈ (t.running.granted privileged).rounds, r.Succeeds t.numFtdisvs) → 1 < t.numFtdisvs)

def opens (t : FtdiTurn) : Bool := decide (0 < t.numFtdisvs) && (t.openings 0).ftOpen

def Grounded (t : FtdiTurn) : Prop := t.opens = false → ∀ r ∈ t.running.rounds, r.ftRead = none

end FtdiTurn

def ftdi (privileged outputdata : Bool) : Station where
  Turn := FtdiTurn
  Call := ReadFTDI.FtCall
  Port := Nat
  serve := FtdiTurn.serve privileged outputdata
  returns := FtdiTurn.returns privileged
  Within := FtdiTurn.Within privileged
  leaves t := t.opens && t.returns privileged
  Grounded := FtdiTurn.Grounded
  line := ReadFTDI.FtCall.line
  ledger := ReadFTDI.handles
  source device := device == 0

end Ftdi

/-- The builds: each has its own read. On Windows the build decides about assertions too. -/
inductive Build where
  | linux
  | raspberry
  | windows (ndebug : Bool)
  deriving DecidableEq, Repr

def Build.isWindows : Build → Bool
  | .windows _ => true
  | _ => false

structure Settings where
  portname : List Char
  dstname : List Char
  sendmode : Bool
  ftdidevice : Bool
  outputdata : Bool
  deriving DecidableEq, Repr

/-- The receiver that startListen calls. Windows has no root privileges to ask for. -/
def station (build : Build) (privileged : Bool) (s : Settings) : Station :=
  if s.ftdidevice then ftdi (build.isWindows || privileged) s.outputdata
  else match build with
    | .linux => linux s.sendmode
    | .raspberry => raspberry
    | .windows ndebug => windows ndebug s.portname s.dstname s.sendmode

def serial (build : Build) (privileged : Bool) (s : Settings) (host : Host)
    (turns : List (station build privileged s).Turn) : Checked (Feed (station build privileged s).Call) := do
  let g ← dataInit host
  (station build privileged s).startListen host turns (Feed.started g)

end SerialTiming.Program.Listener
