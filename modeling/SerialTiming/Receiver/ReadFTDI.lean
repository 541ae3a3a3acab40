/- module: SerialTiming/Receiver/ReadFTDI
   digest: readFTDI.cpp: the devices it opens, the loop that reads one of them and repeats to another, its exits. -/

import SerialTiming.Machines.Resources
import SerialTiming.Receiver.Buffered
import SerialTiming.Receiver.Calls

set_option autoImplicit false
set_option relaxedAutoImplicit false

namespace SerialTiming.Receiver.ReadFTDI

open CLib.Objects CLib.Buffers Decoder.State Decoder.ReadData Machines.Resources Buffered

def bufSize : Nat := 0x10

inductive SetUp where
  | resetDevice | setBaudRate | setDataCharacteristics | setFlowControl | clrDtr | clrRts | setBreakOff | setTimeouts
  deriving DecidableEq, Repr

/-- The calls of readftdi. A device stands for the handle in its cell of `devInfo`. -/
inductive FtCall where
  | ftOpen (device : Nat) (delivered : Bool)
  | ftSetUp (device : Nat) (call : SetUp)
  | ftRead (device : Nat) (bytes : List UInt8)
  | ftWrite (device : Nat) (bytes : List UInt8)
  | ftClose (device : Nat)
  | fprintf (text : List Char)
  | putReadData (byte : UInt8)
  deriving DecidableEq, Repr

/-- The handles: FT_Open delivers one, FT_Read, FT_Write and FT_Close are passed one. -/
def handles : Ledger FtCall Nat where
  acquires
    | .ftOpen device delivered => if delivered then some device else none
    | _ => none
  needs
    | .ftRead device _ => some device
    | .ftWrite device _ => some device
    | .ftClose device => some device
    | _ => none
  releases
    | .ftClose device => some device
    | _ => none

def FtCall.line : FtCall → Option Calls.Call
  | .ftRead 0 bytes => some (.read bytes)
  | .ftWrite 1 bytes => some (.write bytes)
  | .putReadData byte => some (.putReadData byte)
  | _ => none

def FtCall.text : FtCall → Option (List Char)
  | .fprintf text => some text
  | _ => none

def logged (calls : List FtCall) : List Char := (calls.filterMap FtCall.text).flatten

def hex (byte : UInt8) : List Char :=
  [Nat.digitChar (byte.toNat / 16), Nat.digitChar (byte.toNat % 16)].map Char.toUpper

/-- Whether the calls that open and prepare a device return FT_OK. -/
structure Opening where
  ftOpen : Bool
  ftResetDevice : Bool
  ftSetBaudRate : Bool
  ftSetDataCharacteristics : Bool
  ftSetFlowControl : Bool
  deriving DecidableEq, Repr

/-- openFtdiHanlde and what it returns. -/
def openFtdiHanlde (numberDevice : Nat) (o : Opening) (f : Feed FtCall) : Feed FtCall × Nat :=
  let f := f.log (.ftOpen numberDevice o.ftOpen)
  if o.ftOpen = false then (f, 1)
  else
    let f := f.log (.ftSetUp numberDevice .resetDevice)
    if o.ftResetDevice = false then (f, 1)
    else
      let f := f.log (.ftSetUp numberDevice .setBaudRate)
      if o.ftSetBaudRate = false then (f, 1)
      else
        let f := f.log (.ftSetUp numberDevice .setDataCharacteristics)
        if o.ftSetDataCharacteristics = false then (f, 1)
        else
          let f := f.log (.ftSetUp numberDevice .setFlowControl)
          if o.ftSetFlowControl = false then (f, 1)
          else
            let f := f.log (.ftSetUp numberDevice .clrDtr)
            let f := f.log (.ftSetUp numberDevice .clrRts)
            let f := f.log (.ftSetUp numberDevice .setBreakOff)
            (f.log (.ftSetUp numberDevice .setTimeouts), 0)

def openDevices (numFtdisvs : Nat) (openings : Nat → Opening) (f : Feed FtCall) : Feed FtCall :=
  (List.range numFtdisvs).foldl (fun f i => (openFtdiHanlde i (openings i) f).1) f

/-- One round as the library answers it: what FT_Read stores, or nothing if it fails, and whether FT_Write
returns FT_OK. -/
structure Round where
  ftRead : Option (Chunk bufSize)
  ftWrite : Bool
  deriving DecidableEq, Repr

def Round.bytes (r : Round) : List UInt8 := (r.ftRead.map Chunk.bytes).getD []

/-- The rounds that `*running` lets the loop begin, and whether it ends the loop after them. -/
structure Running where
  rounds : List Round
  stops : Bool
  deriving DecidableEq, Repr

/-- Without root privileges `running` is redirected to a `keepRunning` that is 0. -/
def Running.granted (privileged : Bool) (running : Running) : Running :=
  if privileged then running else ⟨[], true⟩

structure Ftdi where
  pcBufRead : Vector UInt8 bufSize
  feed : Feed FtCall
  deriving DecidableEq, Repr

def sendmode (numFtdisvs : Nat) : Bool := decide (1 < numFtdisvs)

def devInfo (numFtdisvs i : Nat) : Checked Nat := if i < numFtdisvs then .ok i else .error .outside

def dumpToFile (buffer : Vector UInt8 bufSize) (elements : Nat) (f : Feed FtCall) : Checked (Feed FtCall) :=
  forCount elements (fun j f => do
    let byte ← load buffer j
    .ok (f.log (.fprintf (hex byte)))) 0 f

namespace Ftdi

def started (pcBufRead : Vector UInt8 bufSize) (globals : Globals) : Ftdi := ⟨pcBufRead, Feed.started globals⟩

def ftRead (numFtdisvs : Nat) (bytes : List UInt8) (s : Ftdi) : Checked Ftdi := do
  let device ← devInfo numFtdisvs 0
  let buffer ← storeAll bytes 0 s.pcBufRead
  .ok { pcBufRead := buffer, feed := s.feed.log (.ftRead device bytes) }

/-- FT_Write of BUF_SIZE bytes, whatever FT_Read stored. -/
def ftWrite (numFtdisvs : Nat) (s : Ftdi) : Checked Ftdi := do
  let device ← devInfo numFtdisvs 1
  let bytes ← loadAll s.pcBufRead bufSize
  .ok { s with feed := s.feed.log (.ftWrite device bytes) }

def ftClose (numFtdisvs i : Nat) (s : Ftdi) : Checked Ftdi := do
  let device ← devInfo numFtdisvs i
  .ok { s with feed := s.feed.log (.ftClose device) }

/-- The log to rawdata.txt, if it was asked for. -/
def logRaw (outputdata : Bool) (dwBytesRead : Nat) (s : Ftdi) : Checked Ftdi := do
  let feed ← if outputdata then dumpToFile s.pcBufRead dwBytesRead s.feed else .ok s.feed
  .ok { s with feed := feed }

/-- The repeater writes only with a second device. -/
def send (numFtdisvs : Nat) (s : Ftdi) : Checked Ftdi := if sendmode numFtdisvs then s.ftWrite numFtdisvs else .ok s

def dumpBuffer (host : Host) (elements : Nat) (s : Ftdi) : Checked Ftdi := do
  let feed ← s.feed.dump host .putReadData s.pcBufRead elements
  .ok { s with feed := feed }

/-- One round of the loop, and what readftdi returns if it returns there. -/
def round (host : Host) (numFtdisvs : Nat) (outputdata : Bool) (r : Round) (s : Ftdi) :
    Checked (Ftdi × Option Nat) := do
  let s ← s.ftRead numFtdisvs r.bytes
  if r.ftRead = none then .ok (s, some 1)
  else do
    let s ← s.logRaw outputdata r.bytes.length
    let s ← s.send numFtdisvs
    if sendmode numFtdisvs = true ∧ r.ftWrite = false then .ok (s, some 1)
    else do
      let s ← s.dumpBuffer host r.bytes.length
      .ok (s, none)

def loop (host : Host) (numFtdisvs : Nat) (outputdata : Bool) : List Round → Ftdi → Checked (Ftdi × Option Nat)
  | [], s => .ok (s, none)
  | r :: rounds, s => do
      let (s, returned) ← s.round host numFtdisvs outputdata r
      if returned = none then loop host numFtdisvs outputdata rounds s else .ok (s, returned)

/-- The end of readftdi behind its loop. -/
def finish (numFtdisvs : Nat) (s : Ftdi) : Checked (Ftdi × Option Nat) := do
  let s ← s.ftClose numFtdisvs 0
  let s ← s.ftClose numFtdisvs 1
  .ok (s, some 0)

/-- readftdi and what it returned, if it has returned. -/
def readftdi (host : Host) (numFtdisvs : Nat) (openings : Nat → Opening) (privileged outputdata : Bool)
    (running : Running) (s : Ftdi) : Checked (Ftdi × Option Nat) := do
  let s := { s with feed := openDevices numFtdisvs openings s.feed }
  let running := running.granted privileged
  let (s, returned) ← s.loop host numFtdisvs outputdata running.rounds
  if returned = none ∧ running.stops = true then s.finish numFtdisvs else .ok (s, returned)

end Ftdi

def Round.Succeeds (numFtdisvs : Nat) (r : Round) : Prop :=
  ¬ r.ftRead = none ∧ (1 < numFtdisvs → r.ftWrite = true)

instance (numFtdisvs : Nat) (r : Round) : Decidable (r.Succeeds numFtdisvs) := by
  unfold Round.Succeeds
  infer_instance

structure Fills (r : Round) (buffer : List UInt8) : Prop where
  length : buffer.length = bufSize
  front : buffer.take r.bytes.length = r.bytes

def repeatCalls (numFtdisvs : Nat) (outputdata : Bool) (r : Round) (buffer : List UInt8) : List FtCall :=
  [.ftRead 0 r.bytes] ++ ((if outputdata then r.bytes.map fun byte => .fprintf (hex byte) else []) ++
    if sendmode numFtdisvs then [.ftWrite 1 buffer] else [])

def roundCalls (numFtdisvs : Nat) (outputdata : Bool) (r : Round) (buffer : List UInt8) : List FtCall :=
  if r.ftRead = none then [.ftRead 0 r.bytes]
  else repeatCalls numFtdisvs outputdata r buffer ++
    if r.Succeeds numFtdisvs then r.bytes.map .putReadData else []

/-- The calls of a loop and what it returned: a round that does not succeed is the last. -/
inductive LoopCalls (numFtdisvs : Nat) (outputdata : Bool) : List Round → List FtCall → Option Nat → Prop
  | waits : LoopCalls numFtdisvs outputdata [] [] none
  | returns {r : Round} {rounds : List Round} {buffer : List UInt8} (fails : ¬ r.Succeeds numFtdisvs)
      (fills : Fills r buffer) :
      LoopCalls numFtdisvs outputdata (r :: rounds) (roundCalls numFtdisvs outputdata r buffer) (some 1)
  | round {r : Round} {rounds : List Round} {buffer : List UInt8} {calls : List FtCall} {returned : Option Nat}
      (succeeds : r.Succeeds numFtdisvs) (fills : Fills r buffer)
      (rest : LoopCalls numFtdisvs outputdata rounds calls returned) :
      LoopCalls numFtdisvs outputdata (r :: rounds) (roundCalls numFtdisvs outputdata r buffer ++ calls) returned

theorem Round.bytes_fit (r : Round) : r.bytes.length ≤ bufSize := by
  unfold Round.bytes
  cases r.ftRead with
  | none => exact Nat.zero_le _
  | some chunk => exact chunk.fits

theorem Fills.length_le {r : Round} {buffer : List UInt8} (fills : Fills r buffer) :
    r.bytes.length ≤ buffer.length := by
  rw [fills.length]
  exact r.bytes_fit

theorem Fills.whole {r : Round} {buffer : List UInt8} (fills : Fills r buffer) (full : r.bytes.length = bufSize) :
    buffer = r.bytes := by
  rw [← fills.front, full, ← fills.length, List.take_length]

theorem filterMap_blind {α β : Type} (xs : List α) : xs.filterMap (fun _ => (none : Option β)) = [] :=
  List.filterMap_eq_nil_iff.mpr fun _ _ => rfl

theorem roundCalls_view {β : Type} (view : FtCall → Option β) (numFtdisvs : Nat) (outputdata : Bool) (r : Round)
    (buffer : List UInt8) :
    (roundCalls numFtdisvs outputdata r buffer).filterMap view =
      (view (.ftRead 0 r.bytes)).toList ++
        if r.ftRead = none then []
        else (if outputdata then r.bytes.filterMap fun byte => view (.fprintf (hex byte)) else []) ++
          ((if sendmode numFtdisvs then (view (.ftWrite 1 buffer)).toList else []) ++
            if r.Succeeds numFtdisvs then r.bytes.filterMap fun byte => view (.putReadData byte) else []) := by
  have one : ∀ call : FtCall, [call].filterMap view = (view call).toList := by
    intro call
    cases seen : view call with
    | none => exact List.filterMap_cons_none seen
    | some b => exact List.filterMap_cons_some seen
  have logs : (if outputdata then r.bytes.map fun byte => FtCall.fprintf (hex byte) else []).filterMap view =
      if outputdata then r.bytes.filterMap fun byte => view (.fprintf (hex byte)) else [] := by
    split
    · exact List.filterMap_map
    · rfl
  have sends : (if sendmode numFtdisvs then [FtCall.ftWrite 1 buffer] else []).filterMap view =
      if sendmode numFtdisvs then (view (.ftWrite 1 buffer)).toList else [] := by
    split
    · exact one _
    · rfl
  have passes : (if r.Succeeds numFtdisvs then r.bytes.map FtCall.putReadData else []).filterMap view =
      if r.Succeeds numFtdisvs then r.bytes.filterMap fun byte => view (.putReadData byte) else [] := by
    split
    · exact List.filterMap_map
    · rfl
  unfold roundCalls
  split
  · rw [one, List.append_nil]
  · rw [repeatCalls, List.filterMap_append, List.filterMap_append, List.filterMap_append, one, logs, sends, passes,
      List.append_assoc, List.append_assoc]

theorem logged_append (xs ys : List FtCall) : logged (xs ++ ys) = logged xs ++ logged ys := by
  rw [logged, List.filterMap_append, List.flatten_append]
  rfl

def OpenCalls (numFtdisvs : Nat) (openings : Nat → Opening) (calls : List FtCall) : Prop :=
  ∀ (β : Type) (view : FtCall → Option β), (∀ device call, view (.ftSetUp device call) = none) →
    calls.filterMap view = (List.range numFtdisvs).filterMap fun i => view (.ftOpen i (openings i).ftOpen)

theorem openFtdiHanlde_calls (numberDevice : Nat) (o : Opening) (f : Feed FtCall) :
    ∃ setUps, (openFtdiHanlde numberDevice o f).1 = f.logAll (.ftOpen numberDevice o.ftOpen :: setUps) ∧
      ∀ call ∈ setUps, ∃ c, call = .ftSetUp numberDevice c := by
  unfold openFtdiHanlde
  split
  · exact ⟨[], rfl, by simp⟩
  split
  · exact ⟨[.ftSetUp numberDevice .resetDevice], by simp [Feed.log, Feed.logAll], by simp⟩
  split
  · exact ⟨[.ftSetUp numberDevice .resetDevice, .ftSetUp numberDevice .setBaudRate],
      by simp [Feed.log, Feed.logAll], by simp⟩
  split
  · exact ⟨[.ftSetUp numberDevice .resetDevice, .ftSetUp numberDevice .setBaudRate,
      .ftSetUp numberDevice .setDataCharacteristics], by simp [Feed.log, Feed.logAll], by simp⟩
  split
  · exact ⟨[.ftSetUp numberDevice .resetDevice, .ftSetUp numberDevice .setBaudRate,
      .ftSetUp numberDevice .setDataCharacteristics, .ftSetUp numberDevice .setFlowControl],
      by simp [Feed.log, Feed.logAll], by simp⟩
  · exact ⟨[.ftSetUp numberDevice .resetDevice, .ftSetUp numberDevice .setBaudRate,
      .ftSetUp numberDevice .setDataCharacteristics, .ftSetUp numberDevice .setFlowControl,
      .ftSetUp numberDevice .clrDtr, .ftSetUp numberDevice .clrRts, .ftSetUp numberDevice .setBreakOff,
      .ftSetUp numberDevice .setTimeouts], by simp [Feed.log, Feed.logAll], by simp⟩

theorem openDevices_calls (numFtdisvs : Nat) (openings : Nat → Opening) (f : Feed FtCall) :
    ∃ calls, openDevices numFtdisvs openings f = f.logAll calls ∧ OpenCalls numFtdisvs openings calls := by
  induction numFtdisvs with
  | zero => exact ⟨[], f.logAll_nil.symm, fun _ _ _ => rfl⟩
  | succ k ih =>
      obtain ⟨calls, earlier, opens⟩ := ih
      obtain ⟨setUps, last, prepares⟩ := openFtdiHanlde_calls k (openings k) (f.logAll calls)
      refine ⟨calls ++ .ftOpen k (openings k).ftOpen :: setUps, ?_, ?_⟩
      · rw [openDevices, List.range_succ, List.foldl_append, ← openDevices, earlier, ← Feed.logAll_append]
        exact last
      · intro β view quiet
        have unseen : setUps.filterMap view = [] := by
          apply List.filterMap_eq_nil_iff.mpr
          intro call among
          obtain ⟨c, rfl⟩ := prepares call among
          exact quiet k c
        rw [List.filterMap_append, opens β view quiet, List.range_succ, List.filterMap_append, List.filterMap_cons,
          unseen]
        rfl

theorem dumpToFile_ok (buffer : Vector UInt8 bufSize) {elements : Nat} (fits : elements ≤ bufSize)
    (f : Feed FtCall) :
    dumpToFile buffer elements f =
      .ok (f.logAll ((buffer.toList.take elements).map fun byte => .fprintf (hex byte))) := by
  have writes : ∃ f', dumpToFile buffer elements f = .ok f' ∧
      f' = f.logAll ((buffer.toList.take elements).map fun byte => .fprintf (hex byte)) := by
    apply forCells_invariant (fun bytes f' => f' = f.logAll (bytes.map fun byte => .fprintf (hex byte))) ?_ buffer fits
    · exact f.logAll_nil.symm
    · intro bytes byte f' same
      refine ⟨_, rfl, ?_⟩
      rw [same, List.map_append, ← Feed.logAll_append]
      rfl
  obtain ⟨f', written, same⟩ := writes
  rw [written, same]

namespace Ftdi

variable {past : List UInt8} {numFtdisvs : Nat} {s : Ftdi} {r : Round} {buffer : Vector UInt8 bufSize}

theorem ftRead_ok (positive : 0 < numFtdisvs) (r : Round) (s : Ftdi) :
    ∃ buffer, s.ftRead numFtdisvs r.bytes = .ok ⟨buffer, s.feed.logAll [.ftRead 0 r.bytes]⟩ ∧
      Fills r buffer.toList := by
  obtain ⟨buffer, filled, front⟩ := storeAll_front r.bytes s.pcBufRead r.bytes_fit
  refine ⟨buffer, ?_, Vector.length_toList, front⟩
  rw [ftRead, devInfo, if_pos positive, ok_bind, filled, ok_bind]
  rfl

theorem logRaw_ok (outputdata : Bool) (fills : Fills r buffer.toList) (f : Feed FtCall) :
    (⟨buffer, f⟩ : Ftdi).logRaw outputdata r.bytes.length = .ok ⟨buffer,
      f.logAll (if outputdata then r.bytes.map fun byte => .fprintf (hex byte) else [])⟩ := by
  cases outputdata with
  | false => exact congrArg (fun f => Except.ok (Ftdi.mk buffer f)) f.logAll_nil.symm
  | true =>
      have written := dumpToFile_ok buffer r.bytes_fit f
      rw [fills.front] at written
      rw [logRaw, if_pos rfl, written, ok_bind, if_pos rfl]

theorem send_ok (f : Feed FtCall) :
    (⟨buffer, f⟩ : Ftdi).send numFtdisvs =
      .ok ⟨buffer, f.logAll (if sendmode numFtdisvs then [.ftWrite 1 buffer.toList] else [])⟩ := by
  unfold send
  split
  · rename_i sends
    have second : 1 < numFtdisvs := of_decide_eq_true sends
    have whole : buffer.toList.take bufSize = buffer.toList :=
      List.take_of_length_le (le_of_eq Vector.length_toList)
    rw [ftWrite, devInfo, if_pos second, ok_bind, loadAll_ok buffer (le_refl _), ok_bind, whole]
    rfl
  · rw [f.logAll_nil]

theorem dumpBuffer_ok (host : Host) (tracks : Tracks past s.feed.globals) (fills : Fills r s.pcBufRead.toList) :
    ∃ feed, s.dumpBuffer host r.bytes.length = .ok { s with feed := feed } ∧
      Feeds .putReadData past r.bytes s.feed feed := by
  obtain ⟨feed, given, feeds⟩ := dump_feeds FtCall.putReadData host s.pcBufRead _ r.bytes_fit tracks
  rw [fills.front] at feeds
  exact ⟨feed, by rw [dumpBuffer, given, ok_bind], feeds⟩

theorem round_ok (host : Host) (positive : 0 < numFtdisvs) (outputdata : Bool) (tracks : Tracks past s.feed.globals)
    (r : Round) :
    ∃ s' buffer past', s.round host numFtdisvs outputdata r =
        .ok (s', if r.Succeeds numFtdisvs then none else some 1) ∧
      s'.feed.calls = s.feed.calls ++ roundCalls numFtdisvs outputdata r buffer ∧ Fills r buffer ∧
      Tracks past' s'.feed.globals := by
  obtain ⟨buffer, got, fills⟩ := ftRead_ok positive r s
  rw [round, got, ok_bind]
  by_cases failed : r.ftRead = none
  · refine ⟨⟨buffer, s.feed.logAll [.ftRead 0 r.bytes]⟩, buffer.toList, past, ?_, ?_, fills, tracks⟩
    · rw [if_pos failed, if_neg fun succeeds => succeeds.1 failed]
    · rw [roundCalls, if_pos failed]
      rfl
  · rw [if_neg failed, logRaw_ok outputdata fills, ok_bind, send_ok, ok_bind, Feed.logAll_append, Feed.logAll_append,
      ← repeatCalls]
    by_cases wrote : sendmode numFtdisvs = true ∧ r.ftWrite = false
    · have fails : ¬ r.Succeeds numFtdisvs := by
        intro succeeds
        have written := succeeds.2 (of_decide_eq_true wrote.1)
        rw [wrote.2] at written
        cases written
      rw [if_pos wrote, if_neg fails]
      refine ⟨_, buffer.toList, past, rfl, ?_, fills, tracks⟩
      rw [roundCalls, if_neg failed, if_neg fails, List.append_nil]
      rfl
    · have succeeds : r.Succeeds numFtdisvs := by
        refine ⟨failed, ?_⟩
        intro second
        exact Bool.eq_true_of_not_eq_false fun unwritten => wrote ⟨decide_eq_true second, unwritten⟩
      rw [if_neg wrote, if_pos succeeds]
      obtain ⟨feed, given, feeds⟩ := dumpBuffer_ok host
        (s := ⟨buffer, s.feed.logAll (repeatCalls numFtdisvs outputdata r buffer.toList)⟩) tracks fills
      refine ⟨⟨buffer, feed⟩, buffer.toList, past ++ r.bytes, ?_, ?_, fills, feeds.tracks⟩
      · rw [given, ok_bind]
      · rw [feeds.calls, roundCalls, if_neg failed, if_pos succeeds]
        exact List.append_assoc _ _ _

/-- With a device to read from, the loop makes the calls of its rounds. -/
theorem loop_calls (host : Host) (positive : 0 < numFtdisvs) (outputdata : Bool) (rounds : List Round)
    (tracks : Tracks past s.feed.globals) :
    ∃ s' calls returned, s.loop host numFtdisvs outputdata rounds = .ok (s', returned) ∧
      s'.feed.calls = s.feed.calls ++ calls ∧ LoopCalls numFtdisvs outputdata rounds calls returned := by
  induction rounds generalizing past s with
  | nil => exact ⟨s, [], none, rfl, (List.append_nil _).symm, .waits⟩
  | cons r rounds ih =>
      obtain ⟨s₁, buffer, past', first, calls₁, fills, tracks'⟩ := round_ok host positive outputdata tracks r
      by_cases succeeds : r.Succeeds numFtdisvs
      · obtain ⟨s₂, calls₂, returned, rest, calls, made⟩ := ih tracks'
        refine ⟨s₂, _, returned, ?_, ?_, .round succeeds fills made⟩
        · rw [loop, first, ok_bind, if_pos succeeds]
          exact rest
        · rw [calls, calls₁, List.append_assoc]
      · refine ⟨s₁, _, some 1, ?_, calls₁, .returns succeeds fills⟩
        rw [loop, first, ok_bind, if_neg succeeds]
        rfl

theorem readftdi_loops (host : Host) (positive : 0 < numFtdisvs) (openings : Nat → Opening)
    (privileged outputdata : Bool) (running : Running) (tracks : Tracks past s.feed.globals) :
    ∃ s' opened calls returned,
      s.readftdi host numFtdisvs openings privileged outputdata running =
        (if returned = none ∧ (running.granted privileged).stops = true then s'.finish numFtdisvs
          else .ok (s', returned)) ∧
      s'.feed.calls = s.feed.calls ++ (opened ++ calls) ∧ OpenCalls numFtdisvs openings opened ∧
      LoopCalls numFtdisvs outputdata (running.granted privileged).rounds calls returned := by
  obtain ⟨opened, opens, isOpen⟩ := openDevices_calls numFtdisvs openings s.feed
  obtain ⟨s', calls, returned, looped, made, loops⟩ := loop_calls host positive outputdata
    (running.granted privileged).rounds (s := ⟨s.pcBufRead, s.feed.logAll opened⟩) tracks
  refine ⟨s', opened, calls, returned, ?_, ?_, isOpen, loops⟩
  · rw [readftdi, opens, looped]
    rfl
  · rw [made, ← List.append_assoc]
    rfl

theorem finish_ok (second : 1 < numFtdisvs) (s : Ftdi) :
    s.finish numFtdisvs = .ok (⟨s.pcBufRead, s.feed.logAll [.ftClose 0, .ftClose 1]⟩, some 0) := by
  rw [finish, ftClose, devInfo, if_pos (by omega), ok_bind, ok_bind, ftClose, devInfo, if_pos second, ok_bind, ok_bind]
  exact congrArg (fun f => Except.ok (Ftdi.mk s.pcBufRead f, some 0)) (s.feed.logAll_append [.ftClose 0] [.ftClose 1])

theorem finish_outside (few : ¬ 1 < numFtdisvs) (s : Ftdi) : s.finish numFtdisvs = .error .outside := by
  rw [finish, ftClose, devInfo]
  by_cases first : 0 < numFtdisvs
  · rw [if_pos first, ok_bind, ok_bind, ftClose, devInfo, if_neg few, error_bind, error_bind]
  · rw [if_neg first, error_bind, error_bind]

end Ftdi

end SerialTiming.Receiver.ReadFTDI
