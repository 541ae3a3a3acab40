/- module: SerialTiming/Receiver/Read
   digest: read.cpp: the loop that reads the serial port on Linux, with the buffer it reads into. -/

import SerialTiming.Receiver.Buffered
import SerialTiming.Receiver.Calls

set_option autoImplicit false
set_option relaxedAutoImplicit false

namespace SerialTiming.Receiver.Read

open CLib.Objects CLib.Buffers Decoder.State Decoder.ReadData Buffered Calls

def bufferLength : Nat := 32

/-- The result of the system call read: it fails, or stores some bytes in the buffer. -/
abbrev Result := Option (Chunk bufferLength)

def Result.bytes (result : Result) : List UInt8 := (result.map Chunk.bytes).getD []

def Result.res (result : Result) : Int := if result.isSome then result.bytes.length else -1

/-- An int as the length that write takes. -/
def sizeT (res : Int) : Nat := (res % 2 ^ 64).toNat

structure Reader where
  buf : Vector UInt8 bufferLength
  feed : Feed Call
  deriving DecidableEq, Repr

namespace Reader

/-- Nothing initialises `buf`. -/
def opened (buf : Vector UInt8 bufferLength) (globals : Globals) : Reader := ⟨buf, Feed.started globals⟩

def receive (result : Result) (r : Reader) : Checked Reader := do
  let buf ← storeAll result.bytes 0 r.buf
  .ok { buf := buf, feed := r.feed.log (.read result.bytes) }

def send (res : Int) (r : Reader) : Checked Reader := do
  let bytes ← loadAll r.buf (sizeT res)
  .ok { r with feed := r.feed.log (.write bytes) }

/-- The write call is made only to forward. -/
def forwardTo (forward : Bool) (res : Int) (r : Reader) : Checked Reader :=
  if forward then r.send res else .ok r

def terminate (res : Int) (r : Reader) : Checked Reader := do
  let buf ← storeAt r.buf res 0
  .ok { r with buf := buf }

def analyse (host : Host) (res : Int) (r : Reader) : Checked Reader := do
  let feed ← r.feed.dump host .putReadData r.buf res.toNat
  .ok { r with feed := feed }

def round (host : Host) (forward : Bool) (result : Result) (r : Reader) : Checked Reader := do
  let r ← r.receive result
  let r ← r.forwardTo forward result.res
  let r ← r.terminate result.res
  r.analyse host result.res

def loop (host : Host) (forward : Bool) : List Result → Reader → Checked Reader
  | [], r => .ok r
  | result :: results, r => do
      let r ← r.round host forward result
      loop host forward results r

/-- read: a port that cannot be opened ends it before the loop. -/
def read (host : Host) (fd fo : Int) (forward : Bool) (results : List Result) (r : Reader) : Checked Reader :=
  if fd < 0 then .ok r
  else if forward = true ∧ fo < 0 then .ok r
  else r.loop host forward results

end Reader

/-- The result leaves room for the terminator. -/
def Result.Fits (result : Result) : Prop := 0 ≤ result.res ∧ result.res < bufferLength

instance (result : Result) : Decidable result.Fits := by
  unfold Result.Fits
  infer_instance

def roundCalls (forward : Bool) (result : Result) : List Call :=
  .read result.bytes :: ((if forward then [.write result.bytes] else []) ++ result.bytes.map .putReadData)

theorem Result.bytes_fit (result : Result) : result.bytes.length ≤ bufferLength := by
  cases result with
  | none => exact Nat.zero_le _
  | some chunk => exact chunk.fits

theorem Result.Fits.res_eq {result : Result} (fits : result.Fits) : result.res = result.bytes.length := by
  unfold Result.res
  split
  · rfl
  · rename_i failed
    have negative : result.res = -1 := if_neg failed
    have sign := fits.1
    omega

theorem sizeT_length {k : Nat} (small : k ≤ bufferLength) : sizeT k = k := by
  unfold sizeT
  unfold bufferLength at small
  omega

namespace Reader

variable {past : List UInt8} {r : Reader} {result : Result}

theorem receive_ok (result : Result) (r : Reader) :
    ∃ buf, r.receive result = .ok ⟨buf, r.feed.log (.read result.bytes)⟩ ∧
      buf.toList.take result.bytes.length = result.bytes := by
  obtain ⟨buf, filled, front⟩ := storeAll_front result.bytes r.buf result.bytes_fit
  refine ⟨buf, ?_, front⟩
  rw [receive, filled, ok_bind]

theorem forwardTo_ok (forward : Bool) (counted : result.res = result.bytes.length)
    (front : r.buf.toList.take result.bytes.length = result.bytes) :
    ∃ feed, r.forwardTo forward result.res = .ok { r with feed := feed } ∧ feed.globals = r.feed.globals ∧
      feed.calls = r.feed.calls ++ if forward then [.write result.bytes] else [] := by
  cases forward with
  | false => exact ⟨r.feed, rfl, rfl, (List.append_nil _).symm⟩
  | true =>
      refine ⟨r.feed.log (.write result.bytes), ?_, rfl, rfl⟩
      rw [forwardTo, if_pos rfl, send, counted, sizeT_length result.bytes_fit, loadAll_ok r.buf result.bytes_fit,
        ok_bind, front]

theorem terminate_ok (fits : result.Fits) :
    ∃ buf, r.terminate result.res = .ok { r with buf := buf } ∧
      buf.toList.take result.bytes.length = r.buf.toList.take result.bytes.length := by
  obtain ⟨buf, ended, kept⟩ := storeAt_ok r.buf 0 fits
  refine ⟨buf, ?_, ?_⟩
  · rw [terminate, ended, ok_bind]
  · rw [fits.res_eq, Int.toNat_natCast] at kept
    exact kept

theorem analyse_ok (host : Host) (tracks : Tracks past r.feed.globals) (counted : result.res = result.bytes.length)
    (front : r.buf.toList.take result.bytes.length = result.bytes) :
    ∃ feed, r.analyse host result.res = .ok { r with feed := feed } ∧
      Feeds .putReadData past result.bytes r.feed feed := by
  obtain ⟨feed, given, feeds⟩ := dump_feeds Call.putReadData host r.buf _ result.bytes_fit tracks
  rw [front] at feeds
  refine ⟨feed, ?_, feeds⟩
  rw [analyse, counted, Int.toNat_natCast, given, ok_bind]

theorem round_ok (host : Host) (forward : Bool) (tracks : Tracks past r.feed.globals) (fits : result.Fits) :
    ∃ r', r.round host forward result = .ok r' ∧ r'.feed.calls = r.feed.calls ++ roundCalls forward result ∧
      Tracks (past ++ result.bytes) r'.feed.globals := by
  obtain ⟨buf, received, front⟩ := receive_ok result r
  obtain ⟨sent, forwarded, same, calls⟩ := forwardTo_ok forward fits.res_eq
    (r := ⟨buf, r.feed.log (.read result.bytes)⟩) front
  obtain ⟨buf', ended, kept⟩ := terminate_ok fits (r := ⟨buf, sent⟩)
  have known : Tracks past sent.globals := by
    rw [same]
    exact tracks
  obtain ⟨feed, given, feeds⟩ := analyse_ok host known fits.res_eq (r := ⟨buf', sent⟩) (kept.trans front)
  refine ⟨⟨buf', feed⟩, ?_, ?_, feeds.tracks⟩
  · rw [round, received, ok_bind, forwarded, ok_bind, ended, ok_bind, given]
  · rw [feeds.calls, calls, Feed.log_calls, List.append_assoc, List.append_assoc]
    rfl

theorem round_outside (host : Host) (forward : Bool) (full : ¬ result.Fits) :
    r.round host forward result = .error .outside := by
  obtain ⟨buf, received, front⟩ := receive_ok result r
  rw [round, received, ok_bind]
  have off : ∀ r : Reader, r.terminate result.res = .error .outside := by
    intro r
    rw [terminate, storeAt_outside r.buf 0 full, error_bind]
  cases forward with
  | false => rw [forwardTo, if_neg (by decide), ok_bind, off, error_bind]
  | true =>
      rw [forwardTo, if_pos rfl, send]
      unfold loadAll
      split
      · rw [ok_bind, ok_bind, off, error_bind]
      · rw [error_bind, error_bind]

/-- The loop on results that all leave room for the terminator. -/
theorem loop_ok (host : Host) (forward : Bool) (results : List Result) (fits : ∀ result ∈ results, result.Fits)
    (tracks : Tracks past r.feed.globals) :
    ∃ r', r.loop host forward results = .ok r' ∧
      r'.feed.calls = r.feed.calls ++ results.flatMap (roundCalls forward) := by
  induction results generalizing past r with
  | nil => exact ⟨r, rfl, (List.append_nil _).symm⟩
  | cons result results ih =>
      obtain ⟨r₁, first, calls, tracks'⟩ := round_ok host forward tracks (fits result List.mem_cons_self)
      obtain ⟨r₂, rest, later⟩ := ih (fun other among => fits other (List.mem_cons_of_mem _ among)) tracks'
      refine ⟨r₂, ?_, ?_⟩
      · rw [loop, first, ok_bind, rest]
      · rw [later, calls, List.append_assoc]
        rfl

/-- One result that leaves no room ends the loop with a write outside the buffer. -/
theorem loop_outside (host : Host) (forward : Bool) (results : List Result)
    (full : ∃ result ∈ results, ¬ result.Fits) (tracks : Tracks past r.feed.globals) :
    r.loop host forward results = .error .outside := by
  induction results generalizing past r with
  | nil =>
      obtain ⟨result, among, _⟩ := full
      cases among
  | cons result results ih =>
      by_cases fits : result.Fits
      · obtain ⟨r₁, first, _, tracks'⟩ := round_ok host forward tracks fits
        rw [loop, first, ok_bind]
        apply ih _ tracks'
        obtain ⟨other, among, not⟩ := full
        rcases List.mem_cons.mp among with rfl | later
        · exact absurd fits not
        · exact ⟨other, later, not⟩
      · rw [loop, round_outside host forward fits, error_bind]

end Reader

section Calls

variable (forward : Bool) (results : List Result)

theorem reads_rounds : reads (results.flatMap (roundCalls forward)) = results.map Result.bytes := by
  induction results with
  | nil => rfl
  | cons result results ih =>
      have own : reads (roundCalls forward result) = [result.bytes] := by
        cases forward <;> exact congrArg (result.bytes :: ·) (reads_map result.bytes)
      rw [List.flatMap_cons, reads_append, own, ih]
      rfl

theorem writes_rounds :
    writes (results.flatMap (roundCalls forward)) = if forward then results.map Result.bytes else [] := by
  induction results with
  | nil => cases forward <;> rfl
  | cons result results ih =>
      have own : writes (roundCalls forward result) = if forward then [result.bytes] else [] := by
        cases forward
        · exact writes_map result.bytes
        · exact congrArg (result.bytes :: ·) (writes_map result.bytes)
      rw [List.flatMap_cons, writes_append, own, ih]
      cases forward <;> rfl

theorem passed_rounds : passed (results.flatMap (roundCalls forward)) = results.flatMap Result.bytes := by
  induction results with
  | nil => rfl
  | cons result results ih =>
      have own : passed (roundCalls forward result) = result.bytes := by
        cases forward <;> exact passed_map result.bytes
      rw [List.flatMap_cons, passed_append, own, ih]
      rfl

end Calls

end SerialTiming.Receiver.Read
