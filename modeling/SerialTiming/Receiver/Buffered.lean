/- module: SerialTiming/Receiver/Buffered
   digest: Receivers that read the line into a buffer and hand its bytes to the decoder one by one. -/

import SerialTiming.CLib.Buffers
import SerialTiming.Decoder.ReadData

set_option autoImplicit false
set_option relaxedAutoImplicit false

namespace SerialTiming.Receiver.Buffered

open CLib.Objects CLib.Buffers Decoder.State Decoder.ReadData

/-- What a call stores that is asked for at most `n` bytes. -/
structure Chunk (n : Nat) where
  bytes : List UInt8
  fits : bytes.length ≤ n
  deriving DecidableEq, Repr

def Chunk.empty (n : Nat) : Chunk n := ⟨[], Nat.zero_le n⟩

def Chunk.full {n : Nat} (bytes : Vector UInt8 n) : Chunk n := ⟨bytes.toList, Nat.le_of_eq Vector.length_toList⟩

/-- The decoder behind a receiver, and the calls that the receiver made so far. -/
structure Feed (κ : Type) where
  globals : Globals
  calls : List κ
  deriving DecidableEq, Repr

namespace Feed

variable {κ : Type} {n : Nat}

def started (globals : Globals) : Feed κ := ⟨globals, []⟩

def log (f : Feed κ) (call : κ) : Feed κ := { f with calls := f.calls ++ [call] }

def putReadData (host : Host) (call : UInt8 → κ) (byte : UInt8) (f : Feed κ) : Checked (Feed κ) := do
  let globals ← Decoder.ReadData.putReadData host byte f.globals
  .ok { globals := globals, calls := f.calls ++ [call byte] }

/-- The loop `for (j = 0; j < elements; j++) putReadData(buffer[j])` of each receiver. -/
def dump (host : Host) (call : UInt8 → κ) (buffer : Vector UInt8 n) (elements : Nat) (f : Feed κ) :
    Checked (Feed κ) :=
  forCount elements (fun j f => do
    let byte ← load buffer j
    f.putReadData host call byte) 0 f

def logAll (f : Feed κ) (calls : List κ) : Feed κ := { f with calls := f.calls ++ calls }

theorem logAll_nil (f : Feed κ) : f.logAll [] = f := by rw [logAll, List.append_nil]

theorem logAll_append (f : Feed κ) (xs ys : List κ) : (f.logAll xs).logAll ys = f.logAll (xs ++ ys) := by
  rw [logAll, logAll, logAll, List.append_assoc]

@[simp] theorem log_calls (f : Feed κ) (call : κ) : (f.log call).calls = f.calls ++ [call] := rfl

end Feed

variable {κ : Type} {n : Nat} (call : UInt8 → κ) {past : List UInt8} {f : Feed κ}

/-- Between two moments of a loop the decoder was given these bytes, and nothing else was called. -/
structure Feeds (past bytes : List UInt8) (f f' : Feed κ) : Prop where
  calls : f'.calls = f.calls ++ bytes.map call
  tracks : Tracks (past ++ bytes) f'.globals

theorem Feeds.snoc {call : UInt8 → κ} {bytes : List UInt8} {f' : Feed κ} (host : Host)
    (feeds : Feeds call past bytes f f') (byte : UInt8) :
    ∃ f'', f'.putReadData host call byte = .ok f'' ∧ Feeds call past (bytes ++ [byte]) f f'' := by
  obtain ⟨g, parsed, tracks⟩ := putReadData_tracks host feeds.tracks byte
  refine ⟨⟨g, f'.calls ++ [call byte]⟩, ?_, ?_, ?_⟩
  · rw [Feed.putReadData, parsed, ok_bind]
  · rw [feeds.calls, List.map_append, List.append_assoc]
    rfl
  · rw [← List.append_assoc]
    exact tracks

theorem dump_feeds (host : Host) (buffer : Vector UInt8 n) (elements : Nat) (fits : elements ≤ n)
    (tracks : Tracks past f.globals) :
    ∃ f', f.dump host call buffer elements = .ok f' ∧ Feeds call past (buffer.toList.take elements) f f' := by
  apply forCells_invariant (fun bytes f' => Feeds call past bytes f f') ?_ buffer fits
  · refine ⟨by simp, ?_⟩
    rw [List.append_nil]
    exact tracks
  · intro bytes byte f' feeds
    exact feeds.snoc host byte

/-- A loop that goes past the end of the buffer leaves it there, whatever the decoder makes of the bytes. -/
theorem dump_outside (host : Host) (buffer : Vector UInt8 n) (elements : Nat) (long : n < elements)
    (tracks : Tracks past f.globals) : f.dump host call buffer elements = .error .outside := by
  have stops : ∀ count j past (f : Feed κ), Tracks past f.globals → j ≤ n → n < j + count →
      forCount count (fun j f => do
        let byte ← load buffer j
        f.putReadData host call byte) j f = .error .outside := by
    intro count
    induction count with
    | zero =>
        intro j past f tracks starts ends
        omega
    | succ count ih =>
        intro j past f tracks starts ends
        rcases Nat.lt_or_ge j n with inside | outside
        · obtain ⟨g, parsed, tracks'⟩ := putReadData_tracks host tracks buffer[j]
          rw [forCount, load_ok buffer inside, ok_bind, Feed.putReadData, parsed, ok_bind, ok_bind]
          exact ih (j + 1) _ _ tracks' (by omega) (by omega)
        · rw [forCount, load, dif_neg (by omega), error_bind, error_bind]
  exact stops elements 0 past f tracks (by omega) (by omega)

end SerialTiming.Receiver.Buffered
