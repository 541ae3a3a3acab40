/- module: SerialTiming/Receiver/ReadGpio
   digest: readGPIO.cpp: the loop that reads the serial port of a Raspberry Pi, with its two counts of bytes. -/

import SerialTiming.Receiver.Buffered
import SerialTiming.Receiver.Calls

set_option autoImplicit false
set_option relaxedAutoImplicit false

namespace SerialTiming.Receiver.ReadGpio

open CLib.Objects CLib.Buffers Decoder.State Decoder.ReadData Buffered Calls

def textLength : Nat := 2048

/-- What serRead does when it is asked for `count` bytes: it stores some, at most that many, and returns their
number, or it returns an error. -/
structure SerRead where
  answer : Nat → Option (List UInt8)
  bounded : ∀ (count : Nat) (bytes : List UInt8), answer count = some bytes → bytes.length ≤ count

/-- One call of serDataAvailable, and how a serRead call right after it answers. -/
structure Poll where
  available : Int
  serRead : SerRead

/-- The int of serDataAvailable as the unsigned count of serRead. -/
def Poll.count (p : Poll) : Nat := (p.available % 2 ^ 32).toNat

def Poll.stores (p : Poll) : Option (List UInt8) := p.serRead.answer p.count

structure Reader where
  text : Vector UInt8 textLength
  feed : Feed Call
  deriving DecidableEq, Repr

namespace Reader

def opened (text : Vector UInt8 textLength) (globals : Globals) : Reader := ⟨text, Feed.started globals⟩

def receive (bytes : List UInt8) (r : Reader) : Checked Reader := do
  let text ← storeAll bytes 0 r.text
  .ok { text := text, feed := r.feed.log (.read bytes) }

/-- `for (int i = 0; i < b; i++) putReadData(text[i])`: the bound is what was available, not what was read. -/
def analyse (host : Host) (b : Int) (r : Reader) : Checked Reader := do
  let feed ← r.feed.dump host .putReadData r.text b.toNat
  .ok { r with feed := feed }

def round (host : Host) (b : Int) (bytes : List UInt8) (r : Reader) : Checked Reader := do
  let r ← r.receive bytes
  r.analyse host b

/-- The two loops on the answers of pigpio: an error of serRead returns from read. -/
def loop (host : Host) : List Poll → Reader → Checked Reader
  | [], r => .ok r
  | p :: polls, r =>
      if p.available = 0 then loop host polls r
      else match p.stores with
        | none => .ok { r with feed := r.feed.log (.read []) }
        | some bytes => do
            let r ← r.round host p.available bytes
            loop host polls r

/-- read: it returns before the loop if pigpio does not start or the port does not open. -/
def read (host : Host) (gpioInitialise serOpen : Int) (polls : List Poll) (r : Reader) : Checked Reader :=
  if gpioInitialise < 0 then .ok r
  else if serOpen < 0 then .ok r
  else r.loop host polls

end Reader

def Poll.Fails (p : Poll) : Prop := ¬ p.available = 0 ∧ p.stores = none

instance (p : Poll) : Decidable p.Fails := by
  unfold Poll.Fails
  infer_instance

/-- The polls that are reached: a failed serRead call ends the loop. -/
def reached : List Poll → List Poll
  | [] => []
  | p :: polls => p :: if p.Fails then [] else reached polls

/-- What serRead stores after this poll is all that was available, nothing if that is negative, and it has room in
the buffer. -/
def Poll.Exact (p : Poll) : Prop :=
  ¬ p.available = 0 → ∀ bytes : List UInt8, p.stores = some bytes →
    bytes.length = p.available.toNat ∧ bytes.length ≤ textLength

def Poll.Fits (p : Poll) : Prop :=
  ¬ p.available = 0 → ∀ bytes : List UInt8, p.stores = some bytes →
    bytes.length ≤ textLength ∧ p.available ≤ textLength

theorem Poll.count_le (p : Poll) (counts : 0 ≤ p.available) : (p.count : Int) ≤ p.available := by
  unfold Poll.count
  omega

variable {past : List UInt8} {r : Reader}

theorem round_ok (host : Host) (tracks : Tracks past r.feed.globals) {b : Int} {bytes : List UInt8}
    (fits : bytes.length ≤ textLength) (room : b ≤ textLength) :
    ∃ r' front, r.round host b bytes = .ok r' ∧
      r'.feed.calls = r.feed.calls ++ .read bytes :: front.map .putReadData ∧
      front.length = b.toNat ∧ front.take bytes.length = bytes.take b.toNat ∧
      Tracks (past ++ front) r'.feed.globals := by
  obtain ⟨text, filled, stored⟩ := storeAll_front bytes r.text fits
  obtain ⟨feed, given, feeds⟩ := dump_feeds Call.putReadData host text b.toNat (by omega)
    (f := r.feed.log (.read bytes)) tracks
  refine ⟨⟨text, feed⟩, text.toList.take b.toNat, ?_, ?_, ?_, ?_, feeds.tracks⟩
  · rw [Reader.round, Reader.receive, filled, ok_bind, ok_bind, Reader.analyse, given, ok_bind]
  · rw [feeds.calls, Feed.log_calls, List.append_assoc]
    rfl
  · rw [List.length_take, Vector.length_toList]
    omega
  · calc (text.toList.take b.toNat).take bytes.length
        = (text.toList.take bytes.length).take b.toNat := by rw [List.take_take, List.take_take, Nat.min_comm]
      _ = bytes.take b.toNat := by rw [stored]

theorem round_outside (host : Host) (tracks : Tracks past r.feed.globals) {b : Int} {bytes : List UInt8}
    (long : ¬ (bytes.length ≤ textLength ∧ b ≤ textLength)) : r.round host b bytes = .error .outside := by
  rcases Nat.lt_or_ge textLength bytes.length with much | room
  · rw [Reader.round, Reader.receive, storeAll_outside bytes 0 r.text (Nat.zero_le _) (by omega), error_bind,
      error_bind]
  · obtain ⟨text, filled, _⟩ := storeAll_front bytes r.text room
    have leaves := dump_outside Call.putReadData host text b.toNat (by omega)
      (f := r.feed.log (.read bytes)) tracks
    rw [Reader.round, Reader.receive, filled, ok_bind, ok_bind, Reader.analyse, leaves, error_bind]

/-- How many bytes more the decoder got than the line delivered. -/
def surplus (calls : List Call) : Int := (passed calls).length - (stored calls).length

theorem surplus_round (calls : List Call) (bytes front : List UInt8) :
    surplus (calls ++ .read bytes :: front.map .putReadData) =
      surplus calls + (front.length - bytes.length) := by
  have split : calls ++ .read bytes :: front.map Call.putReadData =
      calls ++ [.read bytes] ++ front.map .putReadData := by simp
  have one : passed [.read bytes] = [] ∧ stored [.read bytes] = bytes := ⟨rfl, by simp [stored]⟩
  have none : stored (front.map Call.putReadData) = [] := by rw [stored_reads, reads_map, List.flatten_nil]
  unfold surplus
  rw [split, passed_append, passed_append, stored_append, stored_append, one.1, one.2, none, passed_map,
    List.append_nil, List.append_nil, List.length_append, List.length_append]
  omega

theorem loop_exact (host : Host) (polls : List Poll) (exact : ∀ p ∈ reached polls, p.Exact)
    (tracks : Tracks past r.feed.globals) (inStep : InStep r.feed.calls) :
    ∃ r', r.loop host polls = .ok r' ∧ InStep r'.feed.calls := by
  induction polls generalizing past r with
  | nil => exact ⟨r, rfl, inStep⟩
  | cons p polls ih =>
      have here : p.Exact := exact p List.mem_cons_self
      have later : ¬ p.Fails → ∀ q ∈ reached polls, q.Exact := by
        intro goes q among
        apply exact q
        rw [reached, if_neg goes]
        exact List.mem_cons_of_mem _ among
      unfold Reader.loop
      split
      · rename_i idle
        exact ih (later fun fails => fails.1 idle) tracks inStep
      · rename_i busy
        split
        · exact ⟨_, rfl, inStep.relay []⟩
        · rename_i bytes answer
          obtain ⟨all, fits⟩ := here busy bytes answer
          obtain ⟨r₁, front, first, calls, length, taken, tracks'⟩ :=
            round_ok host tracks (r := r) (b := p.available) fits (by omega)
          have whole : front = bytes := by
            rw [List.take_of_length_le (by omega), List.take_of_length_le (by omega)] at taken
            exact taken
          have goes : ¬ p.Fails := by
            intro fails
            rw [fails.2] at answer
            cases answer
          have inStep' : InStep r₁.feed.calls := by
            rw [calls, whole]
            exact inStep.relay bytes
          rw [first, ok_bind]
          exact ih (later goes) tracks' inStep'

theorem loop_round (host : Host) {p : Poll} {polls : List Poll} (tracks : Tracks past r.feed.globals) {r' : Reader}
    (result : r.loop host (p :: polls) = .ok r') {bytes : List UInt8} (busy : ¬ p.available = 0)
    (answer : p.stores = some bytes) :
    ∃ (r₁ : Reader) (front : List UInt8), r₁.loop host polls = .ok r' ∧
      r₁.feed.calls = r.feed.calls ++ .read bytes :: front.map .putReadData ∧
      front.length = p.available.toNat ∧ bytes.length ≤ textLength ∧ Tracks (past ++ front) r₁.feed.globals := by
  rw [Reader.loop, if_neg busy, answer] at result
  by_cases within : bytes.length ≤ textLength ∧ p.available ≤ textLength
  · obtain ⟨r₁, front, first, calls, length, _, tracks'⟩ := round_ok host tracks (r := r) within.1 within.2
    simp only [first, ok_bind] at result
    exact ⟨r₁, front, result, calls, length, within.1, tracks'⟩
  · simp only [round_outside host tracks within, error_bind] at result
    cases result

theorem loop_extends (host : Host) (polls : List Poll) (tracks : Tracks past r.feed.globals) {r' : Reader}
    (result : r.loop host polls = .ok r') : r.feed.calls <+: r'.feed.calls := by
  induction polls generalizing past r with
  | nil =>
      obtain rfl := Except.ok.inj result
      exact List.prefix_rfl
  | cons p polls ih =>
      by_cases idle : p.available = 0
      · rw [Reader.loop, if_pos idle] at result
        exact ih tracks result
      cases answer : p.stores with
      | none =>
          rw [Reader.loop, if_neg idle, answer] at result
          obtain rfl := Except.ok.inj result
          exact List.prefix_append _ _
      | some bytes =>
          obtain ⟨r₁, front, rest, calls, _, _, tracks'⟩ := loop_round host tracks result idle answer
          have later := ih tracks' rest
          rw [calls] at later
          exact (List.prefix_append _ _).trans later

theorem reached_exact {p : Poll} {polls : List Poll} (here : p.Exact) (later : ∀ q ∈ reached polls, q.Exact) :
    ∀ q ∈ reached (p :: polls), q.Exact := by
  intro q among
  rcases List.mem_cons.mp among with rfl | among
  · exact here
  · split at among
    · cases among
    · exact later q among

theorem loop_inStep (host : Host) (polls : List Poll) (tracks : Tracks past r.feed.globals) {r' : Reader}
    (result : r.loop host polls = .ok r') (inStep : InStep r'.feed.calls) :
    passed r.feed.calls = stored r.feed.calls ∧ ∀ p ∈ reached polls, p.Exact := by
  induction polls generalizing past r with
  | nil =>
      obtain rfl := Except.ok.inj result
      exact ⟨inStep.1, fun p among => by cases among⟩
  | cons p polls ih =>
      by_cases idle : p.available = 0
      · rw [Reader.loop, if_pos idle] at result
        obtain ⟨same, exact⟩ := ih tracks result
        exact ⟨same, reached_exact (fun busy => absurd idle busy) exact⟩
      cases answer : p.stores with
      | none =>
          rw [Reader.loop, if_neg idle, answer] at result
          obtain rfl := Except.ok.inj result
          refine ⟨inStep.2 _ _ _ (Feed.log_calls _ _), ?_⟩
          intro q among
          rw [reached, if_pos ⟨idle, answer⟩, List.mem_singleton] at among
          subst among
          intro _ bytes stores
          rw [answer] at stores
          cases stores
      | some bytes =>
          obtain ⟨r₁, front, rest, calls, length, fits, tracks'⟩ := loop_round host tracks result idle answer
          obtain ⟨same', exact⟩ := ih tracks' rest
          obtain ⟨more, all⟩ := loop_extends host polls tracks' rest
          have same : passed r.feed.calls = stored r.feed.calls := by
            apply inStep.2 _ bytes (front.map .putReadData ++ more)
            rw [← all, calls, List.append_assoc]
            rfl
          have grown := surplus_round r.feed.calls bytes front
          have before : surplus r.feed.calls = 0 := by rw [surplus, same, sub_self]
          have after : surplus r₁.feed.calls = 0 := by rw [surplus, same', sub_self]
          rw [← calls, before, after] at grown
          refine ⟨same, reached_exact ?_ exact⟩
          intro _ others stores
          obtain rfl : others = bytes := Option.some.inj (stores.symm.trans answer)
          exact ⟨by omega, fits⟩

/-- Where no answer of serDataAvailable is negative, the loop never gives the decoder fewer bytes than the line
delivers, and as many only if every serRead call stores what was available. -/
theorem loop_surplus (host : Host) (polls : List Poll) (counts : ∀ p ∈ polls, 0 ≤ p.available)
    (tracks : Tracks past r.feed.globals) {r' : Reader} (result : r.loop host polls = .ok r') :
    surplus r.feed.calls ≤ surplus r'.feed.calls ∧
      (surplus r'.feed.calls = surplus r.feed.calls → ∀ p ∈ reached polls, p.Exact) := by
  induction polls generalizing past r with
  | nil =>
      obtain rfl := Except.ok.inj result
      refine ⟨le_refl _, ?_⟩
      intro _ p among
      cases among
  | cons p polls ih =>
      have later : ∀ q ∈ polls, 0 ≤ q.available := fun q among => counts q (List.mem_cons_of_mem _ among)
      by_cases idle : p.available = 0
      · rw [Reader.loop, if_pos idle] at result
        obtain ⟨grows, exact⟩ := ih later tracks result
        exact ⟨grows, fun same => reached_exact (fun busy => absurd idle busy) (exact same)⟩
      cases answer : p.stores with
      | none =>
          rw [Reader.loop, if_neg idle, answer] at result
          obtain rfl := Except.ok.inj result
          have quiet : surplus (r.feed.log (.read [])).calls = surplus r.feed.calls := by
            have one := surplus_round r.feed.calls [] []
            rw [Feed.log_calls]
            exact one.trans (by simp)
          refine ⟨le_of_eq quiet.symm, ?_⟩
          intro _ q among
          rw [reached, if_pos ⟨idle, answer⟩, List.mem_singleton] at among
          subst among
          intro _ bytes stores
          rw [answer] at stores
          cases stores
      | some bytes =>
          obtain ⟨r₁, front, rest, calls, length, fits, tracks'⟩ := loop_round host tracks result idle answer
          obtain ⟨grows, exact⟩ := ih later tracks' rest
          have available := counts p List.mem_cons_self
          have bounded : bytes.length ≤ p.count := p.serRead.bounded p.count bytes answer
          have asked := p.count_le available
          have more := surplus_round r.feed.calls bytes front
          rw [← calls] at more
          refine ⟨by omega, ?_⟩
          intro same
          refine reached_exact ?_ (exact (by omega))
          intro _ others stores
          obtain rfl : others = bytes := Option.some.inj (stores.symm.trans answer)
          exact ⟨by omega, fits⟩

end SerialTiming.Receiver.ReadGpio
