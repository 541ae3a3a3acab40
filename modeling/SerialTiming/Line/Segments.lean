/- module: SerialTiming/Line/Segments
   digest: The bytes of the scoreboard line and the cut of a stream into address segments. -/

import Mathlib

set_option autoImplicit false
set_option relaxedAutoImplicit false

namespace SerialTiming.Line.Segments

/-- Bit 7 marks an address byte. -/
def isAddress (b : UInt8) : Bool := b &&& 0x80 == 0x80

/-- The channel in bits 1 to 5 of an address byte, sent complemented. -/
def channelOf (address : UInt8) : UInt8 := ~~~(address >>> 1) &&& 0x1F

def controlBitOf (address : UInt8) : UInt8 := address &&& 0x01

/-- Bits 4 to 6 of a data byte tell which digit it carries. -/
def digitNo (b : UInt8) : UInt8 := (b >>> 4) &&& 0x07

/-- The digit itself, sent complemented in the low nibble. -/
def digitOf (b : UInt8) : UInt8 := ~~~b &&& 0x0F

/-- `colorado_channel_length`: the bytes of a complete frame, address byte included. -/
def coloradoChannelLength : Vector UInt8 32 :=
  #v[7, 9, 9, 9, 9, 9, 9, 9, 9, 9, 9, 0, 9, 0, 9, 9, 0, 9, 9, 0, 0, 0, 5, 0, 0, 0, 0, 0, 0, 0, 0, 0]

theorem channelOf_lt (address : UInt8) : (channelOf address).toNat < 32 := by
  simp only [channelOf, UInt8.toNat_and]
  exact Nat.lt_of_le_of_lt Nat.and_le_right (by decide)

theorem controlBitOf_le (address : UInt8) : (controlBitOf address).toNat ≤ 1 := by
  simp only [controlBitOf, UInt8.toNat_and]
  exact Nat.and_le_right

theorem digitNo_le (b : UInt8) : (digitNo b).toNat ≤ 7 := by
  simp only [digitNo, UInt8.toNat_and]
  exact Nat.and_le_right

theorem cell_index {d b : UInt8} (digit : d.toNat ≤ 7) (bit : b.toNat ≤ 1) :
    ((d <<< 1) + b).toNat = 2 * d.toNat + b.toNat := by
  simp only [UInt8.toNat_add, UInt8.toNat_shiftLeft, Nat.shiftLeft_eq]
  simp only [UInt8.toNat_one, Nat.reduceMod, Nat.reducePow]
  omega

/-- An address byte and the data bytes that came after it. -/
structure Segment where
  address : UInt8
  data : List UInt8
  deriving DecidableEq, Repr

namespace Segment

def channel (s : Segment) : UInt8 := channelOf s.address

def controlBit (s : Segment) : UInt8 := controlBitOf s.address

def bytes (s : Segment) : List UInt8 := s.address :: s.data

theorem channel_lt (s : Segment) : s.channel.toNat < 32 := channelOf_lt s.address

def frameLength (s : Segment) : Nat :=
  have inside : s.channel.toNat < 32 := s.channel_lt
  coloradoChannelLength[s.channel.toNat].toNat

/-- A segment counts when it has as many bytes as its channel's frames. -/
def Counts (s : Segment) : Prop := s.data.length + 1 = s.frameLength

instance (s : Segment) : Decidable s.Counts := inferInstanceAs (Decidable (_ = _))

theorem frameLength_le (s : Segment) : s.frameLength ≤ 9 := by
  have table : ∀ i : Fin 32, coloradoChannelLength[i].toNat ≤ 9 := by decide
  exact table ⟨s.channel.toNat, s.channel_lt⟩

theorem Counts.data_length {s : Segment} (counts : s.Counts) : s.data.length ≤ 8 := by
  have bound := s.frameLength_le
  unfold Counts at counts
  omega

end Segment

/-- The bytes before the first address byte, and the segments from there on. -/
def cut : List UInt8 → List UInt8 × List Segment
  | [] => ([], [])
  | b :: rest =>
      if isAddress b then ([], ⟨b, (cut rest).1⟩ :: (cut rest).2) else (b :: (cut rest).1, (cut rest).2)

def segments (bytes : List UInt8) : List Segment := (cut bytes).2

def closedSegments (bytes : List UInt8) : List Segment := (segments bytes).dropLast

/-- The segments that count: closed, and of the length their channel asks for. -/
def countingFrames (bytes : List UInt8) : List Segment := (closedSegments bytes).filter (·.Counts)

/-- The cut loses no byte. -/
theorem cut_join (bytes : List UInt8) :
    bytes = (cut bytes).1 ++ (segments bytes).flatMap Segment.bytes := by
  induction bytes with
  | nil => rfl
  | cons b rest ih =>
      simp only [segments] at ih ⊢
      simp only [cut]
      split
      · simpa [Segment.bytes] using ih
      · simpa using ih

private theorem cut_snoc_address (bytes : List UInt8) {b : UInt8} (address : isAddress b = true) :
    cut (bytes ++ [b]) = ((cut bytes).1, (cut bytes).2 ++ [⟨b, []⟩]) := by
  induction bytes with
  | nil => simp [cut, address]
  | cons c rest ih =>
      simp only [List.cons_append, cut, ih]
      split <;> rfl

theorem segments_snoc_address (bytes : List UInt8) {b : UInt8} (address : isAddress b = true) :
    segments (bytes ++ [b]) = segments bytes ++ [⟨b, []⟩] := by
  simp [segments, cut_snoc_address bytes address]

private theorem cut_snoc_data (bytes : List UInt8) {b : UInt8} (data : isAddress b = false) :
    (segments bytes = [] → cut (bytes ++ [b]) = ((cut bytes).1 ++ [b], [])) ∧
    ∀ done s, segments bytes = done ++ [s] →
      cut (bytes ++ [b]) = ((cut bytes).1, done ++ [⟨s.address, s.data ++ [b]⟩]) := by
  induction bytes with
  | nil => simp [segments, cut, data]
  | cons c rest ih =>
      simp only [segments] at ih ⊢
      simp only [List.cons_append, cut]
      cases first : isAddress c with
      | false =>
          simp only [Bool.false_eq_true, ↓reduceIte]
          constructor
          · intro none
            rw [ih.1 none]
            rfl
          · intro done s split
            rw [ih.2 done s split]
      | true =>
          simp only [↓reduceIte]
          refine ⟨by simp, fun done s split => ?_⟩
          cases done with
          | nil =>
              simp only [List.nil_append, List.cons.injEq] at split
              obtain ⟨rfl, none⟩ := split
              rw [ih.1 none]
              rfl
          | cons t done =>
              simp only [List.cons_append, List.cons.injEq] at split
              obtain ⟨rfl, later⟩ := split
              rw [ih.2 done s later]
              rfl

theorem segments_snoc_lead {bytes : List UInt8} {b : UInt8} (data : isAddress b = false)
    (none : segments bytes = []) : segments (bytes ++ [b]) = [] := by
  rw [segments, (cut_snoc_data bytes data).1 none]

theorem segments_snoc_data {bytes : List UInt8} {b : UInt8} (data : isAddress b = false)
    {done : List Segment} {s : Segment} (last : segments bytes = done ++ [s]) :
    segments (bytes ++ [b]) = done ++ [⟨s.address, s.data ++ [b]⟩] := by
  rw [segments, (cut_snoc_data bytes data).2 done s last]

def continued : List Segment → List UInt8 → List Segment
  | [], _ => []
  | [s], lead => [⟨s.address, s.data ++ lead⟩]
  | s :: t :: rest, lead => s :: continued (t :: rest) lead

theorem continued_nil (ss : List Segment) : continued ss [] = ss := by
  induction ss with
  | nil => rfl
  | cons s rest ih =>
      cases rest with
      | nil => simp [continued]
      | cons t rest => rw [continued, ih]

theorem cut_append (xs ys : List UInt8) :
    cut (xs ++ ys) =
      ((cut xs).1 ++ (match segments xs with | [] => (cut ys).1 | _ :: _ => []),
        continued (segments xs) (cut ys).1 ++ segments ys) := by
  induction xs with
  | nil => simp [cut, segments, continued]
  | cons x xs ih =>
      simp only [segments] at ih ⊢
      simp only [List.cons_append, cut, ih]
      by_cases address : isAddress x = true
      · simp only [address, ↓reduceIte]
        cases (cut xs).2 with
        | nil => simp [continued]
        | cons t rest => simp [continued]
      · simp [address]

theorem cut_data {data : List UInt8} (plain : ∀ x ∈ data, isAddress x = false) (ys : List UInt8) :
    cut (data ++ ys) = (data ++ (cut ys).1, (cut ys).2) := by
  induction data with
  | nil => rfl
  | cons x data ih =>
      have first : isAddress x = false := plain x (by simp)
      simp [cut, first, ih fun y member => plain y (List.mem_cons_of_mem x member)]

theorem segments_append (xs ys : List UInt8) :
    segments (xs ++ ys) = continued (segments xs) (cut ys).1 ++ segments ys := by
  rw [segments, cut_append]

/-- The segments over several streams, one after the other: an open one is taken along. -/
def joined (streams : List (List UInt8)) : List Segment :=
  streams.foldl (fun ss bytes => continued ss (cut bytes).1 ++ segments bytes) []

theorem segments_flatten (streams : List (List UInt8)) : segments streams.flatten = joined streams := by
  have taken (before : List UInt8) : segments (before ++ streams.flatten) =
      streams.foldl (fun ss bytes => continued ss (cut bytes).1 ++ segments bytes) (segments before) := by
    induction streams generalizing before with
    | nil => simp
    | cons bytes streams ih =>
        rw [List.flatten_cons, ← List.append_assoc, ih, segments_append, List.foldl_cons]
  exact taken []

theorem joined_eq_flatMap {streams : List (List UInt8)} (addressed : ∀ bytes ∈ streams, (cut bytes).1 = []) :
    joined streams = streams.flatMap segments := by
  induction streams using List.reverseRecOn with
  | nil => rfl
  | append_singleton streams bytes ih =>
      have before : ∀ bs ∈ streams, (cut bs).1 = [] := fun bs member => addressed bs (by simp [member])
      simp only [joined] at ih ⊢
      rw [List.foldl_append, List.foldl_cons, List.foldl_nil, ih before, addressed bytes (by simp),
        continued_nil]
      simp

theorem countingFrames_nil : countingFrames [] = [] := rfl

theorem countingFrames_snoc_address (bytes : List UInt8) {b : UInt8} (address : isAddress b = true) :
    (segments bytes = [] → countingFrames (bytes ++ [b]) = []) ∧
    ∀ done s, segments bytes = done ++ [s] →
      countingFrames (bytes ++ [b]) = countingFrames bytes ++ if s.Counts then [s] else [] := by
  constructor
  · intro none
    simp [countingFrames, closedSegments, segments_snoc_address bytes address, none]
  · intro done s last
    simp only [countingFrames, closedSegments, segments_snoc_address bytes address, last,
      List.dropLast_concat, List.filter_append]
    congr 1
    by_cases counts : s.Counts <;> simp [counts]

theorem countingFrames_snoc_data (bytes : List UInt8) {b : UInt8} (data : isAddress b = false) :
    countingFrames (bytes ++ [b]) = countingFrames bytes := by
  rcases List.eq_nil_or_concat' (segments bytes) with none | ⟨done, s, last⟩
  · simp [countingFrames, closedSegments, segments_snoc_lead data none, none]
  · simp [countingFrames, closedSegments, segments_snoc_data data last, last]

/-- The next byte completes no frame, or it is an address byte and completes the open one. -/
theorem countingFrames_snoc (bytes : List UInt8) (b : UInt8) :
    countingFrames (bytes ++ [b]) = countingFrames bytes ∨
    ∃ f, isAddress b = true ∧ (segments bytes).getLast? = some f ∧ f.Counts ∧
      countingFrames (bytes ++ [b]) = countingFrames bytes ++ [f] := by
  cases kind : isAddress b with
  | false => exact .inl (countingFrames_snoc_data bytes kind)
  | true =>
      obtain ⟨first, later⟩ := countingFrames_snoc_address bytes kind
      rcases List.eq_nil_or_concat' (segments bytes) with none | ⟨done, s, last⟩
      · refine .inl ((first none).trans ?_)
        simp [countingFrames, closedSegments, none]
      · by_cases counts : s.Counts
        · exact .inr ⟨s, rfl, by simp [last], counts, by rw [later done s last, if_pos counts]⟩
        · exact .inl (by rw [later done s last, if_neg counts, List.append_nil])

theorem countingFrames_prefix {xs ys : List UInt8} (shorter : xs <+: ys) :
    countingFrames xs <+: countingFrames ys := by
  obtain ⟨more, rfl⟩ := shorter
  induction more using List.reverseRecOn with
  | nil => simp
  | append_singleton more b ih =>
      rw [← List.append_assoc]
      rcases countingFrames_snoc (xs ++ more) b with same | ⟨f, _, _, _, added⟩
      · rw [same]
        exact ih
      · rw [added]
        exact ih.trans (List.prefix_append _ _)

/-- Every counting frame was completed by one byte, when exactly the frames before it had been. -/
theorem countingFrames_split {bytes : List UInt8} {before later : List Segment} {f : Segment}
    (frames : countingFrames bytes = before ++ f :: later) :
    ∃ received a, received ++ [a] <+: bytes ∧ countingFrames received = before ∧
      countingFrames (received ++ [a]) = before ++ [f] := by
  induction bytes using List.reverseRecOn generalizing later with
  | nil => simp [countingFrames_nil] at frames
  | append_singleton bytes b ih =>
      have shorter {received : List UInt8} {a : UInt8} (prior : received ++ [a] <+: bytes) :
          received ++ [a] <+: bytes ++ [b] := prior.trans (List.prefix_append bytes [b])
      rcases countingFrames_snoc bytes b with same | ⟨last, _, _, _, more⟩
      · obtain ⟨received, a, prior, done⟩ := ih (same.symm.trans frames)
        exact ⟨received, a, shorter prior, done⟩
      · rw [more] at frames
        rcases List.eq_nil_or_concat' later with rfl | ⟨later, l, rfl⟩
        · obtain ⟨first, own⟩ := List.append_inj' frames rfl
          exact ⟨bytes, b, List.prefix_refl _, first, by rw [more, first, own]⟩
        · have split : countingFrames bytes ++ [last] = (before ++ f :: later) ++ [l] := by simpa using frames
          obtain ⟨received, a, prior, done⟩ := ih (List.append_inj' split rfl).1
          exact ⟨received, a, shorter prior, done⟩

theorem continued_concat (done : List Segment) (s : Segment) (lead : List UInt8) :
    continued (done ++ [s]) lead = done ++ [⟨s.address, s.data ++ lead⟩] := by
  induction done with
  | nil => rfl
  | cons t done ih =>
      cases done with
      | nil => rfl
      | cons u done =>
          simp only [List.cons_append, continued] at ih ⊢
          rw [ih]

/-- The open segment of the bytes so far, which more bytes go on with. -/
def pendingSegment (bytes : List UInt8) : Option Segment := (segments bytes).getLast?

theorem pendingSegment_append (xs ys : List UInt8) :
    pendingSegment (xs ++ ys) =
      if segments ys = [] then (pendingSegment xs).map fun s => ⟨s.address, s.data ++ (cut ys).1⟩
      else pendingSegment ys := by
  simp only [pendingSegment, segments_append]
  split
  · rename_i none
    rw [none, List.append_nil]
    rcases List.eq_nil_or_concat' (segments xs) with empty | ⟨done, s, last⟩
    · simp [empty, continued]
    · simp [last, continued_concat]
  · rename_i some
    exact List.getLast?_append_of_ne_nil _ some

def closing (s : Option Segment) (lead : List UInt8) : List Segment :=
  (s.toList.map fun s => ⟨s.address, s.data ++ lead⟩).filter (·.Counts)

/-- The frames that more bytes complete, when `s` is open. -/
def completed (s : Option Segment) (bytes : List UInt8) : List Segment :=
  if segments bytes = [] then [] else closing s (cut bytes).1 ++ countingFrames bytes

/-- More bytes complete the open segment, if one of them is an address byte, and frames of their own. -/
theorem countingFrames_append (xs ys : List UInt8) :
    countingFrames (xs ++ ys) = countingFrames xs ++ completed (pendingSegment xs) ys := by
  simp only [countingFrames, closedSegments, segments_append, completed, pendingSegment]
  rcases List.eq_nil_or_concat' (segments xs) with none | ⟨done, s, last⟩
  · rw [none]
    by_cases alone : segments ys = []
    · simp [continued, alone]
    · simp [continued, alone, closing]
  · rw [last, continued_concat]
    by_cases alone : segments ys = []
    · simp [alone]
    · rw [if_neg alone, List.dropLast_append_of_ne_nil alone, List.dropLast_concat, List.getLast?_concat,
        List.append_assoc, List.filter_append, List.filter_append]
      rfl

end SerialTiming.Line.Segments
