/- module: SerialTiming/Line/Transmission
   digest: Frames as the scoreboard means them, their bytes, and that the line's cut gives back what was sent. -/

import SerialTiming.Line.Segments

set_option autoImplicit false
set_option relaxedAutoImplicit false

namespace SerialTiming.Line.Transmission

open Segments

/-- A digit of a row, with its number. -/
structure Digit where
  number : Fin 8
  value : Fin 16
  deriving DecidableEq, Repr

/-- Where a frame's digits go. Nothing looks at bit 6 of an address byte. -/
structure Address where
  channel : Fin 32
  controlBit : Fin 2
  spare : Fin 2
  deriving DecidableEq, Repr

namespace Digit

def byte (d : Digit) : UInt8 := (UInt8.ofNat d.number.val <<< 4) ||| (~~~(UInt8.ofNat d.value.val) &&& 0x0F)

def ofByte (x : UInt8) : Digit where
  number := ⟨(digitNo x).toNat, Nat.lt_succ_of_le (digitNo_le x)⟩
  value := ⟨(digitOf x).toNat, by
    simp only [digitOf, UInt8.toNat_and]
    exact Nat.lt_of_le_of_lt Nat.and_le_right (by decide)⟩

theorem byte_reads (d : Digit) :
    isAddress d.byte = false ∧ digitNo d.byte = UInt8.ofNat d.number.val ∧
      digitOf d.byte = UInt8.ofNat d.value.val := by
  have table : ∀ n : Fin 8, ∀ v : Fin 16, isAddress (Digit.mk n v).byte = false ∧
      digitNo (Digit.mk n v).byte = UInt8.ofNat n.val ∧ digitOf (Digit.mk n v).byte = UInt8.ofNat v.val := by
    decide +kernel
  exact table d.number d.value

theorem ofByte_byte {x : UInt8} (data : isAddress x = false) : (ofByte x).byte = x := by
  have table : ∀ i : Fin 256, isAddress (UInt8.ofNat i.val) = false →
      (ofByte (UInt8.ofNat i.val)).byte = UInt8.ofNat i.val := by
    decide +kernel
  have own := table ⟨x.toNat, x.toNat_lt⟩
  simp only [UInt8.ofNat_toNat] at own
  exact own data

end Digit

namespace Address

def byte (a : Address) : UInt8 :=
  (0x80 : UInt8) ||| (UInt8.ofNat a.spare.val <<< 6) ||| ((~~~(UInt8.ofNat a.channel.val) &&& 0x1F) <<< 1) |||
    UInt8.ofNat a.controlBit.val

def ofByte (x : UInt8) : Address where
  channel := ⟨(channelOf x).toNat, channelOf_lt x⟩
  controlBit := ⟨(controlBitOf x).toNat, Nat.lt_succ_of_le (controlBitOf_le x)⟩
  spare := ⟨((x >>> 6) &&& 0x01).toNat, by
    simp only [UInt8.toNat_and]
    exact Nat.lt_of_le_of_lt Nat.and_le_right (by decide)⟩

theorem byte_reads (a : Address) :
    isAddress a.byte = true ∧ channelOf a.byte = UInt8.ofNat a.channel.val ∧
      controlBitOf a.byte = UInt8.ofNat a.controlBit.val := by
  have table : ∀ c : Fin 32, ∀ b s : Fin 2, isAddress (Address.mk c b s).byte = true ∧
      channelOf (Address.mk c b s).byte = UInt8.ofNat c.val ∧
        controlBitOf (Address.mk c b s).byte = UInt8.ofNat b.val := by
    decide +kernel
  exact table a.channel a.controlBit a.spare

theorem ofByte_byte {x : UInt8} (address : isAddress x = true) : (ofByte x).byte = x := by
  have table : ∀ i : Fin 256, isAddress (UInt8.ofNat i.val) = true →
      (ofByte (UInt8.ofNat i.val)).byte = UInt8.ofNat i.val := by
    decide +kernel
  have own := table ⟨x.toNat, x.toNat_lt⟩
  simp only [UInt8.ofNat_toNat] at own
  exact own address

end Address

/-- A frame with as many digits as its channel asks for. -/
structure Frame where
  address : Address
  digits : List Digit
  complete : digits.length + 1 = coloradoChannelLength[address.channel].toNat
  deriving DecidableEq, Repr

namespace Frame

def segment (f : Frame) : Segment := ⟨f.address.byte, f.digits.map Digit.byte⟩

def bytes (f : Frame) : List UInt8 := f.segment.bytes

theorem addressed (f : Frame) : isAddress f.segment.address = true := f.address.byte_reads.1

theorem plain (f : Frame) : ∀ x ∈ f.segment.data, isAddress x = false := by
  intro x member
  obtain ⟨d, _, rfl⟩ := List.mem_map.mp member
  exact d.byte_reads.1

theorem counts (f : Frame) : f.segment.Counts := by
  have channel : f.segment.channel.toNat = f.address.channel.val := by
    have told : f.segment.channel = UInt8.ofNat f.address.channel.val := f.address.byte_reads.2.1
    rw [told, UInt8.toNat_ofNat_of_lt']
    exact Nat.lt_of_lt_of_le f.address.channel.isLt (by decide)
  have length : f.segment.data.length = f.digits.length := List.length_map _
  simp only [Segment.Counts, Segment.frameLength, channel, length, f.complete, Fin.getElem_fin]

end Frame

theorem segments_formed (bytes : List UInt8) :
    (∀ x ∈ (cut bytes).1, isAddress x = false) ∧
    ∀ s ∈ segments bytes, isAddress s.address = true ∧ ∀ x ∈ s.data, isAddress x = false := by
  induction bytes with
  | nil => simp [segments, cut]
  | cons b rest ih =>
      obtain ⟨lead, formed⟩ := ih
      simp only [segments, cut]
      split
      · rename_i address
        refine ⟨by simp, fun s member => ?_⟩
        rcases List.mem_cons.mp member with rfl | later
        · exact ⟨address, lead⟩
        · exact formed s later
      · rename_i data
        refine ⟨fun x member => ?_, formed⟩
        rcases List.mem_cons.mp member with rfl | later
        · exact Bool.of_not_eq_true data
        · exact lead x later

theorem formed_frame {s : Segment} (counts : s.Counts) (address : isAddress s.address = true)
    (plain : ∀ x ∈ s.data, isAddress x = false) : ∃ f : Frame, f.segment = s := by
  have digits : (s.data.map Digit.ofByte).map Digit.byte = s.data := by
    rw [List.map_map]
    exact (List.map_congr_left fun x member => Digit.ofByte_byte (plain x member)).trans (List.map_id _)
  refine ⟨⟨Address.ofByte s.address, s.data.map Digit.ofByte, ?_⟩, ?_⟩
  · rw [List.length_map]
    exact counts
  · cases s
    simp_all [Frame.segment, Address.ofByte_byte address]

theorem cut_frames (frames : List Frame) {ys : List UInt8} (addressed : (cut ys).1 = []) :
    cut (frames.flatMap Frame.bytes ++ ys) = ([], frames.map Frame.segment ++ segments ys) := by
  induction frames with
  | nil =>
      rw [List.flatMap_nil, List.nil_append, List.map_nil, List.nil_append, segments, ← addressed]
  | cons f frames ih =>
      rw [List.flatMap_cons, List.append_assoc, Frame.bytes, Segment.bytes, List.cons_append, cut,
        if_pos f.addressed, cut_data f.plain, ih]
      simp

/-- Every frame that is sent and closed is accepted, in the order in which they are sent. -/
theorem countingFrames_sent (frames : List Frame) {ys : List UInt8} (addressed : (cut ys).1 = [])
    (closed : segments ys ≠ []) :
    countingFrames (frames.flatMap Frame.bytes ++ ys) = frames.map Frame.segment ++ countingFrames ys := by
  have all : (frames.map Frame.segment).filter (·.Counts) = frames.map Frame.segment := by
    rw [List.filter_eq_self]
    intro s member
    obtain ⟨f, _, rfl⟩ := List.mem_map.mp member
    simpa using f.counts
  rw [countingFrames, closedSegments, segments, cut_frames frames addressed,
    List.dropLast_append_of_ne_nil closed, List.filter_append, all]
  rfl

/-- The frames stand on the line, in this order and each in one piece. -/
inductive Carries : List Frame → List UInt8 → Prop where
  | nil (rest : List UInt8) : Carries [] rest
  | frame (lead : List UInt8) (f : Frame) {frames : List Frame} {rest : List UInt8} (later : Carries frames rest) :
      Carries (f :: frames) (lead ++ (f.bytes ++ rest))

private theorem carries_segments (pieces : List Segment) (lead tail : List UInt8)
    (formed : ∀ s ∈ pieces, isAddress s.address = true ∧ ∀ x ∈ s.data, isAddress x = false) :
    ∃ frames : List Frame, pieces.filter (·.Counts) = frames.map Frame.segment ∧
      Carries frames (lead ++ (pieces.flatMap Segment.bytes ++ tail)) := by
  induction pieces generalizing lead with
  | nil => exact ⟨[], rfl, .nil _⟩
  | cons s pieces ih =>
      obtain ⟨address, plain⟩ := formed s List.mem_cons_self
      have later : ∀ s ∈ pieces, isAddress s.address = true ∧ ∀ x ∈ s.data, isAddress x = false :=
        fun s member => formed s (List.mem_cons_of_mem _ member)
      by_cases counts : s.Counts
      · obtain ⟨f, rfl⟩ := formed_frame counts address plain
        obtain ⟨frames, same, carries⟩ := ih [] later
        refine ⟨f :: frames, ?_, ?_⟩
        · rw [List.filter_cons_of_pos (by simpa using counts), same, List.map_cons]
        · rw [List.flatMap_cons, List.append_assoc]
          exact .frame lead f carries
      · obtain ⟨frames, same, carries⟩ := ih (lead ++ s.bytes) later
        refine ⟨frames, ?_, ?_⟩
        · rw [List.filter_cons_of_neg (by simpa using counts), same]
        · rw [List.flatMap_cons, List.append_assoc, ← List.append_assoc]
          exact carries

/-- Whatever is accepted was sent: the accepted frames stand on the line. -/
theorem countingFrames_carried (bytes : List UInt8) :
    ∃ frames : List Frame, countingFrames bytes = frames.map Frame.segment ∧ Carries frames bytes := by
  have formed : ∀ s ∈ closedSegments bytes, isAddress s.address = true ∧ ∀ x ∈ s.data, isAddress x = false :=
    fun s closed => (segments_formed bytes).2 s (List.dropLast_subset _ closed)
  obtain ⟨tail, whole⟩ : ∃ tail, (segments bytes).flatMap Segment.bytes =
      (closedSegments bytes).flatMap Segment.bytes ++ tail := by
    rw [closedSegments]
    rcases List.eq_nil_or_concat' (segments bytes) with none | ⟨closed, last, split⟩
    · exact ⟨[], by simp [none]⟩
    · exact ⟨last.bytes, by simp [split]⟩
  obtain ⟨frames, same, carries⟩ := carries_segments (closedSegments bytes) (cut bytes).1 tail formed
  rw [← whole, ← cut_join] at carries
  exact ⟨frames, same, carries⟩

end SerialTiming.Line.Transmission
