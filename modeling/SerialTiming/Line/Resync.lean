/- module: SerialTiming/Line/Resync
   digest: What a stretch of bytes can do to the frames around it, and which bytes do nothing at all. -/

import SerialTiming.Line.Transmission

set_option autoImplicit false
set_option relaxedAutoImplicit false

namespace SerialTiming.Line.Resync

open Segments

/-- Lines that have completed the same frames and have the same segment open. -/
structure SameLine (xs ys : List UInt8) : Prop where
  frames : countingFrames xs = countingFrames ys
  pending : pendingSegment xs = pendingSegment ys

namespace SameLine

variable {xs ys : List UInt8}

theorem refl (xs : List UInt8) : SameLine xs xs := ⟨rfl, rfl⟩

theorem trans {zs : List UInt8} (first : SameLine xs ys) (second : SameLine ys zs) : SameLine xs zs :=
  ⟨first.frames.trans second.frames, first.pending.trans second.pending⟩

theorem append (same : SameLine xs ys) (more : List UInt8) : SameLine (xs ++ more) (ys ++ more) := by
  constructor
  · rw [countingFrames_append, countingFrames_append, same.frames, same.pending]
  · rw [pendingSegment_append, pendingSegment_append, same.pending]

end SameLine

theorem bare_rejected (a : UInt8) : ¬ (⟨a, []⟩ : Segment).Counts := by
  have table : ∀ i : Fin 32, coloradoChannelLength[i].toNat ≠ 1 := by decide
  intro counts
  exact table ⟨_, (⟨a, []⟩ : Segment).channel_lt⟩ counts.symm

theorem cut_address {a : UInt8} (address : isAddress a = true) : cut [a] = ([], [⟨a, []⟩]) := by
  simp [cut, address]

theorem pendingSegment_address (xs : List UInt8) {a : UInt8} (address : isAddress a = true) :
    pendingSegment (xs ++ [a]) = some ⟨a, []⟩ := by
  rw [pendingSegment, segments_snoc_address xs address, List.getLast?_concat]

theorem countingFrames_bare {xs : List UInt8} {b : UInt8} (opened : pendingSegment xs = some ⟨b, []⟩) {a : UInt8}
    (address : isAddress a = true) : countingFrames (xs ++ [a]) = countingFrames xs := by
  have none : completed (some ⟨b, []⟩) [a] = [] := by
    have only : segments [a] ≠ [] := by simp [segments, cut_address address]
    have single : countingFrames [a] = [] := by simp [countingFrames, closedSegments, segments, cut_address address]
    rw [completed, if_neg only, single, closing, cut_address address]
    simp [bare_rejected]
  rw [countingFrames_append, opened, none, List.append_nil]

theorem sameLine_again {xs : List UInt8} {a : UInt8} (address : isAddress a = true)
    (opened : pendingSegment xs = some ⟨a, []⟩) : SameLine (xs ++ [a]) xs :=
  ⟨countingFrames_bare opened address, by rw [pendingSegment_address xs address, opened]⟩

/-- Address bytes in front of an address byte do nothing. -/
theorem sameLine_addresses (xs : List UInt8) {as : List UInt8} (addresses : ∀ b ∈ as, isAddress b = true) {a : UInt8}
    (address : isAddress a = true) : SameLine (xs ++ as ++ [a]) (xs ++ [a]) := by
  induction as generalizing xs with
  | nil => rw [List.append_nil]; exact SameLine.refl _
  | cons b as ih =>
      have first : isAddress b = true := addresses b List.mem_cons_self
      have rest := ih (xs ++ [b]) fun c member => addresses c (List.mem_cons_of_mem b member)
      have split : xs ++ b :: as = xs ++ [b] ++ as := by simp
      rw [split]
      refine rest.trans ⟨?_, ?_⟩
      · rw [countingFrames_bare (pendingSegment_address xs first) address, countingFrames_append,
          countingFrames_append xs [a]]
        congr 1
        have only {c : UInt8} (kind : isAddress c = true) (s : Option Segment) :
            completed s [c] = closing s [] := by
          have some : segments [c] ≠ [] := by simp [segments, cut_address kind]
          have single : countingFrames [c] = [] := by simp [countingFrames, closedSegments, segments, cut_address kind]
          rw [completed, if_neg some, single, cut_address kind, List.append_nil]
        rw [only first, only address]
      · rw [pendingSegment_address _ address, pendingSegment_address _ address]

theorem segments_length (bytes : List UInt8) : (segments bytes).length = bytes.countP isAddress := by
  induction bytes with
  | nil => rfl
  | cons b rest ih =>
      simp only [segments] at ih ⊢
      simp only [cut, List.countP_cons]
      split
      · rw [List.length_cons, ih]
      · exact ih

theorem closing_length (s : Option Segment) (lead : List UInt8) : (closing s lead).length ≤ s.toList.length := by
  rw [closing]
  exact (List.length_filter_le _ _).trans_eq (List.length_map _)

private theorem stretch_length (mid lead : List UInt8) :
    (countingFrames mid ++ closing (pendingSegment mid) lead).length ≤ mid.countP isAddress := by
  have closes := closing_length (pendingSegment mid) lead
  have frames : (countingFrames mid).length ≤ (segments mid).length - 1 := by
    rw [countingFrames, ← List.length_dropLast]
    exact List.length_filter_le _ _
  rw [List.length_append, ← segments_length]
  rcases List.eq_nil_or_concat' (segments mid) with none | ⟨done, s, last⟩
  · have nothing : (pendingSegment mid).toList.length = 0 := by rw [pendingSegment, none]; rfl
    omega
  · have one : (pendingSegment mid).toList.length = 1 := by rw [pendingSegment, last, List.getLast?_concat]; rfl
    have some : 0 < (segments mid).length := by simp [last]
    omega

/-- A stretch of bytes in front of an address byte, or of the end, takes part in few frames: the one that was open
before it and one for each address byte in it. What was complete before and what comes after is the same. -/
theorem stretch_confined (xs mid : List UInt8) {ys : List UInt8} (addressed : (cut ys).1 = []) :
    ∃ hit, countingFrames (xs ++ mid ++ ys) = countingFrames xs ++ hit ++ countingFrames ys ∧
      hit.length ≤ mid.countP isAddress + 1 := by
  by_cases ended : segments ys = []
  · -- nothing closes what the stretch leaves open
    have none : countingFrames ys = [] := by simp [countingFrames, closedSegments, ended]
    have last : countingFrames (xs ++ mid ++ ys) = countingFrames (xs ++ mid) := by
      rw [countingFrames_append, completed, if_pos ended, List.append_nil]
    refine ⟨completed (pendingSegment xs) mid, by rw [last, none, List.append_nil, countingFrames_append], ?_⟩
    have own := stretch_length mid []
    have first := closing_length (pendingSegment xs) (cut mid).1
    have opened : (pendingSegment xs).toList.length ≤ 1 := Option.length_toList_le
    rw [completed]
    split
    · exact Nat.zero_le _
    · rw [List.length_append] at own ⊢
      omega
  · have closed : countingFrames (mid ++ ys) =
        countingFrames mid ++ closing (pendingSegment mid) [] ++ countingFrames ys := by
      rw [countingFrames_append, completed, if_neg ended, addressed, List.append_assoc]
    have some : segments (mid ++ ys) ≠ [] := by
      rw [segments_append]
      exact List.append_ne_nil_of_right_ne_nil _ ended
    refine ⟨closing (pendingSegment xs) (cut (mid ++ ys)).1 ++
      (countingFrames mid ++ closing (pendingSegment mid) []), ?_, ?_⟩
    · rw [List.append_assoc, countingFrames_append, completed, if_neg some, closed]
      simp only [List.append_assoc]
    · have own := stretch_length mid []
      have first := closing_length (pendingSegment xs) (cut (mid ++ ys)).1
      have opened : (pendingSegment xs).toList.length ≤ 1 := Option.length_toList_le
      rw [List.length_append]
      omega

end SerialTiming.Line.Resync
