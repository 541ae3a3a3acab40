/- module: SerialTiming/Scoreboard/Spelling
   digest: What the texts of a row tell about its digits: ten is spelled like a one and a zero. -/

import Mathlib
import SerialTiming.Scoreboard.Display

set_option autoImplicit false
set_option relaxedAutoImplicit false

namespace SerialTiming.Scoreboard.Spelling

open CLib.Strings Display

/-- Some digits printed one after the other, each with `%d`. -/
def spell (digits : List UInt8) : List Char := digits.flatMap fun d => decimal (arg d)

def places (d : UInt8) : List UInt8 := if d = 10 then [1, 0] else [d]

/-- Some digits with a one and a zero in place of every ten. -/
def written (digits : List UInt8) : List UInt8 := digits.flatMap places

/-- What a row shows is ten at most. -/
def Small (digits : List UInt8) : Prop := ∀ d ∈ digits, d.toNat ≤ 10

@[simp] theorem spell_cons (d : UInt8) (digits : List UInt8) :
    spell (d :: digits) = decimal (arg d) ++ spell digits := rfl

@[simp] theorem written_cons (d : UInt8) (digits : List UInt8) :
    written (d :: digits) = places d ++ written digits := rfl

private theorem places_digits {d : UInt8} (small : d.toNat ≤ 10) :
    decimal (arg d) = (places d).map fun p => Nat.digitChar p.toNat := by
  unfold places
  split
  · rename_i ten
    rw [ten]
    decide
  · rename_i other
    have below : d.toNat ≠ 10 := fun ten => other (UInt8.toNat_inj.mp ten)
    exact decimal_digit (by omega)

theorem spell_written {digits : List UInt8} (small : Small digits) :
    spell digits = (written digits).map fun p => Nat.digitChar p.toNat := by
  induction digits with
  | nil => rfl
  | cons d digits ih =>
      rw [spell_cons, written_cons, List.map_append, places_digits (small d (by simp)),
        ih fun e member => small e (List.mem_cons_of_mem d member)]

theorem written_lt {digits : List UInt8} (small : Small digits) : ∀ p ∈ written digits, p.toNat < 10 := by
  intro p member
  obtain ⟨d, inside, place⟩ := List.mem_flatMap.mp member
  have bound := small d inside
  unfold places at place
  split at place
  · rcases List.mem_cons.mp place with rfl | last
    · decide
    · rw [List.mem_singleton.mp last]
      decide
  · rename_i other
    have below : d.toNat ≠ 10 := fun ten => other (UInt8.toNat_inj.mp ten)
    rw [List.mem_singleton.mp place]
    omega

theorem spell_inj {as bs : List UInt8} (first : Small as) (second : Small bs) :
    spell as = spell bs ↔ written as = written bs := by
  rw [spell_written first, spell_written second]
  constructor
  · exact digits_inj (written_lt first) (written_lt second)
  · intro same
    rw [same]

theorem written_length (digits : List UInt8) :
    (written digits).length = digits.length + digits.count 10 := by
  induction digits with
  | nil => rfl
  | cons d digits ih =>
      rw [written_cons, List.length_append, ih, List.length_cons, List.count_cons]
      by_cases ten : d = 10
      · simp only [places, ten, ↓reduceIte, List.length_cons, List.length_nil, beq_self_eq_true]
        omega
      · simp only [places, ten, ↓reduceIte, List.length_cons, List.length_nil, beq_iff_eq]
        omega

theorem written_single {digits : List UInt8} (single : 10 ∉ digits) : written digits = digits := by
  induction digits with
  | nil => rfl
  | cons d digits ih =>
      simp only [List.mem_cons, not_or] at single
      rw [written_cons, ih single.2, places, if_neg (Ne.symm single.1)]
      rfl

/-- A ten on both sides is needed to write different digits alike. -/
theorem written_inj {as bs : List UInt8} (length : as.length = bs.length) (single : 10 ∉ as ∨ 10 ∉ bs) :
    written as = written bs ↔ as = bs := by
  constructor
  · intro same
    have places := congrArg List.length same
    rw [written_length, written_length, length] at places
    have both : 10 ∉ as ∧ 10 ∉ bs := by
      rcases single with first | second
      · have none := List.count_eq_zero.mpr first
        exact ⟨first, List.count_eq_zero.mp (by omega)⟩
      · have none := List.count_eq_zero.mpr second
        exact ⟨List.count_eq_zero.mp (by omega), second⟩
    rwa [written_single both.1, written_single both.2] at same
  · intro same
    rw [same]

theorem spell_take {as bs : List UInt8} (first : Small as) (second : Small bs) (n : Nat) :
    spell as = (spell bs).take n ↔ written as = (written bs).take n := by
  have below : ∀ p ∈ (written bs).take n, p.toNat < 10 := fun p member =>
    written_lt second p (List.mem_of_mem_take member)
  rw [spell_written first, spell_written second, ← List.map_take]
  constructor
  · exact digits_inj (written_lt first) below
  · intro same
    rw [same]

/-- A cut that leaves room for more than the digits keeps them apart as long as one side has no ten. -/
theorem written_take {as bs : List UInt8} {n : Nat} (length : as.length = bs.length) (room : bs.length < n)
    (single : 10 ∉ as ∨ 10 ∉ bs) : written as = (written bs).take n ↔ as = bs := by
  by_cases tens : 10 ∈ bs
  · have first : 10 ∉ as := single.resolve_right (not_not.mpr tens)
    have some : 0 < bs.count 10 := List.count_pos_iff.mpr tens
    constructor
    · intro same
      have longer := congrArg List.length same
      rw [List.length_take, written_length, written_length, List.count_eq_zero.mpr first] at longer
      omega
    · intro same
      exact absurd (same ▸ tens) first
  · have whole : (written bs).take n = bs := by
      rw [written_single tens]
      exact List.take_of_length_le (by omega)
    have inj : written as = written bs ↔ as = bs := written_inj length (.inr tens)
    rw [whole, ← inj, written_single tens]

theorem written_take_self (digits : List UInt8) (n : Nat) :
    written digits = (written digits).take n ↔ digits.length + digits.count 10 ≤ n := by
  rw [eq_comm, List.take_eq_self_iff, written_length]

theorem before_separator {α : Type} {c : α} {as bs xs ys : List α} (first : c ∉ as) (second : c ∉ bs)
    (same : as ++ c :: xs = bs ++ c :: ys) : as = bs ∧ xs = ys := by
  induction as generalizing bs with
  | nil =>
      cases bs with
      | nil => exact ⟨rfl, (List.cons.inj same).2⟩
      | cons b bs => exact absurd (List.cons.inj same).1 (fun head => second (by simp [head]))
  | cons a as ih =>
      cases bs with
      | nil => exact absurd (List.cons.inj same).1 (fun head => first (by simp [head]))
      | cons b bs =>
          simp only [List.mem_cons, not_or] at first second
          obtain ⟨head, tail⟩ := List.cons.inj same
          obtain ⟨front, rest⟩ := ih first.2 second.2 tail
          exact ⟨by rw [head, front], rest⟩

private theorem decimal_isDigit (d : UInt8) : ∀ c ∈ decimal (arg d), c.isDigit = true := by
  intro c member
  exact Nat.isDigit_of_mem_toDigits (by omega) (by omega) member

theorem decimal_separator {c : Char} (separator : c.isDigit = false) (d : UInt8) : c ∉ decimal (arg d) := by
  intro member
  exact absurd (decimal_isDigit d c member) (by simp [separator])

theorem spell_separator {c : Char} (separator : c.isDigit = false) (digits : List UInt8) : c ∉ spell digits := by
  intro member
  obtain ⟨d, _, place⟩ := List.mem_flatMap.mp member
  exact decimal_separator separator d place

def displayedHeader (row : Row) : List UInt8 × List UInt8 :=
  ([checkBitValue (row.get 0), checkBitValue (row.get 2), checkBitValue (row.get 4)],
    [checkBitValue (row.get 10), checkBitValue (row.get 12), checkBitValue (row.get 14)])

def displayedRounds (row : Row) : List UInt8 :=
  [checkBitValue (row.get 0), checkBitValue (row.get 2), checkBitValue (row.get 4), checkBitValue (row.get 6),
    checkBitValue (row.get 8), checkBitValue (row.get 10), checkBitValue (row.get 12), checkBitValue (row.get 14)]

theorem small_displayed (cells : List UInt8) : Small (cells.map checkBitValue) := by
  intro d member
  obtain ⟨cell, _, rfl⟩ := List.mem_map.mp member
  exact checkBitValue_le cell

theorem small_time (row : Row) : Small (displayedTime row) := displayedTime_le

theorem small_rounds (row : Row) : Small (displayedRounds row) :=
  small_displayed [row.get 0, row.get 2, row.get 4, row.get 6, row.get 8, row.get 10, row.get 12, row.get 14]

theorem small_header (row : Row) : Small (displayedHeader row).1 ∧ Small (displayedHeader row).2 :=
  ⟨small_displayed [row.get 0, row.get 2, row.get 4], small_displayed [row.get 10, row.get 12, row.get 14]⟩

theorem shortText_spelled (row : Row) : shortText row = spell (displayedTime row) := rfl

theorem roundsText_spelled (row : Row) : roundsText row = spell (displayedRounds row) := rfl

theorem roundsText_zero (row : Row) : roundsText row = zeroRounds ↔ ∀ d ∈ displayedRounds row, d = 0 := by
  have zeros : zeroRounds = spell (List.replicate 8 0) := by decide
  have small : Small (List.replicate 8 0) := by
    intro d member
    rw [List.eq_of_mem_replicate member]
    decide
  have single : written (displayedRounds row) = written (List.replicate 8 0) ↔
      displayedRounds row = List.replicate 8 0 := written_inj rfl (.inr (by decide))
  rw [roundsText_spelled, zeros, spell_inj (small_rounds row) small, single]
  exact List.eq_replicate_iff.trans (and_iff_right rfl)

theorem headerText_spelled (row : Row) :
    headerText row = "header ".toList ++ (spell (displayedHeader row).1 ++ ' ' :: spell (displayedHeader row).2) := by
  have printed : headerText row = "header ".toList ++ (decimal (shown (row.get 0)) ++ (decimal (shown (row.get 2)) ++
      (decimal (shown (row.get 4)) ++ ' ' :: spell (displayedHeader row).2))) := rfl
  rw [printed]
  simp [displayedHeader, spell, shown]

def minutes (row : Row) : List UInt8 := [checkBitValue (row.get 4), checkBitValue (row.get 6)]

def seconds (row : Row) : List UInt8 := [checkBitValue (row.get 8), checkBitValue (row.get 10)]

def hundredths (row : Row) : List UInt8 := [checkBitValue (row.get 12), checkBitValue (row.get 14)]

theorem displayedTime_parts (row : Row) : displayedTime row = minutes row ++ (seconds row ++ hundredths row) := rfl

/-- The time of a lane row as the lane message prints it. -/
def timeWord (row : Row) : List Char :=
  spell (minutes row) ++ ':' :: (spell (seconds row) ++ ',' :: spell (hundredths row))

theorem laneText_spelled (lane : UInt8) (row : Row) :
    laneText lane row = "lane ".toList ++ (decimal (arg lane) ++ ' ' :: (timeWord row ++ ' ' :: placeText row)) := by
  have printed : laneText lane row = "lane ".toList ++ (decimal (arg lane) ++ ' ' ::
      (decimal (shown (row.get 4)) ++ (decimal (shown (row.get 6)) ++ ':' ::
        (decimal (shown (row.get 8)) ++ (decimal (shown (row.get 10)) ++ ',' ::
          (decimal (shown (row.get 12)) ++ (decimal (shown (row.get 14)) ++ ' ' :: placeText row))))))) := rfl
  rw [printed]
  simp [timeWord, minutes, seconds, hundredths, spell, shown]

theorem numbered_inj {j k : UInt8} {xs ys : List Char}
    (same : decimal (arg j) ++ ' ' :: xs = decimal (arg k) ++ ' ' :: ys) : j = k ∧ xs = ys := by
  have space (lane : UInt8) : ' ' ∉ decimal (arg lane) := decimal_separator (by decide) lane
  obtain ⟨numbers, rest⟩ := before_separator (space j) (space k) same
  exact ⟨UInt8.toNat_inj.mp (decimal_injective numbers), rest⟩

theorem laneText_lane {j k : UInt8} {a b : Row} (same : laneText j a = laneText k b) : j = k := by
  rw [laneText_spelled, laneText_spelled] at same
  exact (numbered_inj (List.append_cancel_left same)).1

def thirdWord (message : List Char) : List Char :=
  let second := (message.dropWhile (· ≠ ' ')).drop 1
  ((second.dropWhile (· ≠ ' ')).drop 1).takeWhile (· ≠ ' ')

theorem timeWord_separator (row : Row) : ' ' ∉ timeWord row := by
  intro member
  simp only [timeWord, List.mem_append, List.mem_cons] at member
  rcases member with time | colon | time | comma | time
  · exact spell_separator (by decide) _ time
  · exact absurd colon (by decide)
  · exact spell_separator (by decide) _ time
  · exact absurd comma (by decide)
  · exact spell_separator (by decide) _ time

theorem thirdWord_lane (lane : UInt8) (row : Row) : thirdWord (laneText lane row) = timeWord row := by
  have number : ∀ c ∈ decimal (arg lane), (decide (c ≠ ' ')) = true := by
    intro c member
    have digit := decimal_isDigit lane c member
    simp only [decide_eq_true_eq]
    rintro rfl
    exact absurd digit (by decide)
  have time : ∀ c ∈ timeWord row, (decide (c ≠ ' ')) = true := by
    intro c member
    simp only [decide_eq_true_eq]
    rintro rfl
    exact timeWord_separator row member
  have lead : (laneText lane row).dropWhile (· ≠ ' ') =
      ' ' :: (decimal (arg lane) ++ ' ' :: (timeWord row ++ ' ' :: placeText row)) := by
    rw [laneText_spelled]
    rfl
  simp only [thirdWord, lead, List.drop_succ_cons, List.drop_zero]
  rw [List.dropWhile_append_of_pos number]
  simp only [ne_eq, not_true, decide_false, Bool.false_eq_true, not_false_eq_true, List.dropWhile_cons_of_neg,
    List.drop_succ_cons, List.drop_zero]
  rw [List.takeWhile_append_of_pos time]
  simp

theorem timeWord_written (a b : Row) :
    timeWord a = timeWord b ↔ written (minutes a) = written (minutes b) ∧
      written (seconds a) = written (seconds b) ∧ written (hundredths a) = written (hundredths b) := by
  have small (row : Row) : Small (minutes row) ∧ Small (seconds row) ∧ Small (hundredths row) :=
    ⟨small_displayed [row.get 4, row.get 6], small_displayed [row.get 8, row.get 10],
      small_displayed [row.get 12, row.get 14]⟩
  rw [← spell_inj (small a).1 (small b).1, ← spell_inj (small a).2.1 (small b).2.1,
    ← spell_inj (small a).2.2 (small b).2.2]
  constructor
  · intro same
    obtain ⟨minutes, rest⟩ := before_separator (spell_separator (by decide) _) (spell_separator (by decide) _) same
    obtain ⟨seconds, hundredths⟩ :=
      before_separator (spell_separator (by decide) _) (spell_separator (by decide) _) rest
    exact ⟨minutes, seconds, hundredths⟩
  · rintro ⟨minutes, seconds, hundredths⟩
    rw [timeWord, timeWord, minutes, seconds, hundredths]

/-- Where one of two time words shows no ten they are the same exactly when the digits are. -/
theorem timeWord_inj {a b : Row} (single : 10 ∉ displayedTime a ∨ 10 ∉ displayedTime b) :
    timeWord a = timeWord b ↔ displayedTime a = displayedTime b := by
  simp only [displayedTime_parts, List.mem_append, not_or] at single
  have front : written (minutes a) = written (minutes b) ↔ minutes a = minutes b :=
    written_inj rfl (single.imp (·.1) (·.1))
  have middle : written (seconds a) = written (seconds b) ↔ seconds a = seconds b :=
    written_inj rfl (single.imp (·.2.1) (·.2.1))
  have back : written (hundredths a) = written (hundredths b) ↔ hundredths a = hundredths b :=
    written_inj rfl (single.imp (·.2.2) (·.2.2))
  rw [timeWord_written, front, middle, back, displayedTime_parts, displayedTime_parts]
  constructor
  · rintro ⟨first, second, third⟩
    rw [first, second, third]
  · intro same
    obtain ⟨first, rest⟩ := List.append_inj same rfl
    exact ⟨first, List.append_inj rest rfl⟩

theorem timeWord_zero (row : Row) : timeWord row = "00:00,00".toList ↔ ∀ d ∈ displayedTime row, d = 0 := by
  let zero : Row := Vector.replicate 16 0
  have spelled : "00:00,00".toList = timeWord zero := by decide
  have digits : displayedTime zero = [0, 0, 0, 0, 0, 0] := by decide
  rw [spelled, timeWord_inj (.inr (by rw [digits]; decide)), digits]
  simp [displayedTime]

/-- A lane message tells the time and the place of its row, unless a ten is about. -/
theorem laneText_digits {j k : UInt8} {a b : Row} (single : 10 ∉ displayedTime a)
    (same : laneText j a = laneText k b) :
    displayedTime a = displayedTime b ∧ displayedPlace a = displayedPlace b := by
  rw [laneText_spelled, laneText_spelled] at same
  obtain ⟨_, rest⟩ := numbered_inj (List.append_cancel_left same)
  obtain ⟨time, place⟩ := before_separator (timeWord_separator a) (timeWord_separator b) rest
  have printed (row : Row) : placeText row = decimal (shown (row.get 2)) := List.append_nil _
  rw [printed, printed] at place
  exact ⟨(timeWord_inj (.inl single)).mp time, shown_inj.mp place⟩

end SerialTiming.Scoreboard.Spelling
