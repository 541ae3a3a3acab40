/- module: SerialTiming/Scoreboard/Display
   digest: The digits a row shows and the texts made of them. -/

import SerialTiming.CLib.Strings

set_option autoImplicit false
set_option relaxedAutoImplicit false

namespace SerialTiming.Scoreboard.Display

open CLib.Strings

/-- One channel's cells in `colorado_data`. -/
abbrev Row := Vector UInt8 16

instance cellNumbers : NeZero 16 := ⟨by decide⟩

def getNullBit : UInt8 := 0x00

/-- Every nibble above ten shows as zero; ten itself stays, for lane 10. -/
def checkBitValue (data : UInt8) : UInt8 := if data > 10 then 0x00 else data

theorem checkBitValue_le (data : UInt8) : (checkBitValue data).toNat ≤ 10 := by
  unfold checkBitValue
  split
  · decide
  · rename_i small
    simpa [UInt8.lt_iff_toNat_lt] using small

def arg (d : UInt8) : Int := (d.toNat : Int)

def shown (data : UInt8) : Int := arg (checkBitValue data)

theorem shown_length (data : UInt8) : (decimal (shown data)).length ≤ 2 :=
  decimal_length_le (by omega) (Nat.lt_of_le_of_lt (checkBitValue_le data) (by decide))

theorem shown_inj {a b : UInt8} : decimal (shown a) = decimal (shown b) ↔ checkBitValue a = checkBitValue b := by
  constructor
  · intro same
    exact UInt8.toNat_inj.mp (decimal_injective same)
  · intro same
    simp [shown, same]

def displayedTime (row : Row) : List UInt8 :=
  [checkBitValue (row.get 4), checkBitValue (row.get 6), checkBitValue (row.get 8),
    checkBitValue (row.get 10), checkBitValue (row.get 12), checkBitValue (row.get 14)]

def displayedPlace (row : Row) : UInt8 := checkBitValue (row.get 2)

/-- The time of a lane row as `shortdata` spells it. -/
def shortText (row : Row) : List Char :=
  format "%d%d%d%d%d%d".toList
    [shown (row.get 4), shown (row.get 6), shown (row.get 8), shown (row.get 10), shown (row.get 12),
      shown (row.get 14)]

def placeText (row : Row) : List Char := format "%d".toList [shown (row.get 2)]

def zeroTime : List Char := "000000".toList

def zeroPlace : List Char := "0".toList

def laneText (lane : UInt8) (row : Row) : List Char :=
  format "lane %d %d%d:%d%d,%d%d %d".toList
    [arg lane, shown (row.get 4), shown (row.get 6), shown (row.get 8), shown (row.get 10),
      shown (row.get 12), shown (row.get 14), shown (row.get 2)]

def timeText (row : Row) : List Char :=
  format "time %d%d:%d%d,%d".toList
    [shown (row.get 4), shown (row.get 6), shown (row.get 8), shown (row.get 10), shown (row.get 12)]

def headerText (row : Row) : List Char :=
  format "header %d%d%d %d%d%d".toList
    [shown (row.get 0), shown (row.get 2), shown (row.get 4), shown (row.get 10), shown (row.get 12),
      shown (row.get 14)]

/-- The header of a blank or all-zero row, which the clock shows between heats. -/
def blankHeader : List Char := "header 000 000".toList

def roundsText (row : Row) : List Char :=
  format "%d%d%d%d%d%d%d%d".toList
    [shown (row.get 0), shown (row.get 2), shown (row.get 4), shown (row.get 6), shown (row.get 8),
      shown (row.get 10), shown (row.get 12), shown (row.get 14)]

def zeroRounds : List Char := "00000000".toList

def roundText (round : Int) : List Char := format "round %d".toList [round]

def startText : List Char := "start".toList

def stopText : List Char := "stop".toList

private theorem shown_small (cells : List UInt8) :
    ∀ n ∈ cells.map shown, (decimal n).length ≤ 2 := by
  intro n member
  obtain ⟨cell, _, rfl⟩ := List.mem_map.mp member
  exact shown_length cell

theorem shortText_length (row : Row) : (shortText row).length ≤ 12 :=
  format_length_le (shown_small [row.get 4, row.get 6, row.get 8, row.get 10, row.get 12, row.get 14])

theorem placeText_length (row : Row) : (placeText row).length ≤ 2 :=
  format_length_le (shown_small [row.get 2])

theorem timeText_length (row : Row) : (timeText row).length ≤ 17 :=
  format_length_le (shown_small [row.get 4, row.get 6, row.get 8, row.get 10, row.get 12])

theorem headerText_length (row : Row) : (headerText row).length ≤ 20 :=
  format_length_le (shown_small [row.get 0, row.get 2, row.get 4, row.get 10, row.get 12, row.get 14])

theorem roundsText_length (row : Row) : (roundsText row).length ≤ 16 :=
  format_length_le
    (shown_small [row.get 0, row.get 2, row.get 4, row.get 6, row.get 8, row.get 10, row.get 12, row.get 14])

theorem laneText_length {lane : UInt8} (row : Row) (small : lane.toNat ≤ 10) :
    (laneText lane row).length ≤ 25 := by
  apply format_length_le
  intro n member
  rcases List.mem_cons.mp member with rfl | member
  · exact decimal_length_le (by omega) (Nat.lt_of_le_of_lt small (by decide))
  · exact shown_small [row.get 4, row.get 6, row.get 8, row.get 10, row.get 12, row.get 14, row.get 2] n member

theorem timeText_length_ge (row : Row) : 12 ≤ (timeText row).length := by
  have long : "time %d%d:%d%d,%d".toList.length ≤ (timeText row).length + 5 := format_length_ge _ _
  have size : "time %d%d:%d%d,%d".toList.length = 17 := by decide
  omega

theorem headerText_length_ge (row : Row) : 14 ≤ (headerText row).length := by
  have long : "header %d%d%d %d%d%d".toList.length ≤ (headerText row).length + 6 := format_length_ge _ _
  have size : "header %d%d%d %d%d%d".toList.length = 20 := by decide
  omega

theorem laneText_length_ge (lane : UInt8) (row : Row) : 17 ≤ (laneText lane row).length := by
  have long : "lane %d %d%d:%d%d,%d%d %d".toList.length ≤ (laneText lane row).length + 8 := format_length_ge _ _
  have size : "lane %d %d%d:%d%d,%d%d %d".toList.length = 25 := by decide
  omega

theorem roundText_length {round : Int} (low : -2 ^ 31 ≤ round) (high : round < 2 ^ 31) :
    (roundText round).length ≤ 17 := by
  have digits (n : Nat) (small : n ≤ 2 ^ 31) : (Nat.toDigits 10 n).length ≤ 10 :=
    (Nat.length_toDigits_le_iff (by omega) (by omega)).mpr (Nat.lt_of_le_of_lt small (by decide))
  have number : (decimal round).length ≤ 11 := by
    cases round with
    | ofNat n =>
        have bound := digits n (by simp only [Int.ofNat_eq_natCast] at high; omega)
        simp only [decimal]
        omega
    | negSucc n =>
        have bound := digits (n + 1) (by omega)
        simp only [decimal, List.length_cons]
        omega
  have spelled : roundText round = "round ".toList ++ (decimal round ++ []) := rfl
  have six : "round ".toList.length = 6 := by decide
  simp only [spelled, List.length_append, List.length_nil, six]
  omega

private theorem digitChar_inj {m n : Nat} (first : m < 10) (second : n < 10) :
    Nat.digitChar m = Nat.digitChar n ↔ m = n := by
  constructor
  · intro same
    have codes := congrArg Char.toNat same
    rw [Nat.toNat_digitChar_of_lt_ten first, Nat.toNat_digitChar_of_lt_ten second] at codes
    omega
  · rintro rfl
    rfl

private theorem shown_digit {data : UInt8} (single : checkBitValue data ≠ 10) :
    decimal (shown data) = [Nat.digitChar (checkBitValue data).toNat] := by
  have bound := checkBitValue_le data
  have other : (checkBitValue data).toNat ≠ 10 := fun ten => single (UInt8.toNat_inj.mp ten)
  exact decimal_digit (by omega)

theorem shortText_digits {row : Row} (single : ∀ d ∈ displayedTime row, d ≠ 10) :
    shortText row = (displayedTime row).map fun d => Nat.digitChar d.toNat := by
  simp only [displayedTime, List.mem_cons, List.not_mem_nil, or_false, forall_eq_or_imp, forall_eq] at single
  obtain ⟨h4, h6, h8, h10, h12, h14⟩ := single
  have spelled : shortText row = decimal (shown (row.get 4)) ++ (decimal (shown (row.get 6)) ++
      (decimal (shown (row.get 8)) ++ (decimal (shown (row.get 10)) ++ (decimal (shown (row.get 12)) ++
        (decimal (shown (row.get 14)) ++ []))))) := rfl
  rw [spelled, shown_digit h4, shown_digit h6, shown_digit h8, shown_digit h10, shown_digit h12,
    shown_digit h14]
  rfl

theorem displayedTime_le {row : Row} : ∀ d ∈ displayedTime row, d.toNat ≤ 10 := by
  simp only [displayedTime, List.mem_cons, List.not_mem_nil, or_false, forall_eq_or_imp, forall_eq]
  exact ⟨checkBitValue_le _, checkBitValue_le _, checkBitValue_le _, checkBitValue_le _,
    checkBitValue_le _, checkBitValue_le _⟩

theorem digits_inj {as bs : List UInt8} (first : ∀ d ∈ as, d.toNat < 10)
    (second : ∀ d ∈ bs, d.toNat < 10)
    (same : as.map (fun d => Nat.digitChar d.toNat) = bs.map fun d => Nat.digitChar d.toNat) :
    as = bs := by
  induction as generalizing bs with
  | nil => exact (List.map_eq_nil_iff.mp same.symm).symm
  | cons a as ih =>
      cases bs with
      | nil => simp at same
      | cons b bs =>
          simp only [List.map_cons, List.cons.injEq] at same
          have head := (digitChar_inj (first a (by simp)) (second b (by simp))).mp same.1
          rw [UInt8.toNat_inj.mp head, ih (fun d m => first d (List.mem_cons_of_mem _ m))
            (fun d m => second d (List.mem_cons_of_mem _ m)) same.2]

/-- Rows without a ten have the same six-digit text exactly when they show the same time. -/
theorem shortText_inj {a b : Row} (first : ∀ d ∈ displayedTime a, d ≠ 10)
    (second : ∀ d ∈ displayedTime b, d ≠ 10) :
    shortText a = shortText b ↔ displayedTime a = displayedTime b := by
  have below {row : Row} (single : ∀ d ∈ displayedTime row, d ≠ 10) :
      ∀ d ∈ displayedTime row, d.toNat < 10 := by
    intro d member
    have bound := displayedTime_le d member
    have other : d.toNat ≠ 10 := fun ten => single d member (UInt8.toNat_inj.mp ten)
    omega
  rw [shortText_digits first, shortText_digits second]
  exact ⟨digits_inj (below first) (below second), fun same => by rw [same]⟩

/-- Only zeros spell the zero time, also when tens are about: "10" has a one in it. -/
theorem shortText_zero (row : Row) :
    shortText row = zeroTime ↔ ∀ d ∈ displayedTime row, d = 0 := by
  have spelled : shortText row = decimal (shown (row.get 4)) ++ (decimal (shown (row.get 6)) ++
      (decimal (shown (row.get 8)) ++ (decimal (shown (row.get 10)) ++ (decimal (shown (row.get 12)) ++
        (decimal (shown (row.get 14)) ++ []))))) := rfl
  have onlyZero (data : UInt8) (zeros : ∀ c ∈ decimal (shown data), c = '0') : checkBitValue data = 0 := by
    have table : ∀ n : Fin 11, (decimal (n.val : Int)).all (· == '0') = true → n = 0 := by decide
    have all : (decimal (shown data)).all (· == '0') = true := by simpa using zeros
    have zero : (checkBitValue data).toNat = 0 :=
      congrArg Fin.val (table ⟨_, Nat.lt_succ_of_le (checkBitValue_le data)⟩ all)
    exact UInt8.toNat_inj.mp zero
  simp only [displayedTime, List.mem_cons, List.not_mem_nil, or_false, forall_eq_or_imp, forall_eq]
  constructor
  · intro same
    have zeros : ∀ c ∈ shortText row, c = '0' := by
      rw [same]
      exact fun c member => List.eq_of_mem_replicate (n := 6) member
    simp only [spelled, List.mem_append, or_imp, forall_and] at zeros
    obtain ⟨z4, z6, z8, z10, z12, z14, -⟩ := zeros
    exact ⟨onlyZero _ z4, onlyZero _ z6, onlyZero _ z8, onlyZero _ z10, onlyZero _ z12, onlyZero _ z14⟩
  · rintro ⟨z4, z6, z8, z10, z12, z14⟩
    simp only [shortText, shown, z4, z6, z8, z10, z12, z14]
    decide

theorem placeText_zero (row : Row) : placeText row = zeroPlace ↔ displayedPlace row = 0 := by
  have spelled : placeText row = decimal (shown (row.get 2)) := List.append_nil _
  have zero : zeroPlace = decimal (shown 0) := by decide
  rw [spelled, zero]
  exact shown_inj

end SerialTiming.Scoreboard.Display
