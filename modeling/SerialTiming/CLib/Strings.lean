/- module: SerialTiming/CLib/Strings
   digest: C strings in fixed buffers: sprintf, strcmp, strncpy and strcpy with every access checked. -/

import Mathlib
import SerialTiming.CLib.Objects

set_option autoImplicit false
set_option relaxedAutoImplicit false

namespace SerialTiming.CLib.Strings

open Objects

/-- A char array. A cell is `none` until the program has written it. -/
abbrev CharBuf := List (Option Char)

def nul : Char := Char.ofNat 0

def unwritten (n : Nat) : CharBuf := List.replicate n none

@[simp] theorem unwritten_length (n : Nat) : (unwritten n).length = n := List.length_replicate

def decimal : Int → List Char
  | .ofNat n => Nat.toDigits 10 n
  | .negSucc n => '-' :: Nat.toDigits 10 (n + 1)

/-- The text of a format string whose only conversions are `%d`. -/
def format : List Char → List Int → List Char
  | '%' :: 'd' :: fmt, n :: args => decimal n ++ format fmt args
  | c :: fmt, args => c :: format fmt args
  | [], _ => []

def overwrite (dst : CharBuf) (bytes : List Char) : Checked CharBuf :=
  if bytes.length ≤ dst.length then .ok (bytes.map some ++ dst.drop bytes.length)
  else .error .outside

def sprintf (dst : CharBuf) (fmt : List Char) (args : List Int) : Checked CharBuf :=
  overwrite dst (format fmt args ++ [nul])

/-- The chars before the first terminator, as strlen and `%s` walk them. -/
def text : CharBuf → Checked (List Char)
  | [] => .error .outside
  | none :: _ => .error .unwritten
  | some c :: rest => if c = nul then .ok [] else do
      let tail ← text rest
      .ok (c :: tail)

/-- The difference of the first two bytes that differ, or 0 where both strings end. -/
def strcmp : CharBuf → CharBuf → Checked Int
  | some a :: s, some b :: t =>
      if a = b then (if a = nul then .ok 0 else strcmp s t)
      else .ok ((a.toNat : Int) - b.toNat)
  | none :: _, _ => .error .unwritten
  | some _ :: _, none :: _ => .error .unwritten
  | some _ :: _, [] => .error .outside
  | [], _ => .error .outside

/-- The `n` bytes strncpy copies: the source up to its end, then terminators. -/
def strncpyBytes : CharBuf → Nat → Checked (List Char)
  | _, 0 => .ok []
  | [], _ + 1 => .error .outside
  | none :: _, _ + 1 => .error .unwritten
  | some c :: src, n + 1 => if c = nul then .ok (List.replicate (n + 1) nul) else do
      let tail ← strncpyBytes src n
      .ok (c :: tail)

def strncpy (dst src : CharBuf) (n : Nat) : Checked CharBuf := do
  let bytes ← strncpyBytes src n
  overwrite dst bytes

def strcpy (dst src : CharBuf) : Checked CharBuf := do
  let s ← text src
  overwrite dst (s ++ [nul])

/-- Reading `b[i]`, which may be a byte that was never written as long as nobody looks at it. -/
def loadByte (b : CharBuf) (i : Nat) : Checked (Option Char) :=
  match b[i]? with
  | some c => .ok c
  | none => .error .outside

def storeByte (b : CharBuf) (i : Nat) (c : Option Char) : Checked CharBuf :=
  if i < b.length then .ok (b.set i c) else .error .outside

def literal (s : List Char) : CharBuf := s.map some ++ [some nul]

/-- The array holds the C string `s`. -/
def Holds (b : CharBuf) (s : List Char) : Prop :=
  nul ∉ s ∧ ∃ rest, b = s.map some ++ some nul :: rest

def Padded (k : Nat) (b : CharBuf) (s : List Char) : Prop :=
  nul ∉ s ∧ s.length < k ∧ ∃ rest, b = (s ++ List.replicate (k - s.length) nul).map some ++ rest

theorem overwrite_ok {dst : CharBuf} {bytes : List Char} (fits : bytes.length ≤ dst.length) :
    overwrite dst bytes = .ok (bytes.map some ++ dst.drop bytes.length) := by
  simp [overwrite, fits]

theorem overwrite_length {dst b : CharBuf} {bytes : List Char}
    (written : overwrite dst bytes = .ok b) : b.length = dst.length := by
  unfold overwrite at written
  split at written
  · obtain rfl := Except.ok.inj written
    simp only [List.length_append, List.length_map, List.length_drop]
    omega
  · cases written

private theorem overwrite_holds {dst : CharBuf} {s : List Char} (clean : nul ∉ s)
    (fits : s.length < dst.length) :
    ∃ b, overwrite dst (s ++ [nul]) = .ok b ∧ Holds b s ∧ b.length = dst.length := by
  have room : (s ++ [nul]).length ≤ dst.length := by
    simp only [List.length_append, List.length_singleton]
    omega
  refine ⟨_, overwrite_ok room, ⟨clean, dst.drop (s ++ [nul]).length, ?_⟩,
    overwrite_length (overwrite_ok room)⟩
  simp

theorem sprintf_holds (dst : CharBuf) (fmt : List Char) (args : List Int)
    (clean : nul ∉ format fmt args) (fits : (format fmt args).length < dst.length) :
    ∃ b, sprintf dst fmt args = .ok b ∧ Holds b (format fmt args) ∧ b.length = dst.length :=
  overwrite_holds clean fits

theorem text_holds {b : CharBuf} {s : List Char} (holds : Holds b s) : text b = .ok s := by
  obtain ⟨clean, rest, rfl⟩ := holds
  induction s with
  | nil => simp [text]
  | cons c s ih =>
      simp only [List.mem_cons, not_or] at clean
      simp [text, Ne.symm clean.1, ih clean.2]

theorem literal_holds {s : List Char} (clean : nul ∉ s) : Holds (literal s) s := ⟨clean, [], rfl⟩

theorem Holds.take {b : CharBuf} {s : List Char} {n : Nat} (holds : Holds b s) (short : s.length < n) :
    Holds (b.take n) s := by
  obtain ⟨clean, rest, rfl⟩ := holds
  obtain ⟨m, rfl⟩ : ∃ m, n = s.length + (m + 1) := ⟨n - s.length - 1, by omega⟩
  refine ⟨clean, rest.take m, ?_⟩
  rw [List.take_append, List.take_of_length_le (by simp)]
  simp

theorem forCount_storeByte {body : Nat → CharBuf → Checked CharBuf} (cells dst : CharBuf)
    (stores : ∀ k b, (h : k < cells.length) → body k b = storeByte b k cells[k])
    (fits : cells.length ≤ dst.length) :
    forCount cells.length body 0 dst = .ok (cells ++ dst.drop cells.length) := by
  have round : ∀ k b, k < cells.length → b = cells.take k ++ dst.drop k →
      ∃ c, body k b = .ok c ∧ c = cells.take (k + 1) ++ dst.drop (k + 1) := by
    rintro k b inside rfl
    have front : (cells.take k).length = k := List.length_take_of_le (by omega)
    have tail : dst.drop k = dst[k] :: dst.drop (k + 1) := List.drop_eq_getElem_cons (by omega)
    have room : k < (cells.take k ++ dst.drop k).length := by
      simp only [List.length_append, front, List.length_drop]
      omega
    refine ⟨_, by rw [stores k _ inside, storeByte, if_pos room], ?_⟩
    rw [List.set_append_right _ _ (by omega), front, Nat.sub_self, tail, List.set_cons_zero,
      List.take_succ_eq_append_getElem inside, List.append_assoc, List.singleton_append]
  obtain ⟨last, result, written⟩ := forCount_invariant (fun k b => b = cells.take k ++ dst.drop k) round
    cells.length 0 dst (Nat.zero_add _) (by simp)
  rw [result, written, List.take_length]

theorem strcpy_holds {dst src : CharBuf} {s : List Char} (holds : Holds src s)
    (fits : s.length < dst.length) :
    ∃ b, strcpy dst src = .ok b ∧ Holds b s ∧ b.length = dst.length := by
  obtain ⟨b, written, result⟩ := overwrite_holds holds.1 fits
  exact ⟨b, by simp [strcpy, text_holds holds, written], result⟩

private theorem difference_ne_zero {x y : Char} (differ : x ≠ y) : ((x.toNat : Int) - y.toNat) ≠ 0 := by
  intro zero
  have same : x.toNat = y.toNat := by omega
  exact differ (Char.toNat_inj.mp same)

theorem strcmp_holds {b c : CharBuf} {s t : List Char} (left : Holds b s) (right : Holds c t) :
    ∃ v, strcmp b c = .ok v ∧ (v = 0 ↔ s = t) := by
  obtain ⟨cleanLeft, restLeft, rfl⟩ := left
  obtain ⟨cleanRight, restRight, rfl⟩ := right
  induction s generalizing t with
  | nil =>
      cases t with
      | nil => exact ⟨0, by simp [strcmp], by simp⟩
      | cons y t =>
          simp only [List.mem_cons, not_or] at cleanRight
          exact ⟨nul.toNat - y.toNat, by simp [strcmp, cleanRight.1], by simpa using difference_ne_zero cleanRight.1⟩
  | cons x s ih =>
      simp only [List.mem_cons, not_or] at cleanLeft
      cases t with
      | nil =>
          have ends : x ≠ nul := Ne.symm cleanLeft.1
          exact ⟨x.toNat - nul.toNat, by simp [strcmp, ends], by simpa using difference_ne_zero ends⟩
      | cons y t =>
          simp only [List.mem_cons, not_or] at cleanRight
          by_cases same : x = y
          · subst same
            obtain ⟨v, value, meaning⟩ := ih cleanLeft.2 cleanRight.2
            exact ⟨v, by simpa [strcmp, Ne.symm cleanLeft.1] using value, by simp [meaning]⟩
          · exact ⟨x.toNat - y.toNat, by simp [strcmp, same], by simpa [same] using difference_ne_zero same⟩

/-- A fill without terminator differs from every string shorter than it. -/
theorem strcmp_fill {b : CharBuf} {s : List Char} {c : Char} {n : Nat} (holds : Holds b s)
    (ends : c ≠ nul) (short : s.length < n) :
    ∃ v, strcmp b (List.replicate n (some c)) = .ok v ∧ v ≠ 0 := by
  obtain ⟨clean, rest, rfl⟩ := holds
  induction s generalizing n with
  | nil =>
      obtain ⟨m, rfl⟩ : ∃ m, n = m + 1 := ⟨n - 1, by simp at short; omega⟩
      exact ⟨nul.toNat - c.toNat, by simp [List.replicate_succ, strcmp, Ne.symm ends],
        difference_ne_zero (Ne.symm ends)⟩
  | cons x s ih =>
      simp only [List.mem_cons, not_or] at clean
      obtain ⟨m, rfl⟩ : ∃ m, n = m + 1 := ⟨n - 1, by simp at short; omega⟩
      simp only [List.length_cons, Nat.add_lt_add_iff_right] at short
      by_cases same : x = c
      · obtain ⟨v, value, nonzero⟩ := ih short clean.2
        exact ⟨v, by simpa [List.replicate_succ, strcmp, same, ends] using value, nonzero⟩
      · exact ⟨x.toNat - c.toNat, by simp [List.replicate_succ, strcmp, same], difference_ne_zero same⟩

theorem strncpyBytes_holds {src : CharBuf} {s : List Char} (holds : Holds src s) (n : Nat) :
    strncpyBytes src n = .ok (s.take n ++ List.replicate (n - s.length) nul) := by
  obtain ⟨clean, rest, rfl⟩ := holds
  revert n
  induction s with
  | nil => intro n; cases n <;> simp [strncpyBytes]
  | cons c s ih =>
      intro n
      simp only [List.mem_cons, not_or] at clean
      cases n with
      | zero => simp [strncpyBytes]
      | succ n => simp [strncpyBytes, Ne.symm clean.1, ih clean.2 n]

theorem Padded.holds {k : Nat} {b : CharBuf} {s : List Char} (padded : Padded k b s) : Holds b s := by
  obtain ⟨clean, short, rest, rfl⟩ := padded
  obtain ⟨m, positive⟩ : ∃ m, k - s.length = m + 1 := ⟨k - s.length - 1, by omega⟩
  refine ⟨clean, (List.replicate m nul).map some ++ rest, ?_⟩
  simp [positive, List.replicate_succ]

theorem Padded.shrink {k l : Nat} {b : CharBuf} {s : List Char} (padded : Padded k b s)
    (less : l ≤ k) (short : s.length < l) : Padded l b s := by
  obtain ⟨clean, _, rest, rfl⟩ := padded
  refine ⟨clean, short, (List.replicate (k - l) nul).map some ++ rest, ?_⟩
  have parts : k - s.length = (l - s.length) + (k - l) := by omega
  rw [parts, List.replicate_add]
  simp only [List.map_append, List.append_assoc]

theorem strncpy_whole (dst : CharBuf) {src : CharBuf} {s : List Char} {n : Nat} (holds : Holds src s)
    (short : s.length < n) (fits : n ≤ dst.length) :
    ∃ b, strncpy dst src n = .ok b ∧ Padded n b s ∧ b.length = dst.length := by
  have bytes := strncpyBytes_holds holds n
  rw [List.take_of_length_le (by omega)] at bytes
  have size : (s ++ List.replicate (n - s.length) nul).length ≤ dst.length := by
    simp only [List.length_append, List.length_replicate]
    omega
  exact ⟨_, by rw [strncpy, bytes, ok_bind, overwrite_ok size],
    ⟨holds.1, short, _, rfl⟩, overwrite_length (overwrite_ok size)⟩

/-- A copy that cuts the source ends at the terminator the array kept in byte `n`. -/
theorem strncpy_cut {dst src : CharBuf} {r s : List Char} {n : Nat} (before : Padded (n + 1) dst r)
    (holds : Holds src s) :
    ∃ b, strncpy dst src n = .ok b ∧ Padded (n + 1) b (s.take n) ∧ b.length = dst.length := by
  obtain ⟨_, short, rest, rfl⟩ := before
  have bytes := strncpyBytes_holds holds n
  generalize copied : s.take n ++ List.replicate (n - s.length) nul = front at bytes
  have size : front.length = n := by
    rw [← copied]
    simp only [List.length_append, List.length_take, List.length_replicate]
    omega
  have split : r ++ List.replicate (n + 1 - r.length) nul =
      (r ++ List.replicate (n - r.length) nul) ++ [nul] := by
    rw [Nat.succ_sub (by omega), List.replicate_succ', List.append_assoc]
  have middle : (r ++ List.replicate (n - r.length) nul).length = n := by
    simp only [List.length_append, List.length_replicate]
    omega
  have tail : (((r ++ List.replicate (n + 1 - r.length) nul).map some : CharBuf) ++ rest).drop n =
      some nul :: rest := by
    rw [split, List.map_append, List.append_assoc, List.drop_left' (by simpa using middle)]
    rfl
  have fits : front.length ≤ ((r ++ List.replicate (n + 1 - r.length) nul).map some ++ rest).length := by
    simp only [List.length_append, List.length_map, List.length_replicate]
    omega
  refine ⟨_, by rw [strncpy, bytes, ok_bind, overwrite_ok fits],
    ⟨fun member => holds.1 (List.mem_of_mem_take member), Nat.lt_succ_of_le (List.length_take_le n s), rest, ?_⟩,
    overwrite_length (overwrite_ok fits)⟩
  have width : n + 1 - (s.take n).length = (n - s.length) + 1 := by
    simp only [List.length_take]
    omega
  rw [size, tail, ← copied, width, List.replicate_succ']
  simp

theorem decimal_clean (n : Int) : nul ∉ decimal n := by
  have digits (m : Nat) : nul ∉ Nat.toDigits 10 m := by
    intro member
    have digit := Nat.isDigit_of_mem_toDigits (by omega) (by omega) member
    exact absurd digit (by decide)
  cases n with
  | ofNat m => exact digits m
  | negSucc m =>
      simp only [decimal, List.mem_cons, not_or]
      exact ⟨by decide, digits (m + 1)⟩

theorem format_clean {fmt : List Char} {args : List Int} (clean : nul ∉ fmt) : nul ∉ format fmt args := by
  fun_induction format fmt args with
  | case1 fmt n args ih =>
      simp only [List.mem_cons, not_or] at clean
      simp [decimal_clean n, ih clean.2.2]
  | case2 c fmt args _ ih =>
      simp only [List.mem_cons, not_or] at clean
      simp [clean.1, ih clean.2]
  | case3 => simp

theorem format_length_le {fmt : List Char} {args : List Int}
    (small : ∀ n ∈ args, (decimal n).length ≤ 2) : (format fmt args).length ≤ fmt.length := by
  fun_induction format fmt args with
  | case1 fmt n args ih =>
      have first := small n (by simp)
      have rest := ih fun m member => small m (List.mem_cons_of_mem _ member)
      simp only [List.length_append, List.length_cons]
      omega
  | case2 c fmt args _ ih =>
      have rest := ih small
      simp only [List.length_cons]
      omega
  | case3 => simp

theorem format_length_ge (fmt : List Char) (args : List Int) : fmt.length ≤ (format fmt args).length + args.length := by
  fun_induction format fmt args with
  | case1 fmt n args ih =>
      have place : 0 < (decimal n).length := by
        cases n with
        | ofNat n => exact Nat.length_toDigits_pos
        | negSucc n => exact Nat.succ_pos _
      simp only [List.length_append, List.length_cons]
      omega
  | case2 c fmt args _ ih =>
      simp only [List.length_cons]
      omega
  | case3 => simp

theorem decimal_injective {m n : Nat} (same : decimal m = decimal n) : m = n := by
  have read (k : Nat) : Nat.ofDigitChars 10 (decimal (k : Int)) 0 = k := Nat.ofDigitChars_ten_toDigits
  rw [← read m, same, read n]

theorem decimal_digit {n : Nat} (small : n < 10) : decimal n = [Nat.digitChar n] :=
  Nat.toDigits_of_lt_base small

theorem decimal_length_le {n k : Nat} (positive : 0 < k) (small : n < 10 ^ k) :
    (decimal n).length ≤ k :=
  (Nat.length_toDigits_le_iff (by omega) positive).mpr small

end SerialTiming.CLib.Strings
