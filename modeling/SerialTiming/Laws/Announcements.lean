/- module: SerialTiming/Laws/Announcements
   digest: How often a header is announced, and the numbers that the rounds are announced with. -/

import Mathlib
import SerialTiming.Laws.Framing
import SerialTiming.Machines.Changes
import SerialTiming.Scoreboard.Spelling

set_option autoImplicit false
set_option relaxedAutoImplicit false

namespace SerialTiming.Laws.Announcements

open CLib.Strings Line.Segments Scoreboard.Display Scoreboard.Clocks Scoreboard.Boards Scoreboard.Answers
open Scoreboard.Spelling Decoder.State Decoder.ReadData Framing Machines Machines.Changes

def messages (kind : Kind) (trace : List Event) : List (List Char) :=
  (trace.filterMap sentText).filter (kindOf · = kind)

@[simp] theorem messages_append (kind : Kind) (xs ys : List Event) :
    messages kind (xs ++ ys) = messages kind xs ++ messages kind ys := by
  simp [messages]

theorem messages_silent (kind : Kind) {e : Event} (es : List Event) (silent : sentText e = none) :
    messages kind (e :: es) = messages kind es := by
  rw [messages, messages, List.filterMap_cons_none silent]

theorem messages_sent {kind : Kind} {m : List Char} (es : List Event) (own : kindOf m = kind) :
    messages kind (.mqttSend m :: es) = m :: messages kind es := by
  simp [messages, sentText, own]

/-- The row of a header frame shows a header, and another one than the last header message. -/
def NewHeader (past : List Event) (row : Row) : Prop :=
  headerText row ≠ blankHeader ∧ (messages .header past).getLast? ≠ some (headerText row)

instance (past : List Event) (row : Row) : Decidable (NewHeader past row) := inferInstanceAs (Decidable (_ ∧ _))

def newHeaders (past : List Event) : List Event → Nat
  | [] => 0
  | .getHeader row :: rest =>
      (if NewHeader past row then 1 else 0) + newHeaders (past ++ [.getHeader row]) rest
  | e :: rest => newHeaders (past ++ [e]) rest

/-- Every new header is announced once, so two header messages in a row are never the same. -/
def AnnouncedOnce (trace : List Event) : Prop :=
  (messages .header trace).length = newHeaders [] trace ∧ (messages .header trace).IsChain (· ≠ ·)

theorem newHeaders_append (past xs ys : List Event) :
    newHeaders past (xs ++ ys) = newHeaders past xs + newHeaders (past ++ xs) ys := by
  fun_induction newHeaders past xs with
  | case1 past => simp
  | case2 past row rest ih => simp [newHeaders, ih, Nat.add_assoc]
  | case3 past e rest other ih => simp [newHeaders, ih]

theorem newHeaders_none {past es : List Event} (none : ∀ row, .getHeader row ∉ es) : newHeaders past es = 0 := by
  fun_induction newHeaders past es with
  | case1 past => rfl
  | case2 past row rest ih => exact absurd (by simp) (none row)
  | case3 past e rest other ih => exact ih fun row member => none row (List.mem_cons_of_mem _ member)

theorem newHeaders_blank {past es : List Event} (blank : ∀ row, .getHeader row ∈ es → headerText row = blankHeader) :
    newHeaders past es = 0 := by
  fun_induction newHeaders past es with
  | case1 past => rfl
  | case2 past row rest ih =>
      have known : ¬ NewHeader past row := fun new => new.1 (blank row (by simp))
      rw [if_neg known, ih fun row member => blank row (List.mem_cons_of_mem _ member)]
  | case3 past e rest other ih => exact ih fun row member => blank row (List.mem_cons_of_mem _ member)

/-- What the recorded header says about the trace: it was announced last, every new header was announced
twice, and a trace without new headers has blank header frames only. -/
private structure Announced (b : Board) (trace : List Event) : Prop where
  last : b.header = (messages .header trace).getLast?
  twice : (messages .header trace).length = 2 * newHeaders [] trace
  blank : newHeaders [] trace = 0 → ∀ row, .getHeader row ∈ trace → headerText row = blankHeader

private theorem messages_none {kind : Kind} {es : List Event} (none : ∀ m, .mqttSend m ∈ es → kindOf m ≠ kind) :
    messages kind es = [] := by
  rw [messages, List.filter_eq_nil_iff]
  intro m member
  obtain ⟨e, inside, sent⟩ := List.mem_filterMap.mp member
  cases e with
  | mqttSend message =>
      obtain rfl : message = m := by simpa [sentText] using sent
      simpa using none message inside
  | _ => simp [sentText] at sent

private theorem header_known {trace : List Event} {row : Row} (known : ¬ NewHeader trace row)
    (none : messages .header trace = []) : headerText row = blankHeader := by
  by_contra shown
  exact known ⟨shown, by simp [none]⟩

/-- A header frame announces its header twice if it is new, and says nothing otherwise. -/
private theorem announced_header {b : Board} {trace : List Event} {f : Segment} (channel : f.channel = 0x0C)
    (announced : Announced b trace) : Announced (b.frame f).1 (trace ++ (b.frame f).2) := by
  obtain ⟨last, twice, blank⟩ := announced
  have quiet (es : List Event) :
      messages .header (.accept f :: .getHeader (b.read f) :: es) = messages .header es := by
    rw [messages_silent _ _ rfl, messages_silent _ _ rfl]
  have same : messages .header (trace ++ [.accept f]) = messages .header trace := by
    rw [messages_append, messages_silent _ _ rfl]
    exact List.append_nil _
  have count (es : List Event) (noRow : ∀ row, .getHeader row ∉ es) :
      newHeaders [] (trace ++ .accept f :: .getHeader (b.read f) :: es) =
        newHeaders [] trace + if NewHeader (trace ++ [.accept f]) (b.read f) then 1 else 0 := by
    rw [newHeaders_append, List.nil_append, newHeaders, newHeaders, newHeaders_none noRow, Nat.add_zero]
    nofun
  have new : NewHeader (trace ++ [.accept f]) (b.read f) ↔
      ¬ (headerText (b.read f) = blankHeader ∨ b.header = some (headerText (b.read f))) := by
    rw [NewHeader, same, last, not_or]
  rw [frame_header b channel]
  rcases onHeader_cases (b.stored f) (b.read f) with ⟨known, stays⟩ | ⟨fresh, sends⟩
  · have old : ¬ NewHeader (trace ++ [.accept f]) (b.read f) := fun told => new.mp told known
    rw [stays]
    have counted := count [] (by simp)
    rw [if_neg old, Nat.add_zero] at counted
    have kept : messages .header (trace ++ [.accept f, .getHeader (b.read f)]) = messages .header trace := by
      rw [messages_append, quiet]
      exact List.append_nil _
    refine ⟨by rw [kept]; exact last, by rw [kept, counted]; exact twice, ?_⟩
    intro none row member
    rw [counted] at none
    rw [List.mem_append, List.mem_cons, List.mem_singleton] at member
    rcases member with earlier | accept | shown
    · exact blank none row earlier
    · cases accept
    · obtain rfl := Event.getHeader.inj shown
      refine header_known old ?_
      rw [same]
      exact List.eq_nil_of_length_eq_zero (by omega)
  · rw [sends]
    have counted := count [.mqttSend (headerText (b.read f)), .mqttSend (headerText (b.read f))] (by simp)
    rw [if_pos (new.mpr fresh)] at counted
    have added : messages .header (trace ++ [.accept f, .getHeader (b.read f), .mqttSend (headerText (b.read f)),
        .mqttSend (headerText (b.read f))]) =
        messages .header trace ++ [headerText (b.read f), headerText (b.read f)] := by
      rw [messages_append, quiet, messages_sent _ (kindOf_header _), messages_sent _ (kindOf_header _)]
      rfl
    refine ⟨?_, ?_, ?_⟩
    · rw [added, List.getLast?_append]
      rfl
    · rw [added, counted, List.length_append, twice]
      simp only [List.length_cons, List.length_nil]
      omega
    · intro none
      rw [counted] at none
      omega

private theorem announced_frame {b : Board} {trace : List Event} (f : Segment) (announced : Announced b trace) :
    Announced (b.frame f).1 (trace ++ (b.frame f).2) := by
  by_cases channel : f.channel = 0x0C
  · exact announced_header channel announced
  · obtain ⟨last, twice, blank⟩ := announced
    have noHeader : messages .header (b.frame f).2 = [] :=
      messages_none fun m sent kind => channel ((frame_channel sent).1 kind)
    have noFrame : ∀ row, .getHeader row ∉ (b.frame f).2 := by
      intro row member
      rcases frame_call member rfl with accept | called
      · cases accept
      · exact channel (getHeader_handlers.mp called).1
    refine ⟨?_, ?_, ?_⟩
    · rw [frame_header_other b channel, messages_append, noHeader, List.append_nil, last]
    · rw [messages_append, noHeader, List.append_nil, newHeaders_append, newHeaders_none noFrame, twice]
      rfl
    · intro none row member
      rw [newHeaders_append, newHeaders_none noFrame] at none
      rcases List.mem_append.mp member with old | new
      · exact blank none row old
      · exact absurd new (noFrame row)

private theorem announced_after (frames : List Segment) :
    Announced (after frames).1 (.mqttSend greeting :: (after frames).2) := by
  refine after_invariant (fun b out => Announced b (.mqttSend greeting :: out)) ?_ ?_ frames
  · have none : messages .header [.mqttSend greeting] = [] := by decide
    exact ⟨by rw [none]; rfl, by rw [none]; rfl, fun _ row member => by simp at member⟩
  · intro b out f announced
    exact announced_frame f announced

/-- Header announcements. On every line each new header is announced once exactly when all header frames
are blank, because every new header goes out twice. -/
theorem headers_announced_once (host : Host) (bytes : List UInt8) :
    ∃ g, run host bytes = .ok g ∧
      (AnnouncedOnce g.trace ↔
        ∀ g₁ f, Meets host bytes g₁ f → f.channel = 0x0C →
          headerText (rowOf (storeFrame g₁.coloradoData f) f) = blankHeader) := by
  obtain ⟨g, ran, tracks⟩ := run_tracks host bytes
  obtain ⟨_, twice, blank⟩ := announced_after (countingFrames bytes)
  rw [← tracks.trace] at twice blank
  have called (row : Row) : .getHeader row ∈ g.trace ↔
      ∃ g₁ f, Meets host bytes g₁ f ∧ f.channel = 0x0C ∧ row = rowOf (storeFrame g₁.coloradoData f) f := by
    rw [called_iff host tracks (e := .getHeader row) rfl rfl]
    simp only [getHeader_handlers]
  refine ⟨g, ran, ?_, ?_⟩
  · rintro ⟨once, _⟩ g₁ f meets channel
    exact blank (by omega) _ ((called _).mpr ⟨g₁, f, meets, channel, rfl⟩)
  · intro blanks
    have none : newHeaders [] g.trace = 0 := by
      apply newHeaders_blank
      intro row member
      obtain ⟨g₁, f, meets, channel, rfl⟩ := (called row).mp member
      exact blanks g₁ f meets channel
    have silent : messages .header g.trace = [] := List.eq_nil_of_length_eq_zero (by omega)
    exact ⟨by rw [silent, none]; rfl, by rw [silent]; exact List.isChain_nil⟩

/-- One header frame on the line, and two header messages with the same text. -/
theorem header_announced_twice :
    ∃ g, run Host.reliable [0xA6, 0x0F, 0x1F, 0x2E, 0x3F, 0x4F, 0x5F, 0x6F, 0x7D, 0x80] = .ok g ∧
      messages .header g.trace = ["header 001 002".toList, "header 001 002".toList] ∧
      newHeaders [] g.trace = 1 ∧ ¬ AnnouncedOnce g.trace := by
  obtain ⟨g, ran, tracks⟩ :=
    run_tracks Host.reliable [0xA6, 0x0F, 0x1F, 0x2E, 0x3F, 0x4F, 0x5F, 0x6F, 0x7D, 0x80]
  have sent : messages .header g.trace = ["header 001 002".toList, "header 001 002".toList] := by
    rw [tracks.trace]
    decide +kernel
  have count : newHeaders [] g.trace = 1 := by
    rw [tracks.trace]
    decide +kernel
  refine ⟨g, ran, sent, count, ?_⟩
  rintro ⟨once, _⟩
  rw [sent, count] at once
  exact absurd once (by decide)

def roundRow : Event → Option Row
  | .storeRounds row => some row
  | _ => none

def roundRows (trace : List Event) : List Row := trace.filterMap roundRow

def roundTexts (trace : List Event) : List (List Char) := (roundRows trace).map roundsText

def AllZero (row : Row) : Prop := ∀ d ∈ displayedRounds row, d = 0

instance (row : Row) : Decidable (AllZero row) := inferInstanceAs (Decidable (∀ _ ∈ _, _))

def sinceZero (rows : List Row) : List Row := rows.rtakeWhile fun row => ¬ AllZero row

/-- The number that belongs to the last row: zero on an all-zero row, and otherwise the text changes since
the last all-zero row, the first row counting as a change. -/
def roundNumber (past : List Row) (row : Row) : Nat :=
  if AllZero row then 0 else changes ((sinceZero (past ++ [row])).map roundsText)

private structure Counted (b : Board) (trace : List Event) : Prop where
  last : b.rounds = (roundTexts trace).getLast?
  number : changes (roundTexts trace) < 2 ^ 31 → b.pRound = count zeroRounds (roundTexts trace)
  sent : changes (roundTexts trace) < 2 ^ 31 →
    messages .round trace = (counts zeroRounds [] (roundTexts trace)).map fun n : Nat => roundText n

private theorem nextRound_succ {n : Nat} (small : n + 1 < 2 ^ 31) : Board.nextRound n = (n + 1 : Nat) := by
  rw [Board.nextRound, Int.bmod_eq_of_le (by omega) (by omega)]
  rfl

private theorem roundTexts_append (xs ys : List Event) :
    roundTexts (xs ++ ys) = roundTexts xs ++ roundTexts ys := by
  simp [roundTexts, roundRows]

private theorem roundTexts_rounds (trace : List Event) (f : Segment) (row : Row) (es : List Event) :
    roundTexts (trace ++ .accept f :: .storeRounds row :: es) =
      roundTexts trace ++ [roundsText row] ++ roundTexts es := by
  have called : roundTexts (.accept f :: .storeRounds row :: es) = roundsText row :: roundTexts es := rfl
  rw [roundTexts_append, called, List.append_assoc, List.singleton_append]

private theorem onRounds_number {b : Board} {past : List (List Char)} {row : Row} (last : b.rounds = past.getLast?)
    (number : b.pRound = count zeroRounds past) (small : changes (past ++ [roundsText row]) < 2 ^ 31) :
    (b.onRounds row).1.pRound = count zeroRounds (past ++ [roundsText row]) := by
  have bound := count_le zeroRounds past
  rw [changes_snoc] at small
  rw [count_snoc]
  simp only [Board.onRounds, last, number]
  split
  · rfl
  · split
    · rename_i same
      have known : ¬ Changed past (roundsText row) := not_not.mpr same
      rw [if_neg known, Nat.add_zero]
    · rename_i new
      have changed : Changed past (roundsText row) := new
      rw [if_pos changed] at small ⊢
      exact nextRound_succ (by omega)

/-- A rounds frame counts its text, and sends the count if the text is new. -/
private theorem counted_rounds {b : Board} {trace : List Event} {f : Segment} (channel : f.channel = 0x12)
    (counted : Counted b trace) : Counted (b.frame f).1 (trace ++ (b.frame f).2) := by
  obtain ⟨last, number, sent⟩ := counted
  rw [frame_rounds b channel]
  have noText : roundTexts ((b.stored f).onRounds (b.read f)).2 = [] := by
    simp only [Board.onRounds]
    split <;> rfl
  have texts : roundTexts (trace ++ .accept f :: .storeRounds (b.read f) :: ((b.stored f).onRounds (b.read f)).2) =
      roundTexts trace ++ [roundsText (b.read f)] := by
    rw [roundTexts_rounds, noText, List.append_nil]
  have fewer (small : changes (roundTexts trace ++ [roundsText (b.read f)]) < 2 ^ 31) :
      changes (roundTexts trace) < 2 ^ 31 := by
    rw [changes_snoc] at small
    omega
  have next (small : changes (roundTexts trace ++ [roundsText (b.read f)]) < 2 ^ 31) :=
    onRounds_number (b := b.stored f) last (number (fewer small)) small
  constructor
  · rw [texts, List.getLast?_concat]
    rfl
  · rw [texts]
    exact next
  · rw [texts]
    intro small
    rw [messages_append, messages_silent _ _ rfl, messages_silent _ _ rfl, sent (fewer small), counts_snoc,
      List.map_append, List.nil_append]
    congr 1
    by_cases changed : Changed (roundTexts trace) (roundsText (b.read f))
    · have new : ¬ (b.stored f).rounds = some (roundsText (b.read f)) := last.symm ▸ changed
      have gives : ((b.stored f).onRounds (b.read f)).2 =
          [.mqttSend (roundText ((b.stored f).onRounds (b.read f)).1.pRound)] := if_neg new
      rw [gives, messages_sent _ (kindOf_round _), next small]
      simp [changed, messages]
    · have known : (b.stored f).rounds = some (roundsText (b.read f)) := last.trans (not_not.mp changed)
      have gives : ((b.stored f).onRounds (b.read f)).2 = [] := if_pos known
      rw [gives]
      simp [changed, messages]

private theorem counted_frame {b : Board} {trace : List Event} (f : Segment) (counted : Counted b trace) :
    Counted (b.frame f).1 (trace ++ (b.frame f).2) := by
  by_cases channel : f.channel = 0x12
  · exact counted_rounds channel counted
  · obtain ⟨last, number, sent⟩ := counted
    obtain ⟨rounds, pRound⟩ := frame_rounds_other b channel
    have noRound : messages .round (b.frame f).2 = [] :=
      messages_none fun m sent kind => channel ((frame_channel sent).2.1 kind)
    have noFrame : roundTexts (b.frame f).2 = [] := by
      rw [roundTexts, List.map_eq_nil_iff, roundRows, List.filterMap_eq_nil_iff]
      intro e member
      cases e with
      | storeRounds row =>
          rcases frame_call member rfl with accept | called
          · cases accept
          · exact absurd (storeRounds_handlers.mp called).1 channel
      | _ => rfl
    constructor
    · rw [rounds, roundTexts_append, noFrame, List.append_nil, last]
    · rw [pRound, roundTexts_append, noFrame, List.append_nil]
      exact number
    · rw [messages_append, noRound, roundTexts_append, noFrame, List.append_nil, List.append_nil]
      exact sent

private theorem counted_after (frames : List Segment) :
    Counted (after frames).1 (.mqttSend greeting :: (after frames).2) := by
  refine after_invariant (fun b out => Counted b (.mqttSend greeting :: out)) ?_ ?_ frames
  · exact ⟨rfl, fun _ => rfl, fun _ => by decide⟩
  · intro b out f counted
    exact counted_frame f counted

private theorem sinceZero_texts (rows : List Row) :
    (sinceZero rows).map roundsText = since zeroRounds (rows.map roundsText) := by
  induction rows using List.reverseRecOn with
  | nil => rfl
  | append_singleton rows row ih =>
      rw [List.map_append, List.map_singleton, since_snoc]
      by_cases zero : AllZero row
      · rw [if_pos ((roundsText_zero row).mpr zero), sinceZero, List.rtakeWhile_concat_neg _ _ _ (by simp [zero])]
        rfl
      · rw [if_neg fun text => zero ((roundsText_zero row).mp text), sinceZero,
          List.rtakeWhile_concat_pos _ _ _ (by simp [zero]), ← sinceZero, List.map_append, ih]
        rfl

private theorem roundNumber_count (past : List Row) (row : Row) :
    roundNumber past row = count zeroRounds (past.map roundsText ++ [roundsText row]) := by
  rw [roundNumber, sinceZero_texts, count, List.map_append, List.map_singleton, since_snoc]
  by_cases zero : AllZero row
  · rw [if_pos zero, if_pos ((roundsText_zero row).mpr zero)]
    rfl
  · rw [if_neg zero]

private theorem onRounds_sends {b : Board} {trace : List Event} {row : Row} (counted : Counted b trace)
    (small : changes (roundTexts trace ++ [roundsText row]) < 2 ^ 31) :
    (b.onRounds row).2 = if Changed (roundTexts trace) (roundsText row)
      then [.mqttSend (roundText (roundNumber (roundRows trace) row))] else [] := by
  have fewer : changes (roundTexts trace) < 2 ^ 31 := Nat.lt_of_le_of_lt (changes_append_le _ _) small
  have number := onRounds_number counted.last (counted.number fewer) small
  rw [roundNumber_count, ← roundTexts, ← number]
  by_cases changed : Changed (roundTexts trace) (roundsText row)
  · have new : ¬ b.rounds = some (roundsText row) := counted.last.symm ▸ changed
    rw [if_pos changed]
    exact if_neg new
  · have known : b.rounds = some (roundsText row) := counted.last.trans (not_not.mp changed)
    rw [if_neg changed]
    exact if_pos known

end SerialTiming.Laws.Announcements
