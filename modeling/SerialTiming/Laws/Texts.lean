/- module: SerialTiming/Laws/Texts
   digest: What the recorded time, the header text and the rounds text tell about the digits of a row. -/

import Mathlib
import SerialTiming.Laws.Framing
import SerialTiming.Scoreboard.Spelling

set_option autoImplicit false
set_option relaxedAutoImplicit false

namespace SerialTiming.Laws.Texts

open CLib.Objects CLib.Strings Scoreboard.Display Scoreboard.Clocks Scoreboard.Boards Scoreboard.Answers
open Scoreboard.Spelling Decoder.State Decoder.Lane Decoder.ReadData Framing

/-- Between two memories a row was handed to sendLaneData, and so recorded. -/
def Records (g g' : Globals) : Prop := ∃ m rest, g'.trace = g.trace ++ .sendLaneData m :: rest

private theorem records_time (host : Host) {g : Globals} {b : Board} (shows : Shows g b) (lane : Lane) (row : Row) :
    ∃ g', getLaneTime host lane.number row g = .ok g' ∧
      (Records g g' ↔ announces (b.heat.get lane.index) (b.place.get lane.index) row = true) ∧
      (Records g g' → ∃ b', Shows g' b' ∧ b'.heat.get lane.index = (shortText row).take 8) := by
  obtain ⟨g', result, shown, _, trace⟩ := getLaneTime_does host shows lane row
  refine ⟨g', result, ?_⟩
  rcases onLane_cases b lane row with ⟨told, announced⟩ | ⟨known, silent, _⟩
  · have recorded : Records g g' := by
      rw [announced] at trace
      exact ⟨_, _, trace⟩
    refine ⟨iff_of_true recorded told, fun _ => ⟨_, shown, ?_⟩⟩
    rw [announced, (setLane_record b lane lane _ _).1, if_pos rfl]
    rfl
  · have unrecorded : ¬ Records g g' := by
      rintro ⟨m, rest, handed⟩
      rw [silent, handed] at trace
      simp at trace
    exact ⟨iff_of_false unrecorded (by simp [known]), fun recorded => absurd recorded unrecorded⟩

private theorem announces_time {heat place : List Char} {row : Row} (noPlace : displayedPlace row = 0)
    (shown : ∃ d ∈ displayedTime row, d ≠ 0) : announces heat place row = true ↔ ¬ shortText row = heat := by
  have zero : placeText row = zeroPlace := (placeText_zero row).mpr noPlace
  have time : ¬ shortText row = zeroTime := by
    intro blank
    obtain ⟨d, member, other⟩ := shown
    exact other ((shortText_zero row).mp blank d member)
  by_cases same : shortText row = heat
  · simp [announces, same, zero]
  · simp [announces, same, time]

/-- A second row compares equal to a recorded one exactly when its time is written like the first eight
places of the other's. -/
private theorem compares_written {as bs : Row} :
    shortText as = (shortText bs).take 8 ↔ written (displayedTime as) = (written (displayedTime bs)).take 8 := by
  rw [shortText_spelled, shortText_spelled]
  exact spell_take (small_time as) (small_time bs) 8

theorem headerText_written (a b : Row) :
    headerText a = headerText b ↔ written (displayedHeader a).1 = written (displayedHeader b).1 ∧
      written (displayedHeader a).2 = written (displayedHeader b).2 := by
  rw [headerText_spelled, headerText_spelled, ← spell_inj (small_header a).1 (small_header b).1,
    ← spell_inj (small_header a).2 (small_header b).2]
  constructor
  · intro same
    exact before_separator (spell_separator (by decide) _) (spell_separator (by decide) _)
      (List.append_cancel_left same)
  · rintro ⟨front, back⟩
    rw [front, back]

theorem roundsText_written (a b : Row) :
    roundsText a = roundsText b ↔ written (displayedRounds a) = written (displayedRounds b) := by
  rw [roundsText_spelled, roundsText_spelled]
  exact spell_inj (small_rounds a) (small_rounds b)

/-- Texts and digits. A recorded time, a header text and a rounds text tell the digits of a row as they are
written, every ten as a one and a zero and the recorded time cut to eight places. So they tell the digits
themselves where one of two rows shows no ten, and a recorded time with more than two tens is never met again. -/
theorem texts_tell_written (host : Host) (bytes : List UInt8) (lane : Lane) (a : Row) :
    (∃ g g', run host bytes = .ok g ∧ getLaneTime host lane.number a g = .ok g' ∧
      (Records g g' → ∀ r, ∃ shortdata v g'', printShortdata r = .ok shortdata ∧
        compareTime lane.number shortdata g' = .ok v ∧ getLaneTime host lane.number r g' = .ok g'' ∧
        (displayedPlace r = 0 → (∃ d ∈ displayedTime r, d ≠ 0) → (Records g' g'' ↔ v ≠ 0)) ∧
        (v = 0 ↔ written (displayedTime r) = (written (displayedTime a)).take 8) ∧
        (10 ∉ displayedTime r ∨ 10 ∉ displayedTime a → (v = 0 ↔ displayedTime r = displayedTime a)) ∧
        (displayedTime r = displayedTime a → (v = 0 ↔ (displayedTime a).count 10 ≤ 2)))) ∧
    (∀ r, (headerText r = headerText a ↔ written (displayedHeader r).1 = written (displayedHeader a).1 ∧
          written (displayedHeader r).2 = written (displayedHeader a).2) ∧
        ((10 ∉ (displayedHeader r).1 ∨ 10 ∉ (displayedHeader a).1) →
          (10 ∉ (displayedHeader r).2 ∨ 10 ∉ (displayedHeader a).2) →
          (headerText r = headerText a ↔ displayedHeader r = displayedHeader a)) ∧
        (displayedHeader r = displayedHeader a → headerText r = headerText a)) ∧
    ∀ r, (roundsText r = roundsText a ↔ written (displayedRounds r) = written (displayedRounds a)) ∧
      ((10 ∉ displayedRounds r ∨ 10 ∉ displayedRounds a) →
        (roundsText r = roundsText a ↔ displayedRounds r = displayedRounds a)) ∧
      (displayedRounds r = displayedRounds a → roundsText r = roundsText a) := by
  refine ⟨?_, ?_, ?_⟩
  · obtain ⟨g, ran, tracks⟩ := run_tracks host bytes
    obtain ⟨g', result, _, records⟩ := records_time host tracks.shows lane a
    refine ⟨g, g', ran, result, ?_⟩
    intro recorded r
    obtain ⟨b', shows', heat⟩ := records recorded
    obtain ⟨shortdata, printed, time⟩ := printShortdata_holds r
    obtain ⟨v, compared, meaning⟩ := compareTime_holds shows' lane time
    obtain ⟨g'', again, announced, _⟩ := records_time host shows' lane r
    have six : (displayedTime a).length = 6 := rfl
    refine ⟨shortdata, v, g'', printed, compared, again, ?_, ?_⟩
    · intro noPlace shown
      rw [announced, announces_time noPlace shown, ← meaning]
    rw [heat, compares_written] at meaning
    refine ⟨meaning, ?_, ?_⟩
    · intro single
      rw [meaning]
      exact written_take rfl (by omega) single
    · intro same
      rw [meaning, same, written_take_self, six]
      omega
  · intro r
    refine ⟨headerText_written r a, ?_, ?_⟩
    · intro front back
      have first : written (displayedHeader r).1 = written (displayedHeader a).1 ↔
          (displayedHeader r).1 = (displayedHeader a).1 := written_inj rfl front
      have second : written (displayedHeader r).2 = written (displayedHeader a).2 ↔
          (displayedHeader r).2 = (displayedHeader a).2 := written_inj rfl back
      rw [headerText_written, first, second, Prod.ext_iff]
    · intro same
      rw [headerText_written, same]
      exact ⟨rfl, rfl⟩
  · intro r
    refine ⟨roundsText_written r a, ?_, ?_⟩
    · intro single
      rw [roundsText_written]
      exact written_inj rfl single
    · intro same
      rw [roundsText_written, same]

def tenLast : Row := #v[0, 0, 0, 0, 0, 0, 0, 0, 0, 0, 1, 0, 0, 0, 10, 0]

def tenFirst : Row := #v[0, 0, 0, 0, 0, 0, 0, 0, 0, 0, 10, 0, 1, 0, 0, 0]

def allTens : Row := Vector.replicate 16 10

/-- Different digits with one text, and a recorded time that does not equal itself. -/
theorem texts_confuse_tens :
    ∃ g, run Host.reliable [] = .ok g ∧
      (∃ g', getLaneTime Host.reliable 1 tenLast g = .ok g' ∧ Records g g' ∧
        (printShortdata tenFirst >>= fun shortdata => compareTime 1 shortdata g') = .ok 0 ∧ displayedTime tenFirst ≠ displayedTime tenLast) ∧
      (∃ g' v, getLaneTime Host.reliable 1 allTens g = .ok g' ∧ Records g g' ∧
        (printShortdata allTens >>= fun shortdata => compareTime 1 shortdata g') = .ok v ∧ v ≠ 0) ∧
      (headerText tenFirst = headerText tenLast ∧ displayedHeader tenFirst ≠ displayedHeader tenLast) ∧
      roundsText tenFirst = roundsText tenLast ∧ displayedRounds tenFirst ≠ displayedRounds tenLast := by
  let lane : Lane := ⟨1, by decide⟩
  obtain ⟨g, ran, tracks⟩ := run_tracks Host.reliable []
  have start : Shows g Board.start := tracks.shows
  refine ⟨g, ran, ?_, ?_, by decide, by decide⟩
  · obtain ⟨g', result, announced, records⟩ := records_time Host.reliable start lane tenLast
    have recorded : Records g g' := announced.mpr (by decide)
    obtain ⟨b', shows', heat⟩ := records recorded
    obtain ⟨shortdata, printed, time⟩ := printShortdata_holds tenFirst
    obtain ⟨v, compared, meaning⟩ := compareTime_holds shows' lane time
    have equal : v = 0 := by
      rw [meaning, heat]
      decide
    refine ⟨g', result, recorded, ?_, by decide⟩
    rw [printed, ok_bind, ← equal]
    exact compared
  · obtain ⟨g', result, announced, records⟩ := records_time Host.reliable start lane allTens
    have recorded : Records g g' := announced.mpr (by decide)
    obtain ⟨b', shows', heat⟩ := records recorded
    obtain ⟨shortdata, printed, time⟩ := printShortdata_holds allTens
    obtain ⟨v, compared, meaning⟩ := compareTime_holds shows' lane time
    refine ⟨g', v, result, recorded, by rw [printed, ok_bind]; exact compared, ?_⟩
    rw [ne_eq, meaning, heat]
    decide

end SerialTiming.Laws.Texts
