/- module: SerialTiming/Laws/LaneUpdates
   digest: A lane row is announced exactly when it shows a new time or a new place since the last clearing. -/

import Mathlib
import SerialTiming.Laws.Reactions

set_option autoImplicit false
set_option relaxedAutoImplicit false

namespace SerialTiming.Laws.LaneUpdates

open CLib.Strings Line.Segments Scoreboard.Display Scoreboard.Clocks Scoreboard.Boards Scoreboard.Answers
open Decoder.State Decoder.ReadData Framing Machines Reactions

def clears (e : Event) : Bool := sends e == some .header || sends e == some .start || sends e == some .stop

def untilClearing (trace : List Event) : List Event := trace.rdropWhile (!clears ·)

def sinceClearing (trace : List Event) : List Event := trace.rtakeWhile (!clears ·)

/-- The rows that the frames of lane `k` showed since the last clearing of all lanes. -/
def laneRows (k : UInt8) (trace : List Event) : List Row := rowsOf k (untilClearing trace) (sinceClearing trace)

def laneRow (k : UInt8) : Event → Option Row
  | .analyseActiveData lane row => if lane = k then some row else none
  | _ => none

/-- The last place other than zero in the run of rows with time `t` at the end of the rows, or zero. -/
def lastPlace (t : List UInt8) (rows : List Row) : UInt8 :=
  (((rows.rtakeWhile (displayedTime · = t)).map displayedPlace).filter (· ≠ 0)).getLast?.getD 0

/-- A row shows a new time, or with the same time a place that is not zero and is new. -/
def Changed (rows : List Row) (row : Row) : Prop :=
  (∀ last, rows.getLast? = some last → displayedTime last ≠ displayedTime row) ∨
  ((∃ last, rows.getLast? = some last ∧ displayedTime last = displayedTime row) ∧
    displayedPlace row ≠ 0 ∧ displayedPlace row ≠ lastPlace (displayedTime row) rows)

def Blank (row : Row) : Prop := ∀ d ∈ displayedTime row, d = 0

instance (row : Row) : Decidable (Blank row) := inferInstanceAs (Decidable (∀ _, _))

/-- No time digit of the row shows ten. -/
def NoTens (row : Row) : Prop := ∀ d ∈ displayedTime row, d ≠ 10

/-- A lane record tells the time of the last row and the last place of its run. -/
structure Recorded (heat place : List Char) (rows : List Row) : Prop where
  time : heat = (rows.getLast?.map shortText).getD zeroTime
  place : ∀ last, rows.getLast? = some last → ¬ Blank last →
    place = decimal (arg (lastPlace (displayedTime last) rows))

private theorem lastPlace_snoc (rows : List Row) (row : Row) :
    lastPlace (displayedTime row) (rows ++ [row]) =
      if displayedPlace row ≠ 0 then displayedPlace row else lastPlace (displayedTime row) rows := by
  rw [lastPlace, List.rtakeWhile_concat_pos _ _ _ (by simp)]
  by_cases zero : displayedPlace row = 0 <;> simp [zero, lastPlace]

private theorem lastPlace_other {t : List UInt8} {rows : List Row}
    (other : ∀ last, rows.getLast? = some last → displayedTime last ≠ t) : lastPlace t rows = 0 := by
  have none : rows.rtakeWhile (displayedTime · = t) = [] := by
    rw [List.rtakeWhile_eq_nil_iff]
    intro some
    simpa using other _ (List.getLast?_eq_some_getLast some)
  simp [lastPlace, none]

private theorem placeText_spelled (row : Row) : placeText row = decimal (arg (displayedPlace row)) :=
  List.append_nil _

private theorem decimal_arg_inj {a b : UInt8} : decimal (arg a) = decimal (arg b) ↔ a = b :=
  ⟨fun same => UInt8.toNat_inj.mp (decimal_injective same), fun same => by rw [same]⟩

private theorem recordedTime_whole {row : Row} (single : NoTens row) : recordedTime row = shortText row := by
  have six : (shortText row).length = 6 := by
    rw [shortText_digits single]
    rfl
  exact List.take_of_length_le (by omega)

private theorem blank_text (row : Row) : shortText row = zeroTime ↔ Blank row := shortText_zero row

/-- While no ten is about, the record's time is the row's time exactly when it was shown last; a blank
row also equals the record of a lane without rows. -/
private theorem Recorded.sameTime {heat place : List Char} {rows : List Row}
    (recorded : Recorded heat place rows) (singles : ∀ r ∈ rows, NoTens r) {row : Row} (single : NoTens row) :
    shortText row = heat ↔ (rows = [] ∧ Blank row) ∨
      ∃ last, rows.getLast? = some last ∧ displayedTime last = displayedTime row := by
  rw [recorded.time]
  rcases List.eq_nil_or_concat' rows with rfl | ⟨before, last, rfl⟩
  · simp [blank_text]
  · have inj := shortText_inj single (singles last (by simp))
    simp only [List.getLast?_concat, Option.map_some, Option.getD_some, inj, Option.some.injEq,
      exists_eq_left', List.append_eq_nil_iff, List.cons_ne_self, and_false, false_and, false_or]
    exact eq_comm

section
variable {heat place : List Char} {rows : List Row} (recorded : Recorded heat place rows)
  (singles : ∀ r ∈ rows, NoTens r) {row : Row} (single : NoTens row)
include recorded singles single

private theorem sameTime_place {last : Row} (here : rows.getLast? = some last)
    (equal : displayedTime last = displayedTime row) (shown : ¬ Blank row) :
    shortText row = heat ∧ place = decimal (arg (lastPlace (displayedTime row) rows)) := by
  have alsoShown : ¬ Blank last := by
    rw [Blank, equal]
    exact shown
  refine ⟨(recorded.sameTime singles single).mpr (.inr ⟨last, here, equal⟩), ?_⟩
  rw [← equal]
  exact recorded.place last here alsoShown

/-- The handler announces a row that is not blank exactly when it shows a change. -/
private theorem announces_iff (shown : ¬ Blank row) : announces heat place row = true ↔ Changed rows row := by
  by_cases known : ∃ last, rows.getLast? = some last ∧ displayedTime last = displayedTime row
  · obtain ⟨last, here, equal⟩ := known
    obtain ⟨time, holds⟩ := sameTime_place recorded singles single here equal shown
    have old : ¬ ∀ last, rows.getLast? = some last → displayedTime last ≠ displayedTime row :=
      fun all => all last here equal
    simp only [announces, if_pos time, decide_eq_true_eq, ne_eq, placeText_zero, Changed, old, false_or]
    rw [holds, placeText_spelled, decimal_arg_inj]
    constructor
    · rintro ⟨other, place⟩
      exact ⟨⟨last, here, equal⟩, place, other⟩
    · rintro ⟨_, place, other⟩
      exact ⟨other, place⟩
  · have other : ¬ shortText row = heat := by
      rw [recorded.sameTime singles single]
      rintro (⟨_, blank⟩ | same)
      · exact shown blank
      · exact known same
    have fresh : Changed rows row := .inl fun last here equal => known ⟨last, here, equal⟩
    simp only [announces, if_neg other, decide_eq_true_eq, ne_eq, blank_text, shown, not_false_eq_true, fresh]

/-- What the handler leaves in the record is right for the rows with the new one. -/
private theorem recorded_next :
    Recorded
      (if announces heat place row then recordedTime row else if shortText row = heat then heat else zeroTime)
      (if announces heat place row then placeText row else if shortText row = heat then place else zeroPlace)
      (rows ++ [row]) := by
  constructor
  · rw [List.getLast?_concat, Option.map_some, Option.getD_some]
    split
    · exact recordedTime_whole single
    · rename_i silent
      split
      · rename_i same
        exact same.symm
      · rename_i other
        simp only [announces, if_neg other, decide_eq_true_eq, ne_eq, not_not] at silent
        exact silent.symm
  · intro last here shown
    rw [List.getLast?_concat, Option.some.injEq] at here
    subst here
    rw [lastPlace_snoc]
    have decided := announces_iff recorded singles single shown
    by_cases known : ∃ last, rows.getLast? = some last ∧ displayedTime last = displayedTime row
    · obtain ⟨last, here, equal⟩ := known
      obtain ⟨time, holds⟩ := sameTime_place recorded singles single here equal shown
      have old : ¬ ∀ last, rows.getLast? = some last → displayedTime last ≠ displayedTime row :=
        fun all => all last here equal
      simp only [Changed, old, false_or] at decided
      by_cases told : announces heat place row = true
      · rw [if_pos told, if_pos (decided.mp told).2.1, placeText_spelled]
      · rw [if_neg told, if_pos time, holds, decimal_arg_inj]
        split
        · rename_i place
          by_contra other
          exact told (decided.mpr ⟨⟨last, here, equal⟩, place, Ne.symm other⟩)
        · rfl
    · have other : ∀ last, rows.getLast? = some last → displayedTime last ≠ displayedTime row :=
        fun last here equal => known ⟨last, here, equal⟩
      rw [if_pos (decided.mpr (.inl other)), placeText_spelled, lastPlace_other other, decimal_arg_inj]
      split
      · rfl
      · rename_i zero
        exact not_not.mp zero

end

private theorem clearing_quiet (out : List Event) {es : List Event} (quiet : ∀ e ∈ es, clears e = false) :
    untilClearing (out ++ es) = untilClearing out ∧ sinceClearing (out ++ es) = sinceClearing out ++ es := by
  induction es using List.reverseRecOn with
  | nil => simp
  | append_singleton es e ih =>
      obtain ⟨earlier, since⟩ := ih fun e' member => quiet e' (by simp [member])
      have last : (!clears e) = true := by simp [quiet e (by simp)]
      have dropped := List.rdropWhile_concat_pos (!clears ·) (out ++ es) e last
      have kept := List.rtakeWhile_concat_pos (!clears ·) (out ++ es) e last
      rw [← List.append_assoc, untilClearing, dropped, sinceClearing, kept, ← untilClearing, ← sinceClearing, earlier,
        since, List.append_assoc]
      exact ⟨rfl, rfl⟩

private theorem clearing_split (out : List Event) : untilClearing out ++ sinceClearing out = out :=
  List.rdropWhile_append_rtakeWhile

private theorem laneRows_append (k : UInt8) (out : List Event) {es : List Event}
    (quiet : ∀ e ∈ es, clears e = false) : laneRows k (out ++ es) = laneRows k out ++ rowsOf k out es := by
  obtain ⟨earlier, since⟩ := clearing_quiet out quiet
  rw [laneRows, earlier, since, rowsOf_append, clearing_split, laneRows]

private theorem laneRows_clear (k : UInt8) (out : List Event) {e : Event} {es : List Event}
    (clear : clears e = true) (quiet : ∀ e ∈ es, clears e = false) (silent : accepted es = []) :
    laneRows k (out ++ e :: es) = [] := by
  have cleared : laneRows k (out ++ [e]) = [] := by
    have stopped := List.rtakeWhile_concat_neg (!clears ·) out e (by simp [clear])
    rw [laneRows, sinceClearing, stopped]
    rfl
  have split : out ++ e :: es = (out ++ [e]) ++ es := by simp
  rw [split, laneRows_append k _ quiet, cleared, rowsOf_none k silent, List.append_nil]

/-- What a frame does to the lanes: it leaves them alone, clears them all, or gives one lane a row. -/
inductive LaneEffect (b : Board) : Board × List Event → Prop where
  | none (c : Board) (es : List Event) (heat : c.heat = b.heat) (place : c.place = b.place)
      (quiet : ∀ e ∈ es, clears e = false) (noRow : ∀ k, es.filterMap (laneRow k) = []) : LaneEffect b (c, es)
  | clear (c : Board) (front back : List Event) (e : Event) (heat : c.heat = b.clearLanes.heat)
      (place : c.place = b.clearLanes.place) (clear : clears e = true) (quiet : ∀ e ∈ back, clears e = false)
      (noRow : ∀ k, back.filterMap (laneRow k) = []) : LaneEffect b (c, front ++ e :: back)
  | row (c : Board) (es : List Event) (lane : Lane) (row : Row)
      (heat : c.heat = (b.onLane lane row).1.heat) (place : c.place = (b.onLane lane row).1.place)
      (quiet : ∀ e ∈ es, clears e = false)
      (noRow : ∀ k, es.filterMap (laneRow k) = if lane.number = k then [row] else []) : LaneEffect b (c, es)

theorem onLane_quiet (b : Board) (lane : Lane) (row : Row) :
    (∀ e ∈ (b.onLane lane row).2, clears e = false) ∧
    ∀ k, (b.onLane lane row).2.filterMap (laneRow k) = [] := by
  rcases onLane_cases b lane row with ⟨_, told⟩ | ⟨_, silent, _⟩
  · simp only [told, Board.laneEvents]
    split <;> simp [clears, sends, laneRow]
  · simp [silent]

theorem onTime_quiet (b : Board) (row : Row) :
    (∀ e ∈ (b.onTime row).2, clears e = false) ∧ ∀ k, (b.onTime row).2.filterMap (laneRow k) = [] := by
  rcases onTime_cases b row with ⟨_, counts⟩ | ⟨_, samples⟩
  · simp [counts]
  · simp [samples, clears, sends, laneRow]

theorem onRounds_quiet (b : Board) (row : Row) :
    (∀ e ∈ (b.onRounds row).2, clears e = false) ∧ ∀ k, (b.onRounds row).2.filterMap (laneRow k) = [] := by
  simp only [Board.onRounds]
  split <;> simp [clears, sends, laneRow]

theorem frame_laneEffect (b : Board) (f : Segment) : LaneEffect (b.stored f) (b.frame f) := by
  have reply := frame_reply b f
  generalize b.frame f = answer at reply
  cases reply with
  | lane lane number =>
      obtain ⟨quiet, noRow⟩ := onLane_quiet (b.stored f) lane (b.read f)
      refine .row _ _ lane (b.read f) rfl rfl ?_ fun k => ?_
      · simpa [clears, sends] using quiet
      · rw [List.filterMap_cons_none rfl]
        have called : laneRow k (.analyseActiveData lane.number (b.read f)) =
          if lane.number = k then some (b.read f) else none := rfl
        by_cases same : lane.number = k
        · rw [if_pos same] at called ⊢
          rw [List.filterMap_cons_some called, noRow k]
        · rw [if_neg same] at called ⊢
          rw [List.filterMap_cons_none called, noRow k]
  | clock channel =>
      obtain ⟨quiet, noRow⟩ := onTime_quiet ((b.stored f).onStartStop (b.read f)).1 (b.read f)
      obtain ⟨clock, rest⟩ := onTime_frame ((b.stored f).onStartStop (b.read f)).1 (b.read f)
      have heat := congrArg Board.heat rest
      have place := congrArg Board.place rest
      generalize started : (b.stored f).onStartStop (b.read f) = r at quiet noRow heat place ⊢
      rcases onStartStop_cases (b.stored f) (b.read f) with ⟨_, stays⟩ | ⟨_, switches⟩
      · obtain rfl := started.symm.trans stays
        refine .none _ _ heat place ?_ fun k => ?_
        · simpa [clears, sends] using quiet
        · simp only [List.cons_append, List.nil_append]
          rw [List.filterMap_cons_none rfl, List.filterMap_cons_none rfl, List.filterMap_cons_none rfl]
          exact noRow k
      · obtain rfl := started.symm.trans switches
        refine .clear _ [.accept f, .checkStartStop (b.read f)] _ _ heat place ?_ ?_ fun k => ?_
        · split <;> rfl
        · simpa [clears, sends] using quiet
        · exact (List.filterMap_cons_none rfl).trans (noRow k)
  | header channel =>
      rcases onHeader_cases (b.stored f) (b.read f) with ⟨_, known⟩ | ⟨_, new⟩
      · rw [known]
        exact .none _ _ rfl rfl (by simp [clears, sends]) (by simp [laneRow])
      · rw [new]
        exact .clear _ [.accept f, .getHeader (b.read f), .mqttSend (headerText (b.read f))] [] _ rfl rfl rfl
          (by simp) (by simp)
  | rounds channel =>
      obtain ⟨quiet, noRow⟩ := onRounds_quiet (b.stored f) (b.read f)
      refine .none _ _ rfl rfl (by simpa [clears, sends] using quiet) fun k => ?_
      rw [List.filterMap_cons_none rfl, List.filterMap_cons_none rfl, noRow k]
  | nothing channel => exact .none _ _ rfl rfl (by simp [clears, sends]) (by simp [laneRow])

def Singles (trace : List Event) : Prop := ∀ lane : Lane, ∀ row ∈ rowsOf lane.number [] trace, NoTens row

private theorem Singles.before {out es : List Event} (singles : Singles (out ++ es)) : Singles out := by
  intro lane row member
  apply singles lane row
  rw [rowsOf_append]
  exact List.mem_append_left _ member

private theorem Singles.laneRows {out : List Event} (singles : Singles out) (lane : Lane) :
    ∀ row ∈ laneRows lane.number out, NoTens row := by
  intro row member
  apply singles lane row
  rw [← clearing_split out, rowsOf_append]
  exact List.mem_append_right _ member

/-- The lane records tell the rows since the last clearing. -/
private structure Tells (b : Board) (trace : List Event) : Prop where
  stores : b.cells = cellsOf trace
  records : Singles trace →
    ∀ lane : Lane, Recorded (b.heat.get lane.index) (b.place.get lane.index) (laneRows lane.number trace)

theorem frame_laneRow (b : Board) (f : Segment) (lane : Lane) :
    (b.frame f).2.filterMap (laneRow lane.number) = if f.channel = lane.number then [b.read f] else [] := by
  have called (trace : List Event) :
      trace.filterMap (laneRow lane.number) = (calls trace).filterMap (laneRow lane.number) := by
    have same (e : Event) : (if (!isReport e) = true then laneRow lane.number e else none) = laneRow lane.number e := by
      cases e <;> rfl
    rw [calls, List.filterMap_filter]
    simp only [same]
  have range := lane.inRange
  rw [called, calls_frame, List.filterMap_cons_none rfl, handlers]
  by_cases same : f.channel = lane.number
  · rw [if_pos (same ▸ range), if_pos same]
    simp [laneRow, same]
  · rw [if_neg same]
    repeat' split
    all_goals simp [laneRow, same]

theorem onLane_own (b : Board) (lane : Lane) (row : Row) :
    (b.onLane lane row).1.heat.get lane.index =
      (if announces (b.heat.get lane.index) (b.place.get lane.index) row then recordedTime row
        else if shortText row = b.heat.get lane.index then b.heat.get lane.index else zeroTime) ∧
    (b.onLane lane row).1.place.get lane.index =
      if announces (b.heat.get lane.index) (b.place.get lane.index) row then placeText row
        else if shortText row = b.heat.get lane.index then b.place.get lane.index else zeroPlace := by
  rcases onLane_cases b lane row with ⟨told, announced⟩ | ⟨told, _, quiet⟩
  · simp only [announced, told, setLane_record, ↓reduceIte, and_self]
  · simp only [quiet, told, Bool.false_eq_true, ↓reduceIte]
    split
    · exact ⟨rfl, rfl⟩
    · simp only [setLane_record, ↓reduceIte, and_self]

theorem onLane_other (b : Board) {at_ lane : Lane} (other : at_.number ≠ lane.number) (row : Row) :
    (b.onLane at_ row).1.heat.get lane.index = b.heat.get lane.index ∧
    (b.onLane at_ row).1.place.get lane.index = b.place.get lane.index := by
  have index : ¬ at_.index = lane.index := fun same => other (Lane.index_inj.mp same)
  rcases onLane_cases b at_ row with ⟨_, announced⟩ | ⟨_, _, quiet⟩
  · simp only [announced, setLane_record, if_neg index, and_self]
  · rw [quiet]
    split
    · exact ⟨rfl, rfl⟩
    · simp only [setLane_record, if_neg index, and_self]

private theorem tells_frame {b : Board} {trace : List Event} (f : Segment) (tells : Tells b trace) :
    Tells (b.frame f).1 (trace ++ (b.frame f).2) := by
  obtain ⟨stores, records⟩ := tells
  refine ⟨frame_cellsOf f stores, fun singles lane => ?_⟩
  have before := records singles.before lane
  have all := singles.laneRows lane
  have effect := frame_laneEffect b f
  have rows : rowsOf lane.number trace (b.frame f).2 = (b.frame f).2.filterMap (laneRow lane.number) :=
    (frame_rowsOf f stores).trans (frame_laneRow b f lane).symm
  have behind := @frame_tail b f
  generalize b.frame f = answer at effect all rows behind ⊢
  cases effect with
  | none c es heat place quiet noRow =>
      rw [laneRows_append _ _ quiet, rows, noRow, List.append_nil]
      simp only [heat, place]
      exact before
  | clear c front back e heat place clear quiet noRow =>
      have noFrame : accepts e = none := by
        cases e with
        | accept f => simp [clears, sends] at clear
        | _ => rfl
      rw [← List.append_assoc, laneRows_clear _ _ clear quiet (behind noFrame rfl)]
      simp only [heat, place, Board.clearLanes, Vector.get_replicate]
      exact ⟨rfl, fun last none => by simp at none⟩
  | row c es at_ row heat place quiet given =>
      rw [laneRows_append _ _ quiet, rows, given] at all ⊢
      by_cases same : at_.number = lane.number
      · obtain rfl : at_ = lane := Lane.ext same
        rw [if_pos rfl] at all ⊢
        have own := onLane_own (b.stored f) at_ row
        simp only [heat, place, own]
        exact recorded_next before (fun r member => all r (by simp [member])) (all row (by simp))
      · rw [if_neg same, List.append_nil]
        have other := onLane_other (b.stored f) same row
        simp only [heat, place, other]
        exact before

private theorem tells_after (frames : List Segment) :
    Tells (after frames).1 (.mqttSend greeting :: (after frames).2) := by
  refine after_invariant (fun b out => Tells b (.mqttSend greeting :: out)) ?_ ?_ frames
  · refine ⟨rfl, fun _ lane => ?_⟩
    have none : laneRows lane.number [.mqttSend greeting] = [] := rfl
    rw [none]
    simp only [Board.start, Vector.get_replicate]
    exact ⟨rfl, fun last none => by simp at none⟩
  · intro b out f tells
    exact tells_frame f tells

theorem frame_handed (b : Board) {f : Segment} {lane : Lane} (channel : f.channel = lane.number) :
    handed (b.frame f).2 =
      if announces (b.heat.get lane.index) (b.place.get lane.index) (b.read f) then [laneText lane.number (b.read f)]
      else [] := by
  rw [frame_lane b channel.symm]
  rcases onLane_cases (b.stored f) lane (b.read f) with ⟨announced, gives⟩ | ⟨silent, gives, _⟩
  · have told : announces (b.heat.get lane.index) (b.place.get lane.index) (b.read f) = true := announced
    rw [gives, if_pos told, Board.laneEvents]
    split <;> rfl
  · have quiet : announces (b.heat.get lane.index) (b.place.get lane.index) (b.read f) = false := silent
    rw [gives, quiet]
    rfl

theorem frame_handed_other (b : Board) {f : Segment} (other : ∀ lane : Lane, f.channel ≠ lane.number) :
    handed (b.frame f).2 = [] := by
  have reply := frame_reply b f
  generalize b.frame f = answer at reply
  cases reply with
  | lane lane number => exact absurd number.symm (other lane)
  | clock channel =>
      have switches : handed ((b.stored f).onStartStop (b.read f)).2 = [] := by
        rcases onStartStop_cases (b.stored f) (b.read f) with ⟨_, stays⟩ | ⟨_, changes⟩
        · rw [stays]
          rfl
        · rw [changes]
          rfl
      have times : handed (((b.stored f).onStartStop (b.read f)).1.onTime (b.read f)).2 = [] := by
        rcases onTime_cases ((b.stored f).onStartStop (b.read f)).1 (b.read f) with ⟨_, counts⟩ | ⟨_, samples⟩
        · rw [counts]
          rfl
        · rw [samples]
          rfl
      calc handed (((b.stored f).onStartStop (b.read f)).2 ++
            .getTime (b.read f) :: (((b.stored f).onStartStop (b.read f)).1.onTime (b.read f)).2)
          = handed ((b.stored f).onStartStop (b.read f)).2 ++
              handed (((b.stored f).onStartStop (b.read f)).1.onTime (b.read f)).2 := List.filterMap_append
        _ = [] := by rw [switches, times, List.append_nil]
  | header channel =>
      rcases onHeader_cases (b.stored f) (b.read f) with ⟨_, known⟩ | ⟨_, new⟩
      · rw [known]
        rfl
      · rw [new]
        rfl
  | rounds channel =>
      simp only [Board.onRounds]
      split <;> rfl
  | nothing channel => rfl

/-- Lane updates. On every line on which no lane time shows a ten, an accepted lane frame whose row is not blank
hands one message to sendLaneData if it shows a change since the last clearing of all lanes, the row's, and none
otherwise. No frame of another channel hands over any. -/
theorem announces_changes (host : Host) (bytes : List UInt8) :
    ∃ g, run host bytes = .ok g ∧ accepted g.trace = countingFrames bytes ∧
      (∀ (pre : List Event) (f : Segment) (post : List Event), g.trace = pre ++ .accept f :: post →
        (∀ lane : Lane, f.channel ≠ lane.number) → handed (reaction post) = []) ∧
      (Singles g.trace →
        ∀ (lane : Lane) (pre : List Event) (f : Segment) (post : List Event), g.trace = pre ++ .accept f :: post →
          f.channel = lane.number → ¬ Blank (rowAt pre f) →
          (Changed (laneRows lane.number pre) (rowAt pre f) →
            handed (reaction post) = [laneText lane.number (rowAt pre f)]) ∧
          (¬ Changed (laneRows lane.number pre) (rowAt pre f) → handed (reaction post) = [])) := by
  obtain ⟨g, ran, tracks⟩ := run_tracks host bytes
  refine ⟨g, ran, tracks_accepted tracks, ?_, ?_⟩
  · intro pre f post split other
    obtain ⟨before, later, _, _, events, _⟩ := tracks_reaction tracks split
    have hands := frame_handed_other (after before).1 other
    rw [events] at hands
    exact hands
  · intro singles lane pre f post split channel shown
    obtain ⟨before, later, frames, rfl, events, reads⟩ := tracks_reaction tracks split
    have single : NoTens (rowAt (.mqttSend greeting :: (after before).2) f) := by
      apply singles lane
      rw [split, rowsOf_append, List.nil_append, rowsOf, if_pos channel]
      simp
    have earlier : Singles (.mqttSend greeting :: (after before).2) := by
      rw [split] at singles
      exact singles.before
    have told := (tells_after before).records earlier lane
    have hands := frame_handed (after before).1 channel
    have handles : handed (.accept f :: reaction post) = handed (reaction post) := rfl
    rw [events, handles, reads] at hands
    rw [← announces_iff told (earlier.laneRows lane) single shown, hands]
    exact ⟨fun announced => if_pos announced, fun silent => if_neg silent⟩

def shownFrame : Segment := ⟨0xBC, [0x0E, 0x1C, 0x2F, 0x3F, 0x4C, 0x5E, 0x6D, 0x7A]⟩

/-- A lane frame that shows a time and a place hands over its message, and the same frame behind it none. -/
theorem announces_changes_repeated :
    ∃ g pre mid post, run Host.reliable (shownFrame.bytes ++ shownFrame.bytes ++ [0xBE]) = .ok g ∧
      g.trace = pre ++ .accept shownFrame :: (mid ++ .accept shownFrame :: post) ∧ Singles g.trace ∧
      handed (reaction (mid ++ .accept shownFrame :: post)) = ["lane 1 00:31,25 3".toList] ∧
      handed (reaction post) = [] := by
  obtain ⟨g, ran, _, _, announces⟩ :=
    announces_changes Host.reliable (shownFrame.bytes ++ shownFrame.bytes ++ [0xBE])
  obtain ⟨g₀, ran₀, tracks⟩ := run_tracks Host.reliable (shownFrame.bytes ++ shownFrame.bytes ++ [0xBE])
  obtain rfl : g₀ = g := Except.ok.inj (ran₀.symm.trans ran)
  let row : Row := rowAt [] shownFrame
  let mid : List Event := [.analyseActiveData 1 row, .sendLaneData "lane 1 00:31,25 3".toList]
  let first : List Event := .mqttSend greeting :: .accept shownFrame :: mid
  have trace : g₀.trace = first ++ .accept shownFrame :: [.analyseActiveData 1 row] := by
    rw [tracks.trace]
    decide +kernel
  have again : rowAt first shownFrame = row := by decide +kernel
  have shows : ¬ Blank row := by decide +kernel
  have singles : Singles g₀.trace := by
    intro lane shown member
    have rows : rowsOf lane.number [] (first ++ .accept shownFrame :: [.analyseActiveData 1 row]) =
        (if shownFrame.channel = lane.number then [row] else []) ++
          ((if shownFrame.channel = lane.number then [rowAt first shownFrame] else []) ++ []) := rfl
    rw [trace, rows, again] at member
    obtain rfl : shown = row := by
      split at member
      · simpa using member
      · simp at member
    unfold NoTens
    decide +kernel
  let one : Lane := ⟨1, by decide⟩
  have fresh : Changed (laneRows 1 [.mqttSend greeting]) row := by
    refine .inl ?_
    intro last some
    cases some
  have old : ¬ Changed (laneRows 1 first) (rowAt first shownFrame) := by
    have rows : laneRows 1 first = [row] := by decide +kernel
    have place : displayedPlace row = lastPlace (displayedTime row) [row] := by decide +kernel
    rw [rows, again]
    rintro (changed | ⟨_, _, changed⟩)
    · exact changed row rfl rfl
    · exact changed place
  refine ⟨g₀, [.mqttSend greeting], mid, [.analyseActiveData 1 row], ran, trace, singles, ?_, ?_⟩
  · have told := (announces singles one [.mqttSend greeting] shownFrame _ trace rfl shows).1 fresh
    exact told.trans (by decide +kernel)
  · exact (announces singles one first shownFrame _ trace rfl (again ▸ shows)).2 old

end SerialTiming.Laws.LaneUpdates
