/- module: SerialTiming/Laws/Reactions
   digest: The row that an accepted frame shows, and what the decoder does until it accepts the next one. -/

import SerialTiming.Laws.Framing

set_option autoImplicit false
set_option relaxedAutoImplicit false

namespace SerialTiming.Laws.Reactions

open Line.Segments Scoreboard.Display Scoreboard.Boards Scoreboard.Answers Machines
open Decoder.State Decoder.ReadData Framing

def cellsOf (trace : List Event) : Vector Row 32 := (accepted trace).foldl storeFrame initCells

/-- The row that a frame shows when it is accepted behind `past`. -/
def rowAt (past : List Event) (f : Segment) : Row := rowOf (storeFrame (cellsOf past) f) f

/-- What happens up to the next acceptance. -/
def reaction (post : List Event) : List Event := post.takeWhile fun e => (accepts e).isNone

/-- The rows that the frames of a channel show, when `past` came before. -/
def rowsOf (channel : UInt8) (past : List Event) : List Event → List Row
  | [] => []
  | .accept f :: rest =>
      (if f.channel = channel then [rowAt past f] else []) ++ rowsOf channel (past ++ [.accept f]) rest
  | e :: rest => rowsOf channel (past ++ [e]) rest

def laneMessage : Event → Option (List Char)
  | .sendLaneData mydata => some mydata
  | _ => none

def handed (trace : List Event) : List (List Char) := trace.filterMap laneMessage

variable (channel : UInt8)

theorem rowsOf_append (past xs ys : List Event) :
    rowsOf channel past (xs ++ ys) = rowsOf channel past xs ++ rowsOf channel (past ++ xs) ys := by
  fun_induction rowsOf channel past xs with
  | case1 past => simp
  | case2 past f rest ih => simp [rowsOf, ih]
  | case3 past e rest other ih => simp [rowsOf, ih]

theorem rowsOf_none {past es : List Event} (silent : accepted es = []) : rowsOf channel past es = [] := by
  fun_induction rowsOf channel past es with
  | case1 past => rfl
  | case2 past f rest ih => simp [accepted, accepts] at silent
  | case3 past e rest other ih =>
      have quiet : accepts e = none := by
        cases e with
        | accept f => exact absurd rfl (other f)
        | _ => rfl
      apply ih
      rwa [accepted, List.filterMap_cons_none quiet] at silent

theorem cellsOf_append (past es : List Event) : cellsOf (past ++ es) = (accepted es).foldl storeFrame (cellsOf past) := by
  rw [cellsOf, accepted_append, List.foldl_append]
  rfl

variable {channel} {b : Board} {past : List Event}

theorem frame_cellsOf (f : Segment) (stores : b.cells = cellsOf past) :
    (b.frame f).1.cells = cellsOf (past ++ (b.frame f).2) := by
  rw [cellsOf_append, accepted_frame, frame_cells, stores]
  rfl

theorem read_rowAt (f : Segment) (stores : b.cells = cellsOf past) : b.read f = rowAt past f := by
  rw [Board.read, stores]
  rfl

theorem frame_behind (b : Board) (f : Segment) :
    ∃ es, (b.frame f).2 = .accept f :: es ∧ accepted es = [] := by
  refine ⟨((b.stored f).dispatch f.channel (b.read f)).2, rfl, ?_⟩
  have one : f :: accepted ((b.stored f).dispatch f.channel (b.read f)).2 = [f] := accepted_frame b f
  simpa using one

theorem frame_tail {f : Segment} {front back : List Event} {e : Event} (noFrame : accepts e = none)
    (place : (b.frame f).2 = front ++ e :: back) : accepted back = [] := by
  obtain ⟨es, events, none⟩ := frame_behind b f
  rw [events] at place
  cases front with
  | nil =>
      simp only [List.nil_append, List.cons.injEq] at place
      obtain ⟨rfl, _⟩ := place
      simp [accepts] at noFrame
  | cons first front =>
      simp only [List.cons_append, List.cons.injEq] at place
      rw [place.2, accepted_append] at none
      have rest := (List.append_eq_nil_iff.mp none).2
      rwa [accepted, List.filterMap_cons_none noFrame] at rest

theorem frame_rowsOf (f : Segment) (stores : b.cells = cellsOf past) :
    rowsOf channel past (b.frame f).2 = if f.channel = channel then [b.read f] else [] := by
  obtain ⟨es, events, none⟩ := frame_behind b f
  rw [events, rowsOf, rowsOf_none _ none, List.append_nil, read_rowAt f stores]

theorem after_cellsOf (frames : List Segment) :
    (after frames).1.cells = cellsOf (.mqttSend greeting :: (after frames).2) := by
  refine after_invariant (fun b out => b.cells = cellsOf (.mqttSend greeting :: out)) rfl ?_ frames
  intro b out f stores
  exact frame_cellsOf f stores

private theorem reaction_stops (es : List Event) (frames : List Segment) (none : accepted es = []) :
    reaction (es ++ (Transducer.run Board.frame b frames).2) = es := by
  have quiet : ∀ e ∈ es, (accepts e).isNone = true := by
    intro e member
    rw [Option.isNone_iff_eq_none]
    exact List.filterMap_eq_nil_iff.mp none e member
  rw [reaction, List.takeWhile_append_of_pos quiet]
  cases frames with
  | nil => exact List.append_nil _
  | cons f frames => exact List.append_nil _

/-- Behind an acceptance the decoder does what the board does for that frame, on the row that it shows. -/
theorem tracks_reaction {bytes : List UInt8} {g : Globals} (tracks : Tracks bytes g) {pre post : List Event}
    {f : Segment} (split : g.trace = pre ++ .accept f :: post) :
    ∃ before later, countingFrames bytes = before ++ f :: later ∧ pre = .mqttSend greeting :: (after before).2 ∧
      ((after before).1.frame f).2 = .accept f :: reaction post ∧ (after before).1.read f = rowAt pre f := by
  obtain ⟨before, later, frames, rfl, rest⟩ := tracks_accept tracks split
  obtain ⟨es, events, none⟩ := frame_behind (after before).1 f
  rw [events, List.cons_append, List.cons.injEq] at rest
  refine ⟨before, later, frames, rfl, ?_, read_rowAt f (after_cellsOf before)⟩
  rw [events, rest.2, reaction_stops es later none]

end SerialTiming.Laws.Reactions
