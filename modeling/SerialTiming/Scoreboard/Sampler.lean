/- module: SerialTiming/Scoreboard/Sampler
   digest: The start/stop detector over runs of clock rows: which rows decide and what it tells. -/

import SerialTiming.Scoreboard.Answers

set_option autoImplicit false
set_option relaxedAutoImplicit false

namespace SerialTiming.Scoreboard.Sampler

open CLib.Strings Line.Segments Display Clocks Boards Answers

def observe (s : StartStop) (row : Row) : StartStop := (s.watch row).settle

/-- What the detector is between frames: it is settled, and it passes over five rows at most. -/
structure Settled (s : StartStop) : Prop where
  pending : s.pending = s.bStopping
  running : s.bRunning = s.bStopping
  bounded : s.noworking ≤ 5

theorem observe_looks {s : StartStop} (looks : s.Looks) (row : Row) :
    observe s row = ⟨0, rowNotNull row, rowNotNull row, rowNotNull row⟩ := by
  have now : s.noworking + 1 > 5 ∨ s.pending = false := looks
  simp only [observe, StartStop.watch, checknotnull, if_pos now, StartStop.settle]

theorem observe_waits {s : StartStop} (waits : ¬ s.Looks) (row : Row) :
    observe s row = ⟨s.noworking + 1, s.pending, s.pending, s.pending⟩ := by
  have later : ¬ (s.noworking + 1 > 5 ∨ s.pending = false) := waits
  simp only [observe, StartStop.watch, checknotnull, if_neg later, StartStop.settle]

theorem settled_observe {s : StartStop} (row : Row) : Settled (observe s row) := by
  by_cases looks : s.Looks
  · rw [observe_looks looks]
    exact ⟨rfl, rfl, Nat.zero_le 5⟩
  · have early : ¬ (s.noworking + 1 > 5 ∨ s.pending = false) := looks
    rw [observe_waits looks]
    refine ⟨rfl, rfl, ?_⟩
    show s.noworking + 1 ≤ 5
    omega

theorem Settled.looks {s : StartStop} (settled : Settled s) (stopped : s.bStopping = false) : s.Looks :=
  .inr (settled.pending.trans stopped)

/-- The detector's switches while it goes through some clock rows. -/
def told (s : StartStop) : List Row → List Kind
  | [] => []
  | row :: rows =>
      (if (observe s row).bStopping ≠ s.bStopping then
        [if (observe s row).bStopping then .start else .stop] else []) ++ told (observe s row) rows

theorem told_append (s : StartStop) (xs ys : List Row) :
    told s (xs ++ ys) = told s xs ++ told (xs.foldl observe s) ys := by
  induction xs generalizing s with
  | nil => rfl
  | cons row xs ih => simp [told, ih]

/-- The switches alternate. -/
theorem told_alternates (s : StartStop) (rows : List Row) (i : Nat) {k : Kind}
    (there : (told s rows)[i]? = some k) :
    k = if (i % 2 = 0 ↔ s.bStopping = false) then .start else .stop := by
  induction rows generalizing s i with
  | nil => simp [told] at there
  | cons row rows ih =>
      rw [told] at there
      by_cases same : (observe s row).bStopping = s.bStopping
      · rw [if_neg (not_not.mpr same), List.nil_append] at there
        rw [← same]
        exact ih _ i there
      · rw [if_pos same, List.singleton_append] at there
        cases i with
        | zero =>
            obtain rfl := Option.some.inj there
            cases now : (observe s row).bStopping <;> cases before : s.bStopping <;> simp_all
        | succ i =>
            rw [ih _ i there]
            have flips : (i % 2 = 0 ↔ (observe s row).bStopping = false) ↔
                ((i + 1) % 2 = 0 ↔ s.bStopping = false) := by
              cases now : (observe s row).bStopping <;> cases before : s.bStopping <;> simp_all <;> omega
            simp only [flips]

theorem stopped_null {s : StartStop} (settled : Settled s) (stopped : s.bStopping = false) {rows : List Row}
    (null : ∀ r ∈ rows, NullCells r) : told s rows = [] ∧ (rows.foldl observe s).bStopping = false := by
  induction rows generalizing s with
  | nil => exact ⟨rfl, stopped⟩
  | cons row rows ih =>
      have blank : rowNotNull row = false := (rowNotNull_false row).mpr (null row (by simp))
      have next : (observe s row).bStopping = false := by
        rw [observe_looks (settled.looks stopped), blank]
      obtain ⟨silent, stays⟩ := ih (settled_observe row) next fun r member => null r (List.mem_cons_of_mem _ member)
      rw [told, silent, next, stopped]
      exact ⟨rfl, stays⟩

/-- A running detector tells one stop within as many null rows as it may still pass over, and one more. -/
theorem running_null {s : StartStop} (settled : Settled s) (running : s.bStopping = true) {rows : List Row}
    (null : ∀ r ∈ rows, NullCells r) (enough : 6 ≤ s.noworking + rows.length) :
    told s rows = [.stop] ∧ (rows.foldl observe s).bStopping = false := by
  induction rows generalizing s with
  | nil =>
      have bounded := settled.bounded
      simp only [List.length_nil] at enough
      omega
  | cons row rows ih =>
      have later : ∀ r ∈ rows, NullCells r := fun r member => null r (List.mem_cons_of_mem _ member)
      by_cases looks : s.Looks
      · have blank : rowNotNull row = false := (rowNotNull_false row).mpr (null row (by simp))
        have next : (observe s row).bStopping = false := by rw [observe_looks looks, blank]
        obtain ⟨silent, stays⟩ := stopped_null (settled_observe row) next later
        rw [told, silent, next, running]
        exact ⟨rfl, stays⟩
      · have pending : s.pending = true := settled.pending.trans running
        have next : (observe s row).bStopping = true := by rw [observe_waits looks, pending]
        have counted : (observe s row).noworking = s.noworking + 1 := by rw [observe_waits looks]
        have left : 6 ≤ (observe s row).noworking + rows.length := by
          rw [counted]
          simp only [List.length_cons] at enough
          omega
        obtain ⟨stops, stays⟩ := ih (settled_observe row) next later left
        rw [told, stops, next, running]
        exact ⟨rfl, stays⟩

/-- A running detector passes over rows until it has passed over five: it only counts them. -/
theorem running_waits {s : StartStop} (settled : Settled s) (running : s.bStopping = true) {rows : List Row}
    (early : s.noworking + rows.length ≤ 5) :
    told s rows = [] ∧ rows.foldl observe s = { s with noworking := s.noworking + rows.length } := by
  induction rows generalizing s with
  | nil => exact ⟨rfl, rfl⟩
  | cons row rows ih =>
      simp only [List.length_cons] at early
      have pending : s.pending = true := settled.pending.trans running
      have waits : ¬ s.Looks := by
        simp only [StartStop.Looks, pending, Bool.true_eq_false, or_false]
        omega
      have next : observe s row = { s with noworking := s.noworking + 1 } := by
        rw [observe_waits waits, settled.running, settled.pending]
      obtain ⟨silent, counted⟩ := ih (s := observe s row) (settled_observe row) (by rw [next]; exact running)
        (by rw [next]; show s.noworking + 1 + rows.length ≤ 5; omega)
      refine ⟨?_, ?_⟩
      · rw [told, silent, next]
        simp
      · rw [List.foldl_cons, counted, next]
        simp only [List.length_cons, StartStop.mk.injEq, and_true]
        omega

/-- The row decided: the detector counts anew, and is running exactly if the row is not null. -/
structure Decided (s : StartStop) (row : Row) : Prop where
  counted : s.noworking = 0
  running : s.bStopping = true ↔ ¬ NullCells row

theorem decided_looks {s : StartStop} (looks : s.Looks) (row : Row) : Decided (observe s row) row := by
  rw [observe_looks looks]
  refine ⟨rfl, ?_⟩
  rw [← rowNotNull_false]
  simp

/-- Behind the five rows that a running detector passes over comes the row that decides. -/
theorem running_decides {s : StartStop} (settled : Settled s) (running : s.bStopping = true) {rows : List Row}
    (due : s.noworking + rows.length = 5) (row : Row) :
    told s (rows ++ [row]) = (if NullCells row then [.stop] else []) ∧
      Decided ((rows ++ [row]).foldl observe s) row := by
  obtain ⟨silent, counted⟩ := running_waits settled running (le_of_eq due)
  have looks : (rows.foldl observe s).Looks := by
    rw [counted]
    refine .inl ?_
    show s.noworking + rows.length + 1 > 5
    omega
  have still : (rows.foldl observe s).bStopping = true := by
    rw [counted]
    exact running
  have decided := decided_looks looks row
  refine ⟨?_, by rwa [List.foldl_append]⟩
  rw [told_append, silent, List.nil_append, told, told, List.append_nil, still]
  by_cases null : NullCells row
  · have stopped : (observe (rows.foldl observe s) row).bStopping = false :=
      Bool.of_not_eq_true fun runs => decided.running.mp runs null
    rw [stopped, if_pos null]
    rfl
  · rw [decided.running.mpr null, if_neg null]
    rfl

theorem stopped_decides {s : StartStop} (settled : Settled s) (stopped : s.bStopping = false) (row : Row) :
    told s [row] = (if NullCells row then [] else [.start]) ∧ Decided (observe s row) row := by
  have decided := decided_looks (settled.looks stopped) row
  refine ⟨?_, decided⟩
  rw [told, told, List.append_nil, stopped]
  by_cases null : NullCells row
  · have stays : (observe s row).bStopping = false :=
      Bool.of_not_eq_true fun runs => decided.running.mp runs null
    rw [stays, if_pos null]
    rfl
  · rw [decided.running.mpr null, if_neg null]
    rfl

def clockRow : Event → Option Row
  | .checkStartStop row => some row
  | _ => none

def clockRows (trace : List Event) : List Row := trace.filterMap clockRow

@[simp] theorem clockRows_append (xs ys : List Event) : clockRows (xs ++ ys) = clockRows xs ++ clockRows ys :=
  List.filterMap_append

def switches (trace : List Event) : List Kind :=
  (trace.filterMap sends).filter fun kind => kind = .start ∨ kind = .stop

@[simp] theorem switches_append (xs ys : List Event) : switches (xs ++ ys) = switches xs ++ switches ys := by
  simp only [switches, List.filterMap_append, List.filter_append]

theorem switches_none {es : List Event}
    (others : ∀ m, .mqttSend m ∈ es → kindOf m ≠ .start ∧ kindOf m ≠ .stop) : switches es = [] := by
  rw [switches, List.filter_eq_nil_iff]
  intro kind member
  obtain ⟨e, inside, sent⟩ := List.mem_filterMap.mp member
  cases e with
  | mqttSend m =>
      obtain rfl : kindOf m = kind := Option.some.inj sent
      simpa using others m inside
  | _ => simp [sends] at sent

theorem frame_clockRows (b : Board) (f : Segment) :
    clockRows (b.frame f).2 = if f.channel = 0x00 then [b.read f] else [] := by
  have called (trace : List Event) : clockRows trace = clockRows (calls trace) := by
    have same (e : Event) : (if (!isReport e) = true then clockRow e else none) = clockRow e := by
      cases e <;> rfl
    rw [clockRows, clockRows, calls, List.filterMap_filter]
    simp only [same]
  rw [called, calls_frame, handlers]
  by_cases channel : f.channel = 0x00
  · simp only [channel, ↓reduceIte]
    rfl
  · simp only [if_neg channel]
    repeat' split
    all_goals rfl

theorem frame_switches (b : Board) (f : Segment) :
    switches (b.frame f).2 = told b.startStop (clockRows (b.frame f).2) := by
  rw [frame_clockRows]
  by_cases channel : f.channel = 0x00
  · obtain ⟨t, gives, timed⟩ := frame_clock b channel
    have rest : switches (.getTime (b.read f) :: t) = [] := by
      apply switches_none
      intro m member
      rw [timed m (by simpa using member), kindOf_time]
      decide
    rw [gives, switches_append, rest, List.append_nil, if_pos channel]
    rcases onStartStop_cases (b.stored f) (b.read f) with ⟨same, stays⟩ | ⟨switched, tells⟩
    · have settled : (observe b.startStop (b.read f)).bStopping = b.startStop.bStopping := same
      rw [stays, told, if_neg (not_not.mpr settled)]
      rfl
    · have changed : (observe b.startStop (b.read f)).bStopping ≠ b.startStop.bStopping := switched
      have message : ((b.stored f).onStartStop (b.read f)).2 =
          [.mqttSend (if (observe b.startStop (b.read f)).bStopping then startText else stopText)] :=
        congrArg Prod.snd tells
      rw [message, told, if_pos changed]
      cases (observe b.startStop (b.read f)).bStopping <;> rfl
  · rw [if_neg channel]
    apply switches_none
    intro m sent
    have clock := (frame_channel sent).2.2
    exact ⟨fun start => channel (clock (.inl start)), fun stop => channel (clock (.inr stop))⟩

theorem frame_observe (b : Board) (f : Segment) :
    (b.frame f).1.startStop = (clockRows (b.frame f).2).foldl observe b.startStop := by
  rw [frame_startStop, frame_clockRows]
  split <;> rfl

theorem after_observe (frames : List Segment) :
    (after frames).1.startStop = (clockRows (after frames).2).foldl observe initStartStop := by
  refine after_invariant (fun b out => b.startStop = (clockRows out).foldl observe initStartStop) rfl ?_ frames
  intro b out f same
  rw [frame_observe, same, clockRows_append, List.foldl_append]

theorem after_switches (frames : List Segment) :
    switches (after frames).2 = told initStartStop (clockRows (after frames).2) := by
  induction frames using List.reverseRecOn with
  | nil => rfl
  | append_singleton frames f ih =>
      rw [after_snoc, switches_append, clockRows_append, told_append, ih, frame_switches, ← after_observe]

theorem settled_foldl (rows : List Row) {s : StartStop} (settled : Settled s) : Settled (rows.foldl observe s) := by
  induction rows generalizing s with
  | nil => exact settled
  | cons row rows ih => exact ih (settled_observe row)

theorem settled_after (frames : List Segment) : Settled (after frames).1.startStop := by
  rw [after_observe]
  exact settled_foldl _ ⟨rfl, rfl, by decide⟩

end SerialTiming.Scoreboard.Sampler
