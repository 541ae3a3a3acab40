/- module: SerialTiming/Laws/Handles
   digest: Which FTDI handles readftdi uses, and whether it closes those it opened. -/

import SerialTiming.Receiver.ReadFTDI

set_option autoImplicit false
set_option relaxedAutoImplicit false

namespace SerialTiming.Laws.Handles

open CLib.Objects Decoder.State Decoder.ReadData Machines.Resources Receiver.Buffered Receiver.ReadFTDI

/-- FT_Read, FT_Write and FT_Close are passed only handles of the table that FT_Open delivered before, and where
readftdi returns, each handle that was delivered has been closed exactly once. -/
def Disciplined (numFtdisvs : Nat) (calls : List FtCall) (returned : Option Nat) : Prop :=
  handles.Grounded [] calls ∧ (∀ i ∈ handles.needed calls, i < numFtdisvs) ∧
    (¬ returned = none → handles.Settled calls)

/-- A run in which FT_Read and FT_Write never fail, the devices they use were opened, and at whose end the first two
devices are there and are the only ones that were opened. -/
structure Orderly (numFtdisvs : Nat) (openings : Nat → Opening) (running : Running) : Prop where
  succeeds : ∀ r ∈ running.rounds, r.Succeeds numFtdisvs
  first : ¬ running.rounds = [] → 0 < numFtdisvs ∧ (openings 0).ftOpen = true
  second : ¬ running.rounds = [] → 1 < numFtdisvs → (openings 1).ftOpen = true
  ends : running.stops = true → 1 < numFtdisvs ∧ ∀ i < numFtdisvs, (openings i).ftOpen = true ↔ i < 2

variable {numFtdisvs : Nat} {outputdata : Bool} {r : Round} {openings : Nat → Opening}

theorem opened_handles {opened : List FtCall} (opens : OpenCalls numFtdisvs openings opened) :
    (∀ i, i ∈ handles.acquired opened ↔ i < numFtdisvs ∧ (openings i).ftOpen = true) ∧
    handles.needed opened = [] ∧ handles.released opened = [] := by
  refine ⟨?_, (opens Nat handles.needs fun _ _ => rfl).trans (filterMap_blind _),
    (opens Nat handles.releases fun _ _ => rfl).trans (filterMap_blind _)⟩
  intro i
  rw [Ledger.acquired, opens Nat handles.acquires fun _ _ => rfl, List.mem_filterMap]
  constructor
  · rintro ⟨j, among, delivered⟩
    have delivered : (if (openings j).ftOpen then some j else Option.none) = some i := delivered
    split at delivered
    · rename_i isOpen
      obtain rfl := Option.some.inj delivered
      exact ⟨List.mem_range.mp among, isOpen⟩
    · cases delivered
  · rintro ⟨below, isOpen⟩
    exact ⟨i, List.mem_range.mpr below, if_pos isOpen⟩

theorem round_handles (numFtdisvs : Nat) (outputdata : Bool) (r : Round) (buffer : List UInt8) :
    handles.acquired (roundCalls numFtdisvs outputdata r buffer) = [] ∧
    handles.released (roundCalls numFtdisvs outputdata r buffer) = [] ∧
    handles.needed (roundCalls numFtdisvs outputdata r buffer) =
      if 1 < numFtdisvs ∧ ¬ r.ftRead = none then [0, 1] else [0] := by
  -- no handle shows in what is logged or passed on
  have seen : ∀ view : FtCall → Option Nat, (∀ text, view (.fprintf text) = none) →
      (∀ byte, view (.putReadData byte) = none) →
      (roundCalls numFtdisvs outputdata r buffer).filterMap view = (view (.ftRead 0 r.bytes)).toList ++
        if 1 < numFtdisvs ∧ ¬ r.ftRead = none then (view (.ftWrite 1 buffer)).toList else [] := by
    intro view text byte
    rw [roundCalls_view]
    simp only [text, byte, filterMap_blind, ite_self, List.nil_append, List.append_nil]
    by_cases failed : r.ftRead = none
    · rw [if_pos failed, if_neg fun both => both.2 failed]
    · rw [if_neg failed]
      simp only [sendmode, decide_eq_true_eq, failed, not_false_eq_true, and_true]
  refine ⟨?_, ?_, ?_⟩
  · rw [Ledger.acquired, seen handles.acquires (fun _ => rfl) fun _ => rfl]
    exact ite_self _
  · rw [Ledger.released, seen handles.releases (fun _ => rfl) fun _ => rfl]
    exact ite_self _
  · rw [Ledger.needed, seen handles.needs (fun _ => rfl) fun _ => rfl]
    split <;> rfl

structure Uses (numFtdisvs : Nat) (rounds : List Round) (calls : List FtCall) (returned : Option Nat) : Prop where
  acquired : handles.acquired calls = []
  released : handles.released calls = []
  idle : rounds = [] → ∀ i, ¬ i ∈ handles.needed calls
  only : ∀ i ∈ handles.needed calls, i = 0 ∨ i = 1 ∧ 1 < numFtdisvs
  first : ¬ rounds = [] → 0 ∈ handles.needed calls
  second : returned = none → ¬ rounds = [] → 1 < numFtdisvs → 1 ∈ handles.needed calls
  goes_on : returned = none ↔ ∀ r ∈ rounds, r.Succeeds numFtdisvs
  ran : ¬ returned = none → ¬ rounds = []

theorem loop_uses {rounds : List Round} {calls : List FtCall} {returned : Option Nat}
    (loops : LoopCalls numFtdisvs outputdata rounds calls returned) : Uses numFtdisvs rounds calls returned := by
  have needs : ∀ (r : Round) (buffer : List UInt8), ∀ i ∈ handles.needed (roundCalls numFtdisvs outputdata r buffer),
      i = 0 ∨ i = 1 ∧ 1 < numFtdisvs := by
    intro r buffer i among
    rw [(round_handles numFtdisvs outputdata r buffer).2.2] at among
    split at among
    · rename_i both
      simp only [List.mem_cons, List.not_mem_nil, or_false] at among
      exact among.imp id fun one => ⟨one, both.1⟩
    · exact Or.inl (List.mem_singleton.mp among)
  have uses : ∀ (r : Round) (buffer : List UInt8), 0 ∈ handles.needed (roundCalls numFtdisvs outputdata r buffer) := by
    intro r buffer
    rw [(round_handles numFtdisvs outputdata r buffer).2.2]
    split <;> exact List.mem_cons_self
  induction loops with
  | waits =>
      refine ⟨rfl, rfl, fun _ i among => ?_, ?_, fun some => absurd rfl some, fun _ some => absurd rfl some, ?_,
        fun some => absurd rfl some⟩
      · cases among
      · intro i among
        cases among
      · refine ⟨?_, fun _ => rfl⟩
        intro _ r among
        cases among
  | @returns r rounds buffer fails fills =>
      obtain ⟨acquired, released, _⟩ := round_handles numFtdisvs outputdata r buffer
      refine ⟨acquired, released, fun empty => ?_, needs r buffer, fun _ => uses r buffer, fun goes => ?_,
        ⟨fun goes => ?_, ?_⟩, ?_⟩
      · cases empty
      · cases goes
      · cases goes
      · intro all
        exact absurd (all r List.mem_cons_self) fails
      · intro _ empty
        cases empty
  | @round r rounds buffer calls returned succeeds fills rest ih =>
      obtain ⟨acquired, released, needed⟩ := round_handles numFtdisvs outputdata r buffer
      refine ⟨?_, ?_, fun empty => ?_, ?_, ?_, ?_, ?_, ?_⟩
      · rw [Ledger.acquired_append, acquired, ih.acquired, List.append_nil]
      · rw [Ledger.released_append, released, ih.released, List.append_nil]
      · cases empty
      · intro i among
        rw [Ledger.needed_append, List.mem_append] at among
        exact among.elim (needs r buffer i) (ih.only i)
      · intro _
        rw [Ledger.needed_append]
        exact List.mem_append_left _ (uses r buffer)
      · intro _ _ two
        rw [Ledger.needed_append, needed, if_pos ⟨two, succeeds.1⟩]
        exact List.mem_append_left _ (by decide)
      · rw [ih.goes_on, List.forall_mem_cons]
        exact ⟨fun others => ⟨succeeds, others⟩, fun all => all.2⟩
      · intro _ empty
        cases empty

theorem grounded_loop {rounds : List Round} {opened calls : List FtCall} {returned : Option Nat}
    (opens : OpenCalls numFtdisvs openings opened) (uses : Uses numFtdisvs rounds calls returned) :
    handles.Grounded [] (opened ++ calls) ↔
      ∀ i ∈ handles.needed calls, i < numFtdisvs ∧ (openings i).ftOpen = true := by
  obtain ⟨acquired, needed, _⟩ := opened_handles opens
  rw [Ledger.grounded_append, Ledger.grounded_idle _ uses.acquired, List.nil_append]
  constructor
  · intro grounded i among
    exact (acquired i).mp (grounded.2 i among)
  · intro delivered
    exact ⟨Ledger.grounded_free _ needed, fun i among => (acquired i).mpr (delivered i among)⟩

/-- The calls at the end of readftdi settle what was opened exactly if the first two devices were, and no other. -/
theorem settled_finish {opened calls : List FtCall} (opens : OpenCalls numFtdisvs openings opened)
    (acquired : handles.acquired calls = []) (released : handles.released calls = []) :
    handles.Settled (opened ++ calls ++ [FtCall.ftClose 0, FtCall.ftClose 1]) ↔
      ∀ i < numFtdisvs, (openings i).ftOpen = true → i < 2 := by
  obtain ⟨mine, _, none⟩ := opened_handles opens
  have all : handles.acquired (opened ++ calls ++ [FtCall.ftClose 0, FtCall.ftClose 1]) = handles.acquired opened := by
    rw [Ledger.acquired_append, Ledger.acquired_append, acquired, List.append_nil]
    exact List.append_nil _
  have closed : handles.released (opened ++ calls ++ [FtCall.ftClose 0, FtCall.ftClose 1]) = [0, 1] := by
    rw [Ledger.released_append, Ledger.released_append, none, released]
    rfl
  have once : ∀ i : Nat, [0, 1].count i = 1 ↔ i < 2 := by
    intro i
    rcases i with _ | _ | i
    · decide
    · decide
    · refine ⟨fun one => ?_, fun below => by omega⟩
      have never : [0, 1].count (i + 1 + 1) = 0 := List.count_eq_zero.mpr (by simp)
      omega
  unfold Ledger.Settled
  rw [all, closed]
  constructor
  · intro settled i below isOpen
    exact (once i).mp (settled i ((mine i).mpr ⟨below, isOpen⟩))
  · intro few i among
    obtain ⟨below, isOpen⟩ := (mine i).mp among
    exact (once i).mpr (few i below isOpen)

theorem disciplined_open {rounds : List Round} {opened calls : List FtCall} {returned : Option Nat} {stops : Bool}
    (opens : OpenCalls numFtdisvs openings opened) (uses : Uses numFtdisvs rounds calls returned)
    (goes : ¬ (returned = none ∧ stops = true)) :
    Disciplined numFtdisvs (opened ++ calls) returned ↔ Orderly numFtdisvs openings ⟨rounds, stops⟩ := by
  obtain ⟨mine, needed, released⟩ := opened_handles opens
  have unsettled : handles.Settled (opened ++ calls) ↔ handles.acquired opened = [] := by
    rw [Ledger.settled_unreleased _ (by rw [Ledger.released_append, released, uses.released, List.append_nil]),
      Ledger.acquired_append, uses.acquired, List.append_nil]
  constructor
  · rintro ⟨grounded, _, settled⟩
    have delivered := (grounded_loop opens uses).mp grounded
    have goes_on : returned = none := by
      by_contra ended
      have first := (mine 0).mpr (delivered 0 (uses.first (uses.ran ended)))
      rw [unsettled.mp (settled ended)] at first
      cases first
    refine ⟨uses.goes_on.mp goes_on, ?_, ?_, ?_⟩
    · intro begun
      exact delivered 0 (uses.first begun)
    · intro begun two
      exact (delivered 1 (uses.second goes_on begun two)).2
    · intro stopped
      exact absurd ⟨goes_on, stopped⟩ goes
  · intro orderly
    have delivered : ∀ i ∈ handles.needed calls, i < numFtdisvs ∧ (openings i).ftOpen = true := by
      intro i among
      have begun : ¬ rounds = [] := by
        rintro rfl
        exact uses.idle rfl i among
      rcases uses.only i among with rfl | ⟨rfl, two⟩
      · exact orderly.first begun
      · exact ⟨two, orderly.second begun two⟩
    refine ⟨(grounded_loop opens uses).mpr delivered, ?_, ?_⟩
    · intro i among
      rw [Ledger.needed_append, needed, List.nil_append] at among
      exact (delivered i among).1
    · intro ended
      exact absurd (uses.goes_on.mpr orderly.succeeds) ended

theorem disciplined_closed {rounds : List Round} {opened calls : List FtCall}
    (opens : OpenCalls numFtdisvs openings opened) (uses : Uses numFtdisvs rounds calls none)
    (two : 1 < numFtdisvs) :
    Disciplined numFtdisvs (opened ++ calls ++ [FtCall.ftClose 0, FtCall.ftClose 1]) (some 0) ↔
      Orderly numFtdisvs openings ⟨rounds, true⟩ := by
  obtain ⟨mine, needed, _⟩ := opened_handles opens
  have settles := settled_finish opens uses.acquired uses.released
  have closes : handles.Grounded (handles.acquired (opened ++ calls)) [.ftClose 0, .ftClose 1] ↔
      ∀ i < 2, (openings i).ftOpen = true := by
    rw [Ledger.grounded_idle _ rfl, Ledger.acquired_append, uses.acquired, List.append_nil]
    have both : handles.needed [.ftClose 0, .ftClose 1] = [0, 1] := rfl
    rw [both]
    constructor
    · intro held i below
      exact ((mine i).mp (held i (by interval_cases i <;> decide))).2
    · intro isOpen i among
      have below : i < 2 := by
        simp only [List.mem_cons, List.not_mem_nil, or_false] at among
        omega
      exact (mine i).mpr ⟨by omega, isOpen i below⟩
  constructor
  · rintro ⟨grounded, _, settled⟩
    obtain ⟨_, held⟩ := (Ledger.grounded_append _ _ _ _).mp grounded
    rw [List.nil_append] at held
    have isOpen := closes.mp held
    refine ⟨uses.goes_on.mp rfl, fun _ => ⟨by omega, isOpen 0 (by omega)⟩, fun _ _ => isOpen 1 (by omega), ?_⟩
    intro _
    refine ⟨two, ?_⟩
    intro i below
    exact ⟨settles.mp (settled (by simp)) i below, isOpen i⟩
  · intro orderly
    have exactly := (orderly.ends rfl).2
    have isOpen : ∀ i < 2, (openings i).ftOpen = true := fun i below => (exactly i (by omega)).mpr below
    refine ⟨?_, ?_, ?_⟩
    · rw [Ledger.grounded_append, List.nil_append]
      refine ⟨(grounded_loop opens uses).mpr ?_, closes.mpr isOpen⟩
      intro i among
      have below : i < 2 := by
        have only := uses.only i among
        omega
      exact ⟨by omega, isOpen i below⟩
    · intro i among
      rw [Ledger.needed_append, Ledger.needed_append, needed, List.nil_append, List.mem_append] at among
      rcases among with among | among
      · have only := uses.only i among
        omega
      · have either : i ∈ [0, 1] := among
        simp only [List.mem_cons, List.not_mem_nil, or_false] at either
        omega
    · intro _
      exact settles.mpr fun i below isOpen => (exactly i below).mp isOpen

theorem no_devices (host : Host) (g : Globals) (openings : Nat → Opening) (privileged outputdata : Bool)
    (running : Running) (pcBufRead : Vector UInt8 bufSize) :
    (∃ s returned, (Ftdi.started pcBufRead g).readftdi host 0 openings privileged outputdata running =
        .ok (s, returned) ∧ Disciplined 0 s.feed.calls returned) ↔
      Orderly 0 openings (running.granted privileged) := by
  unfold Ftdi.readftdi
  rcases running.granted privileged with ⟨_ | ⟨r, rounds⟩, stops⟩
  · cases stops with
    | false =>
        refine ⟨fun _ => ?_, fun _ => ⟨_, none, rfl, trivial, ?_, fun some => absurd rfl some⟩⟩
        · exact ⟨fun _ among => (by cases among), fun begun => absurd rfl begun, fun begun => absurd rfl begun,
            fun stopped => (by cases stopped)⟩
        · intro i among
          cases among
    | true =>
        constructor
        · rintro ⟨s, returned, result, _⟩
          cases result
        · intro orderly
          exact absurd (orderly.ends rfl).1 (by decide)
  · constructor
    · rintro ⟨s, returned, result, _⟩
      cases result
    · intro orderly
      exact absurd (orderly.first (by simp)).1 (by decide)

/-- The discipline of the handles. Whatever the library answers, readftdi keeps to it exactly in the orderly runs. -/
theorem ftdi_handles (host : Host) (past : List UInt8) (numFtdisvs : Nat) (openings : Nat → Opening)
    (privileged outputdata : Bool) (running : Running) (pcBufRead : Vector UInt8 bufSize) :
    ∃ g, run host past = .ok g ∧
      ((∃ s returned, (Ftdi.started pcBufRead g).readftdi host numFtdisvs openings privileged outputdata running =
          .ok (s, returned) ∧ Disciplined numFtdisvs s.feed.calls returned) ↔
        Orderly numFtdisvs openings (running.granted privileged)) := by
  obtain ⟨g, ran, tracks⟩ := run_tracks host past
  refine ⟨g, ran, ?_⟩
  rcases Nat.eq_zero_or_pos numFtdisvs with rfl | positive
  · exact no_devices host g openings privileged outputdata running pcBufRead
  obtain ⟨s, opened, calls, returned, result, made, opens, loops⟩ := Ftdi.readftdi_loops host positive openings
    privileged outputdata running (s := Ftdi.started pcBufRead g) tracks
  have made : s.feed.calls = opened ++ calls := made
  have uses := loop_uses loops
  rw [result]
  by_cases ends : returned = none ∧ (running.granted privileged).stops = true
  · rw [if_pos ends]
    obtain ⟨rfl, stopped⟩ := ends
    have same : running.granted privileged = ⟨(running.granted privileged).rounds, true⟩ := by
      rw [← stopped]
    rw [same]
    by_cases two : 1 < numFtdisvs
    · rw [Ftdi.finish_ok two, ← disciplined_closed opens uses two, ← made]
      constructor
      · rintro ⟨_, _, given, disciplined⟩
        cases given
        exact disciplined
      · intro disciplined
        exact ⟨_, _, rfl, disciplined⟩
    · rw [Ftdi.finish_outside two]
      constructor
      · rintro ⟨_, _, given, _⟩
        cases given
      · intro orderly
        exact absurd (orderly.ends rfl).1 two
  · rw [if_neg ends, ← disciplined_open opens uses ends, ← made]
    constructor
    · rintro ⟨_, _, given, disciplined⟩
      cases given
      exact disciplined
    · intro disciplined
      exact ⟨_, _, rfl, disciplined⟩

/-- One device, and the loop is stopped: a second handle is taken from outside the table. -/
theorem ftdi_closes_outside :
    ∃ g, run Host.reliable [] = .ok g ∧
      (Ftdi.started (Vector.replicate bufSize 0) g).readftdi Host.reliable 1 (fun _ => ⟨true, true, true, true, true⟩)
        true false ⟨[], true⟩ = .error .outside ∧
      ¬ ∃ s returned, (Ftdi.started (Vector.replicate bufSize 0) g).readftdi Host.reliable 1
        (fun _ => ⟨true, true, true, true, true⟩) true false ⟨[], true⟩ = .ok (s, returned) ∧
          Disciplined 1 s.feed.calls returned := by
  obtain ⟨g, ran, _⟩ := run_tracks Host.reliable []
  have outside : (Ftdi.started (Vector.replicate bufSize 0) g).readftdi Host.reliable 1
      (fun _ => ⟨true, true, true, true, true⟩) true false ⟨[], true⟩ = .error .outside := rfl
  refine ⟨g, ran, outside, ?_⟩
  rintro ⟨s, returned, result, _⟩
  rw [outside] at result
  cases result

end SerialTiming.Laws.Handles
