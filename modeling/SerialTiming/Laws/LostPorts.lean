/- module: SerialTiming/Laws/LostPorts
   digest: Sessions that return and leave the source port open: once the system gives out no more, no byte comes in. -/

import SerialTiming.Laws.Sessions

set_option autoImplicit false
set_option relaxedAutoImplicit false

namespace SerialTiming.Laws.LostPorts

open CLib.Objects Decoder.State Decoder.ReadData Machines.Resources
open SerialTiming.Receiver SerialTiming.Receiver.Buffered SerialTiming.Receiver.Calls Program.Listener Sessions

/-- How a receiver treats its ports in a turn with these calls. What it opens it opens first, and without a source port
it passes nothing on. If it returns it has closed nothing, and holds the source port if it leaves it open. -/
structure Treats {κ ι : Type} (ledger : Ledger κ ι) (source : ι → Bool) (line : κ → Option Calls.Call)
    (returns leaves : Bool) (grounded : Prop) (calls : List κ) : Prop where
  ordered : ∃ front back, calls = front ++ back ∧ ledger.released front = [] ∧ ledger.acquired back = []
  silent : grounded → (∀ i ∈ ledger.acquired calls, source i = false) → passed (calls.filterMap line) = []
  closed : returns = true → ledger.released calls = []
  count : returns = true → ledger.held source calls = if leaves then 1 else 0

/-- A receiver that treats its ports so in every turn. -/
def Careless (S : Station) : Prop :=
  ∀ (host : Host) (t : S.Turn) (past : List UInt8) (g : Globals) (f : Feed S.Call), Tracks past g →
    S.serve host t g = .ok f → Treats S.ledger S.source S.line (S.returns t) (S.leaves t) (S.Grounded t) f.calls

section Listening

variable {S : Station} {host : Host}

def goneOn (f session : Feed S.Call) : Feed S.Call := { globals := session.globals, calls := f.calls ++ session.calls }

theorem startListen_cons {t : S.Turn} {turns : List S.Turn} {f f' : Feed S.Call}
    (ran : S.startListen host (t :: turns) f = .ok f') :
    ∃ session, S.serve host t f.globals = .ok session ∧
      if S.returns t = true then S.startListen host turns (goneOn f session) = .ok f' else f' = goneOn f session := by
  rw [Station.startListen] at ran
  cases served : S.serve host t f.globals with
  | error fault =>
      rw [served] at ran
      cases ran
  | ok session =>
      rw [served, ok_bind] at ran
      refine ⟨session, rfl, ?_⟩
      by_cases returns : S.returns t = true
      · rw [if_pos returns] at ran ⊢
        exact ran
      · rw [if_neg returns] at ran ⊢
        exact (Except.ok.inj ran).symm

theorem startListen_extends {turns : List S.Turn} {f f' : Feed S.Call} (ran : S.startListen host turns f = .ok f') :
    f.calls <+: f'.calls := by
  induction turns generalizing f with
  | nil =>
      obtain rfl := Except.ok.inj ran
      exact List.prefix_rfl
  | cons t turns ih =>
      obtain ⟨session, _, goes⟩ := startListen_cons ran
      have more : f.calls <+: f.calls ++ session.calls := List.prefix_append _ _
      split at goes
      · exact more.trans (ih goes)
      · rw [goes]
        exact more

theorem startListen_append (early late : List S.Turn) (f : Feed S.Call) :
    S.startListen host (early ++ late) f = (do
      let f' ← S.startListen host early f
      if early.all S.returns then S.startListen host late f' else .ok f') := by
  induction early generalizing f with
  | nil => rfl
  | cons t early ih =>
      rw [List.cons_append, Station.startListen, Station.startListen]
      cases S.serve host t f.globals with
      | error fault => rfl
      | ok session =>
          rw [ok_bind, ok_bind]
          by_cases returns : S.returns t = true
          · rw [if_pos returns, if_pos returns, ih, List.all_cons, returns, Bool.true_and]
          · rw [if_neg returns, if_neg returns, ok_bind, List.all_cons, Bool.eq_false_of_not_eq_true returns,
              Bool.false_and]
            rfl

variable (sound : Sound S) (careless : Careless S)

include sound careless

theorem Careless.count {turns : List S.Turn} {past : List UInt8} {f f' : Feed S.Call} (tracks : Tracks past f.globals)
    (ran : S.startListen host turns f = .ok f') (returns : turns.all S.returns = true) :
    S.ledger.held S.source f'.calls = S.ledger.held S.source f.calls + turns.countP S.leaves := by
  induction turns generalizing past f with
  | nil =>
      obtain rfl := Except.ok.inj ran
      simp
  | cons t turns ih =>
      rw [List.all_cons, Bool.and_eq_true] at returns
      obtain ⟨session, served, goes⟩ := startListen_cons ran
      rw [if_pos returns.1] at goes
      have own := (careless host t past f.globals session tracks served).count returns.1
      have later := ih (f := goneOn f session) (sound.turn host t tracks served).2 goes returns.2
      rw [later, goneOn, Ledger.held_append, own, List.countP_cons]
      split <;> push_cast <;> omega

/-- Once the listener holds all the source ports that the system gives out, no turn gets one: each passes nothing on,
and one that returns leaves it so. -/
theorem Careless.starves {limit : Nat} {turns : List S.Turn} {past : List UInt8} {f f' : Feed S.Call}
    (tracks : Tracks past f.globals) (ran : S.startListen host turns f = .ok f')
    (limited : S.ledger.Limited S.source limit f'.calls) (all : limit ≤ S.ledger.held S.source f.calls)
    (grounded : ∀ t ∈ turns, S.Grounded t) : S.heard f'.calls = S.heard f.calls := by
  induction turns generalizing past f with
  | nil =>
      obtain rfl := Except.ok.inj ran
      rfl
  | cons t turns ih =>
      obtain ⟨session, served, goes⟩ := startListen_cons ran
      obtain ⟨⟨front, back, calls, keeps, idle⟩, silent, closed, _⟩ :=
        careless host t past f.globals session tracks served
      have reached : f.calls ++ session.calls <+: f'.calls := by
        split at goes
        · exact startListen_extends goes
        · rw [goes]
          exact List.prefix_rfl
      have opening : S.ledger.Limited S.source limit (f.calls ++ front) := by
        intro some within
        refine limited some (within.trans (List.IsPrefix.trans ?_ reached))
        rw [calls, ← List.append_assoc]
        exact List.prefix_append _ _
      have none : ∀ i ∈ S.ledger.acquired session.calls, S.source i = false := by
        rw [calls, Ledger.acquired_append, idle, List.append_nil]
        exact opening.exhausted all keeps
      have quiet : S.heard (goneOn f session).calls = S.heard f.calls := by
        have nothing := silent (grounded t List.mem_cons_self) none
        rw [goneOn, Station.heard, List.filterMap_append, passed_append, nothing, List.append_nil]
        rfl
      split at goes
      · rename_i returns
        have unchanged : S.ledger.held S.source session.calls = 0 := by
          have free : (S.ledger.acquired session.calls).countP S.source = 0 := by
            rw [List.countP_eq_zero]
            intro i among
            simp [none i among]
          rw [Ledger.held, free, closed returns]
          rfl
        have still : limit ≤ S.ledger.held S.source (goneOn f session).calls := by
          rw [goneOn, Ledger.held_append, unchanged]
          omega
        have later := ih (f := goneOn f session) (sound.turn host t tracks served).2 goes still fun t among =>
          grounded t (List.mem_cons_of_mem _ among)
        exact later.trans quiet
      · rw [goes, quiet]

end Listening

section Receivers

theorem line_idle (calls : List Calls.Call) :
    ports.acquired (calls.map .line) = [] ∧ ports.released (calls.map .line) = [] := by
  constructor
  · rw [Ledger.acquired, List.filterMap_map]
    exact ReadFTDI.filterMap_blind calls
  · rw [Ledger.released, List.filterMap_map]
    exact ReadFTDI.filterMap_blind calls

theorem served_of {α β : Type} {x : Checked α} {h : α → β} {b : β} (result : (do let a ← x; .ok (h a)) = Except.ok b) :
    ∃ a, x = .ok a ∧ b = h a := by
  cases x with
  | error fault => cases result
  | ok a => exact ⟨a, rfl, (Except.ok.inj result).symm⟩

theorem linux_treats {host : Host} {forward : Bool} {t : LinuxTurn} {g : Globals} {f : Feed PortCall}
    (served : t.serve forward host g = .ok f) :
    Treats ports (· == .source) PortCall.seen (!t.begins forward) (t.leaves forward) True f.calls := by
  obtain ⟨r, read, rfl⟩ := served_of served
  have closed : ports.released (t.opens forward ++ r.feed.calls.map .line) = [] := by
    rw [Ledger.released_append, (line_idle _).2, List.append_nil, LinuxTurn.opens]
    split <;> rfl
  have opened : ports.acquired (t.opens forward ++ r.feed.calls.map .line) =
      (if 0 ≤ t.fd then [Port.source] else []) ++
        if 0 ≤ t.fd ∧ forward = true ∧ 0 ≤ t.fo then [.destination] else [] := by
    rw [Ledger.acquired_append, (line_idle _).1, List.append_nil, LinuxTurn.opens]
    by_cases source : 0 ≤ t.fd
    · by_cases destination : 0 ≤ t.fo
      · cases forward <;> simp [Ledger.acquired, ports, source, destination]
      · cases forward <;> simp [Ledger.acquired, ports, source, destination]
    · simp [Ledger.acquired, ports, source]
  refine ⟨⟨_, [], (List.append_nil _).symm, closed, rfl⟩, ?_, fun _ => closed, ?_⟩
  · intro _ none
    rw [opened] at none
    have shut : t.fd < 0 := by
      by_contra source
      rw [if_pos (by omega)] at none
      exact absurd (none .source (List.mem_append_left _ List.mem_cons_self)) (by decide)
    rw [Read.Reader.read, if_pos shut] at read
    obtain rfl := Except.ok.inj read
    show passed ((t.opens forward ++ []).filterMap PortCall.seen) = []
    rw [List.append_nil, LinuxTurn.opens]
    split <;> rfl
  · intro stops
    rw [Bool.not_eq_true'] at stops
    rw [Ledger.held, closed, opened, LinuxTurn.leaves, stops]
    by_cases source : 0 ≤ t.fd
    · have destination : forward = true ∧ ¬ 0 ≤ t.fo := by
        cases forward <;> simp_all [LinuxTurn.begins]
      simp [source, destination]
    · simp [source]

theorem raspberry_treats {host : Host} {t : RaspberryTurn} {g : Globals} {f : Feed PortCall}
    (served : t.serve host g = .ok f) :
    Treats ports (· == .source) PortCall.seen (!t.begins || t.fails) t.fails True f.calls := by
  obtain ⟨r, read, rfl⟩ := served_of served
  have released : ports.released (t.opens ++ r.feed.calls.map .line) = [] := by
    rw [Ledger.released_append, (line_idle _).2, List.append_nil, RaspberryTurn.opens]
    split <;> rfl
  have acquired : ports.acquired (t.opens ++ r.feed.calls.map .line) = if t.begins then [.source] else [] := by
    rw [Ledger.acquired_append, (line_idle _).1, List.append_nil, RaspberryTurn.opens, RaspberryTurn.begins]
    by_cases started : 0 ≤ t.gpioInitialise
    · by_cases opened : 0 ≤ t.serOpen <;> simp [Ledger.acquired, ports, started, opened]
    · simp [Ledger.acquired, started]
  have idle : ports.acquired t.closes = [] := by
    unfold RaspberryTurn.closes
    split <;> rfl
  rw [← List.append_assoc]
  have leftOpen (returns : (!t.begins || t.fails) = true) : t.closes = [] := by
    rw [RaspberryTurn.closes, if_neg]
    simp only [Bool.or_eq_true, Bool.not_eq_true'] at returns
    rcases returns with stops | fails
    · simp [stops]
    · simp [fails]
  refine ⟨⟨_, t.closes, rfl, released, idle⟩, ?_, ?_, ?_⟩
  · intro _ none
    rw [Ledger.acquired_append, acquired, idle, List.append_nil] at none
    have stops : t.begins = false := by
      by_contra begins
      rw [if_pos (Bool.eq_true_of_not_eq_false begins)] at none
      exact absurd (none .source List.mem_cons_self) (by decide)
    have unread : r = ReadGpio.Reader.opened t.text g := by
      unfold ReadGpio.Reader.read at read
      split at read
      · exact (Except.ok.inj read).symm
      split at read
      · exact (Except.ok.inj read).symm
      · rename_i started opened
        simp only [RaspberryTurn.begins, Bool.and_eq_false_iff, decide_eq_false_iff_not] at stops
        omega
    subst unread
    show passed ((t.opens ++ [] ++ t.closes).filterMap PortCall.seen) = []
    rw [RaspberryTurn.opens, RaspberryTurn.closes, stops]
    split <;> rfl
  · intro returns
    rw [leftOpen returns, List.append_nil, released]
  · intro returns
    rw [leftOpen returns, List.append_nil, Ledger.held, released, acquired]
    simp only [Bool.or_eq_true, Bool.not_eq_true'] at returns
    rcases returns with stops | fails
    · simp [stops, RaspberryTurn.fails]
    · have begins : t.begins = true := by
        rw [RaspberryTurn.fails, Bool.and_eq_true] at fails
        exact fails.1
      simp [begins, fails]

theorem accepted_of_loops {ndebug : Bool} {portname dstname : List Char} {forward : Bool} {t : WindowsTurn}
    {names : PortNames.Ports} (read : PortNames.read ndebug portname dstname forward t.setUp = .ok names) (loops : names.exit = .loops) :
    t.refused = false := by
  obtain ⟨⟨a, b, c, d, e, f, k⟩, destination, readData, waits, results⟩ := t
  unfold PortNames.read at read
  cases picked : CLib.Buffers.loadAt PortNames.comports (PortNames.comportNumber portname) with
  | error fault =>
      rw [picked] at read
      cases read
  | ok source =>
      rw [picked, ok_bind] at read
      have refuses {exit : PortNames.Exit} (other : ¬ exit = .loops)
          (ended : (Except.ok ⟨source, none, exit⟩ : Checked PortNames.Ports) = .ok names) : False := by
        obtain rfl := Except.ok.inj ended
        exact other loops
      cases a
      · exact (refuses (by simp) read).elim
      cases b
      · exact (refuses (by simp) read).elim
      cases c
      · exact (refuses (by simp) read).elim
      cases d
      · exact (refuses (by simp) read).elim
      cases e
      · exact (refuses (by simp) read).elim
      cases f
      · exact (refuses (by simp) read).elim
      rfl

theorem windows_treats {host : Host} {ndebug : Bool} {portname dstname : List Char} {forward : Bool} {t : WindowsTurn}
    {g : Globals} {f : Feed PortCall} (served : t.serve ndebug portname dstname forward host g = .ok f) :
    Treats ports (· == .source) PortCall.seen t.refused (t.setUp.createFile && t.refused) True f.calls := by
  unfold WindowsTurn.serve at served
  cases read : PortNames.read ndebug portname dstname forward t.setUp with
  | error fault =>
      rw [read] at served
      cases served
  | ok names =>
      rw [read, ok_bind] at served
      by_cases loops : names.exit = .loops
      · rw [if_pos loops] at served
        have goes := accepted_of_loops read loops
        obtain ⟨r, _, rfl⟩ := served_of served
        refine ⟨?_, ?_, fun returns => ?_, fun returns => ?_⟩
        · refine ⟨.openPort .source true :: ((if forward then (setDestSerialPort t.destination).1 else []) ++
            r.calls.map .line), if t.stops then [.closePort .source] else [], ?_, ?_, ?_⟩
          · simp
          · have sends : ports.released (if forward then (setDestSerialPort t.destination).1 else []) = [] := by
              split <;> rfl
            rw [← List.singleton_append, Ledger.released_append, Ledger.released_append, sends, (line_idle _).2]
            rfl
          · split <;> rfl
        · intro _ none
          have opened : Port.source ∈ ports.acquired [.openPort .source true] := List.mem_cons_self
          rw [← List.singleton_append, Ledger.acquired_append] at none
          exact absurd (none .source (List.mem_append_left _ opened)) (by decide)
        · rw [goes] at returns
          cases returns
        · rw [goes] at returns
          cases returns
      · rw [if_neg loops] at served
        obtain rfl := Except.ok.inj served
        refine ⟨⟨_, [], (List.append_nil _).symm, rfl, rfl⟩, fun _ _ => rfl, fun _ => rfl, fun returns => ?_⟩
        rw [returns, Bool.and_true]
        cases t.setUp.createFile <;> rfl

theorem opened_first {t : FtdiTurn} {opened : List ReadFTDI.FtCall}
    (opens : ReadFTDI.OpenCalls t.numFtdisvs t.openings opened) :
    (ReadFTDI.handles.acquired opened).countP (· == 0) = if t.opens then 1 else 0 := by
  have acquired := opens _ ReadFTDI.handles.acquires fun _ _ => rfl
  have distinct : (ReadFTDI.handles.acquired opened).Nodup := by
    rw [Ledger.acquired, acquired]
    refine List.Nodup.filterMap ?_ List.nodup_range
    intro i j k first second
    have same (i : Nat) (one : k ∈ ReadFTDI.handles.acquires (.ftOpen i (t.openings i).ftOpen)) : i = k := by
      have one : (if (t.openings i).ftOpen = true then some i else none) = some k := one
      split at one
      · exact Option.some.inj one
      · cases one
    rw [same i first, same j second]
  have delivered : 0 ∈ ReadFTDI.handles.acquired opened ↔ t.opens = true := by
    rw [(Handles.opened_handles opens).1, FtdiTurn.opens, Bool.and_eq_true, decide_eq_true_eq]
  rw [← List.count_eq_countP, distinct.count]
  simp only [delivered]

theorem unread_loop {numFtdisvs : Nat} {outputdata : Bool} {rounds : List ReadFTDI.Round}
    {calls : List ReadFTDI.FtCall} {returned : Option Nat}
    (loops : ReadFTDI.LoopCalls numFtdisvs outputdata rounds calls returned) (fails : ∀ r ∈ rounds, r.ftRead = none) :
    passed (calls.filterMap ReadFTDI.FtCall.line) = [] := by
  cases loops with
  | waits => rfl
  | @returns r rounds buffer _ _ =>
      rw [ReadFTDI.roundCalls, if_pos (fails r List.mem_cons_self)]
      rfl
  | @round r rounds buffer calls returned succeeds _ _ => exact absurd (fails r List.mem_cons_self) succeeds.1

theorem ftdi_treats {host : Host} {outputdata : Bool} {t : FtdiTurn} {past : List UInt8} {g : Globals}
    {f : Feed ReadFTDI.FtCall} (tracks : Tracks past g) (served : t.serve true outputdata host g = .ok f) :
    Treats ReadFTDI.handles (· == 0) ReadFTDI.FtCall.line (t.returns true) (t.opens && t.returns true) t.Grounded
      f.calls := by
  obtain ⟨⟨s, result⟩, read, rfl⟩ := served_of served
  rcases Nat.eq_zero_or_pos t.numFtdisvs with none | positive
  · -- without a device nothing is called
    have begins := (ftdi_within true outputdata t tracks).mp ⟨_, served⟩
    have idle : t.running.rounds = [] := by
      by_contra begun
      have some := begins.1 begun
      omega
    have waits : ¬ t.running.stops = true := by
      intro stops
      have second := begins.2 stops (by simp [ReadFTDI.Running.granted, idle])
      omega
    have quiet : s.feed.calls = [] := by
      rw [none] at read
      unfold ReadFTDI.Ftdi.readftdi at read
      generalize t.running = running at read idle waits
      obtain ⟨rounds, stops⟩ := running
      obtain rfl : rounds = [] := idle
      obtain rfl : stops = false := Bool.eq_false_of_not_eq_true waits
      obtain ⟨rfl, _⟩ := Prod.mk.inj (Except.ok.inj read)
      rfl
    show Treats _ _ _ _ _ _ s.feed.calls
    rw [quiet]
    refine ⟨⟨[], [], rfl, rfl, rfl⟩, fun _ _ => rfl, fun _ => rfl, fun _ => ?_⟩
    simp [FtdiTurn.opens, none, Ledger.held, Ledger.acquired, Ledger.released]
  obtain ⟨s', opened, calls, returned, run, made, opens, loops⟩ := ReadFTDI.Ftdi.readftdi_loops host positive t.openings
    true outputdata t.running (s := ReadFTDI.Ftdi.started t.pcBufRead g) tracks
  have made : s'.feed.calls = opened ++ calls := made
  have loops : ReadFTDI.LoopCalls t.numFtdisvs outputdata t.running.rounds calls returned := loops
  have uses := Handles.loop_uses loops
  obtain ⟨_, _, openedReleased⟩ := Handles.opened_handles opens
  have released : ReadFTDI.handles.released (opened ++ calls) = [] := by
    rw [Ledger.released_append, openedReleased, uses.released, List.append_nil]
  have acquired : ReadFTDI.handles.acquired (opened ++ calls) = ReadFTDI.handles.acquired opened := by
    rw [Ledger.acquired_append, uses.acquired, List.append_nil]
  have quiet : passed (opened.filterMap ReadFTDI.FtCall.line) = [] := by
    rw [opens _ ReadFTDI.FtCall.line fun _ _ => rfl]
    exact congrArg passed (ReadFTDI.filterMap_blind _)
  have silent (grounded : t.Grounded) (none : ∀ i ∈ ReadFTDI.handles.acquired opened, (i == 0) = false) :
      passed ((opened ++ calls).filterMap ReadFTDI.FtCall.line) = [] := by
    have shut : t.opens = false := by
      have first := opened_first opens
      have zero : (ReadFTDI.handles.acquired opened).countP (· == 0) = 0 := by
        rw [List.countP_eq_zero]
        intro i among
        simp [none i among]
      by_contra delivered
      rw [zero, if_pos (Bool.eq_true_of_not_eq_false delivered)] at first
      omega
    rw [List.filterMap_append, passed_append, quiet, unread_loop loops (grounded shut), List.nil_append]
  rw [run] at read
  by_cases ends : returned = none ∧ (t.running.granted true).stops = true
  · have stays : t.returns true = false := by
      have all := uses.goes_on.mp ends.1
      simpa [FtdiTurn.returns] using all
    rw [if_pos ends] at read
    by_cases second : 1 < t.numFtdisvs
    · rw [ReadFTDI.Ftdi.finish_ok second] at read
      obtain ⟨rfl, _⟩ := Prod.mk.inj (Except.ok.inj read)
      show Treats _ _ _ _ _ _ (s'.feed.calls ++ [.ftClose 0, .ftClose 1])
      rw [made]
      refine ⟨⟨_, _, rfl, released, rfl⟩, ?_, fun returns => ?_, fun returns => ?_⟩
      · intro grounded none
        have closing : ReadFTDI.handles.acquired [.ftClose 0, .ftClose 1] = [] := rfl
        have touching : passed ([ReadFTDI.FtCall.ftClose 0, .ftClose 1].filterMap ReadFTDI.FtCall.line) = [] := rfl
        rw [Ledger.acquired_append, acquired, closing, List.append_nil] at none
        rw [List.filterMap_append, passed_append, silent grounded none, touching, List.append_nil]
      · rw [stays] at returns
        cases returns
      · rw [stays] at returns
        cases returns
    · rw [ReadFTDI.Ftdi.finish_outside second] at read
      cases read
  · rw [if_neg ends] at read
    obtain ⟨rfl, _⟩ := Prod.mk.inj (Except.ok.inj read)
    rw [made]
    refine ⟨⟨_, [], (List.append_nil _).symm, released, rfl⟩, ?_, fun _ => released, fun returns => ?_⟩
    · intro grounded none
      rw [acquired] at none
      exact silent grounded none
    · rw [Ledger.held, released, acquired, opened_first opens, returns, Bool.and_true]
      split <;> rfl

theorem station_careless (build : Build) (s : Settings) : Careless (station build true s) := by
  unfold station
  rw [Bool.or_true]
  split
  · exact fun host t past g f tracks served => ftdi_treats tracks served
  split
  · exact fun host t past g f _ served => linux_treats served
  · exact fun host t past g f _ served => raspberry_treats served
  · exact fun host t past g f _ served => windows_treats served

end Receivers

theorem lost_ports_starve (build : Build) (s : Settings) (host : Host) (limit : Nat)
    (early late : List (station build true s).Turn) (f f' : Feed (station build true s).Call)
    (first : serial build true s host early = .ok f) (whole : serial build true s host (early ++ late) = .ok f')
    (limited : (station build true s).ledger.Limited (station build true s).source limit f'.calls)
    (grounded : ∀ t ∈ late, (station build true s).Grounded t)
    (lost : limit ≤ early.countP (station build true s).leaves) :
    (station build true s).heard f'.calls = (station build true s).heard f.calls := by
  have sound := station_sound build true s
  have careless := station_careless build s
  obtain ⟨g, started, tracks⟩ := dataInit_tracks host
  unfold serial at first whole
  rw [started, ok_bind] at first whole
  rw [startListen_append, first, ok_bind] at whole
  split at whole
  · rename_i returns
    obtain ⟨calls, made, received, tracks'⟩ := (sound.listens host early (f := Feed.started g) tracks).2 f first
    have count := Careless.count sound careless (f := Feed.started g) tracks first returns
    have none : (station build true s).ledger.held (station build true s).source [] = 0 := rfl
    have begun : (Feed.started g : Feed (station build true s).Call).calls = [] := rfl
    rw [begun, none] at count
    exact Careless.starves sound careless tracks' whole limited (by omega) grounded
  · rw [Except.ok.inj whole]

def onPort : Settings := ⟨"/dev/ttyS0".toList, [], false, false, false⟩

def oneByte : ReadGpio.SerRead where
  answer count := some ([0xBE].take count)
  bounded := by
    intro count bytes answer
    obtain rfl := Option.some.inj answer
    exact List.length_take_le _ _

def noBytes : ReadGpio.SerRead where
  answer _ := none
  bounded := by
    intro count bytes answer
    cases answer

/-- A byte comes in, and then serRead fails. -/
def failingTurn : RaspberryTurn where
  gpioInitialise := 0
  serOpen := 3
  text := Vector.replicate ReadGpio.textLength 0
  polls := [⟨1, oneByte⟩, ⟨1, noBytes⟩]
  stops := false

def shutTurn : RaspberryTurn where
  gpioInitialise := 0
  serOpen := -1
  text := Vector.replicate ReadGpio.textLength 0
  polls := [⟨1, oneByte⟩]
  stops := false

private def raspberrySessions (turns : List RaspberryTurn) : Checked (Feed PortCall) :=
  serial .raspberry true onPort Host.reliable turns

private def failingCalls : List PortCall :=
  [.openPort .source true, .line (.read [0xBE]), .line (.putReadData 0xBE), .line (.read [])]

private def refusedCalls : List PortCall := failingCalls ++ [.openPort .source false]

private theorem raspberrySessions_calls {turns : List RaspberryTurn} {calls : List PortCall}
    (made : (raspberrySessions turns).map Feed.calls = .ok calls) :
    ∃ f, raspberrySessions turns = .ok f ∧ f.calls = calls := by
  cases ran : raspberrySessions turns with
  | error fault =>
      rw [ran] at made
      cases made
  | ok f =>
      rw [ran] at made
      exact ⟨f, rfl, Except.ok.inj made⟩

theorem lost_ports_starve_raspberry :
    ∃ f f', serial .raspberry true onPort Host.reliable [failingTurn] = .ok f ∧
      serial .raspberry true onPort Host.reliable ([failingTurn] ++ [shutTurn]) = .ok f' ∧
      (station .raspberry true onPort).heard f.calls = [0xBE] ∧
      (station .raspberry true onPort).heard f'.calls = (station .raspberry true onPort).heard f.calls := by
  have early : (raspberrySessions [failingTurn]).map Feed.calls = .ok failingCalls := by decide +kernel
  have both : (raspberrySessions ([failingTurn] ++ [shutTurn])).map Feed.calls = .ok refusedCalls := by decide +kernel
  obtain ⟨f, first, calls⟩ := raspberrySessions_calls early
  obtain ⟨f', whole, calls'⟩ := raspberrySessions_calls both
  have limited : ports.Limited (· == .source) 1 f'.calls := by
    rw [calls']
    intro front within
    have each : ∀ front ∈ refusedCalls.inits, ports.held (· == .source) front ≤ 1 := by decide
    exact each front ((List.mem_inits _ _).mpr within)
  have heard : (station .raspberry true onPort).heard f.calls = [0xBE] := by
    rw [calls]
    rfl
  exact ⟨f, f', first, whole, heard, lost_ports_starve .raspberry onPort Host.reliable 1 [failingTurn] [shutTurn] f f'
    first whole limited (fun _ _ => trivial) (by decide)⟩

end SerialTiming.Laws.LostPorts
