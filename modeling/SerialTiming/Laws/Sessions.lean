/- module: SerialTiming/Laws/Sessions
   digest: What the whole program does over its sessions: what the decoder gets, when memory is left, and lost ports. -/

import SerialTiming.CLib.Outcomes
import SerialTiming.Laws.Handles
import SerialTiming.Program.Listener

set_option autoImplicit false
set_option relaxedAutoImplicit false

namespace SerialTiming.Laws.Sessions

open CLib.Objects CLib.Buffers CLib.Outcomes Decoder.State Decoder.ReadData Machines.Resources
open SerialTiming.Receiver SerialTiming.Receiver.Buffered SerialTiming.Receiver.Calls Program.Listener

section Follows

variable {κ : Type} (host : Host) (line : κ → Option Calls.Call) (g : Globals)

def Follows (f : Feed κ) : Prop := receive host (passed (f.calls.filterMap line)) g = .ok f.globals

variable {host line g} {f : Feed κ}

theorem follows_started : Follows host line g (Feed.started g) := rfl

theorem Follows.quiet (follows : Follows host line g f) {calls : List κ}
    (silent : passed (calls.filterMap line) = []) : Follows host line g (f.logAll calls) := by
  show receive host (passed ((f.calls ++ calls).filterMap line)) g = .ok f.globals
  rw [List.filterMap_append, passed_append, silent, List.append_nil]
  exact follows

theorem Follows.logs (follows : Follows host line g f) {call : κ} (silent : passed ([call].filterMap line) = []) :
    Follows host line g (f.log call) := follows.quiet silent

theorem Follows.given (follows : Follows host line g f) {byte : UInt8} {g' : Globals}
    (parsed : Decoder.ReadData.putReadData host byte f.globals = .ok g') {call : κ}
    (gives : line call = some (.putReadData byte)) : Follows host line g ⟨g', f.calls ++ [call]⟩ := by
  have before : receive host (passed (f.calls.filterMap line)) g = .ok f.globals := follows
  have more : passed ([call].filterMap line) = [byte] := by
    rw [List.filterMap_cons_some gives]
    rfl
  show receive host (passed ((f.calls ++ [call]).filterMap line)) g = .ok g'
  rw [receive] at before
  rw [List.filterMap_append, passed_append, more, receive, List.foldlM_append, before, ok_bind, List.foldlM_cons,
    parsed, ok_bind]
  rfl

theorem Follows.put {call : UInt8 → κ} (gives : ∀ byte, line (call byte) = some (.putReadData byte)) (byte : UInt8)
    (follows : Follows host line g f) : Ensures (Follows host line g) (f.putReadData host call byte) :=
  Ensures.bind (p := fun g' => Decoder.ReadData.putReadData host byte f.globals = .ok g') (fun _ parsed => parsed)
    fun _ parsed => Ensures.ok (follows.given parsed (gives byte))

theorem Follows.dump {n : Nat} {call : UInt8 → κ} (gives : ∀ byte, line (call byte) = some (.putReadData byte))
    (buffer : Vector UInt8 n) (elements : Nat) (follows : Follows host line g f) :
    Ensures (Follows host line g) (f.dump host call buffer elements) :=
  Ensures.forCount (fun _ _ held => Ensures.next fun byte => held.put gives byte) elements 0 follows

end Follows

section Receivers

variable (host : Host) (g : Globals)

theorem seen_line (calls : List Calls.Call) : (calls.map PortCall.line).filterMap PortCall.seen = calls := by
  rw [List.filterMap_map]
  exact List.filterMap_some

theorem linux_follows (forward : Bool) (t : LinuxTurn) :
    Ensures (Follows host PortCall.seen g) (t.serve forward host g) := by
  have receives (result : Read.Result) (r : Read.Reader) (held : Follows host some g r.feed) :
      Ensures (fun r => Follows host some g r.feed) (r.receive result) :=
    Ensures.next fun _ => Ensures.ok (held.logs rfl)
  have forwards (res : Int) (r : Read.Reader) (held : Follows host some g r.feed) :
      Ensures (fun r => Follows host some g r.feed) (r.forwardTo forward res) :=
    Ensures.ite (fun _ => Ensures.next fun _ => Ensures.ok (held.logs rfl)) fun _ => Ensures.ok held
  have terminates (res : Int) (r : Read.Reader) (held : Follows host some g r.feed) :
      Ensures (fun r => Follows host some g r.feed) (r.terminate res) :=
    Ensures.next fun _ => Ensures.ok held
  have analyses (res : Int) (r : Read.Reader) (held : Follows host some g r.feed) :
      Ensures (fun r => Follows host some g r.feed) (r.analyse host res) :=
    (held.dump (fun _ => rfl) r.buf res.toNat).bind fun _ given => Ensures.ok given
  have loops (results : List Read.Result) (r : Read.Reader) (held : Follows host some g r.feed) :
      Ensures (fun r => Follows host some g r.feed) (r.loop host forward results) := by
    induction results generalizing r with
    | nil => exact Ensures.ok held
    | cons result results ih =>
        refine Ensures.bind (p := fun r : Read.Reader => Follows host some g r.feed) ?_ fun r₁ kept => ih r₁ kept
        refine (receives result r held).bind fun r₁ kept => ?_
        refine (forwards _ r₁ kept).bind fun r₂ kept => ?_
        exact (terminates _ r₂ kept).bind fun r₃ kept => analyses _ r₃ kept
  refine Ensures.bind (p := fun r : Read.Reader => Follows host some g r.feed) ?_ fun r held => ?_
  · refine Ensures.ite (fun _ => Ensures.ok follows_started) fun _ => ?_
    exact Ensures.ite (fun _ => Ensures.ok follows_started) fun _ => loops t.results _ follows_started
  · apply Ensures.ok
    have opens : (t.opens forward).filterMap PortCall.seen = [] := by
      unfold LinuxTurn.opens
      split <;> rfl
    have calls : r.feed.calls.filterMap some = r.feed.calls := List.filterMap_some
    unfold Follows at held ⊢
    rw [List.filterMap_append, opens, seen_line, List.nil_append]
    rwa [calls] at held

theorem raspberry_follows (t : RaspberryTurn) : Ensures (Follows host PortCall.seen g) (t.serve host g) := by
  have rounds (b : Int) (bytes : List UInt8) (r : ReadGpio.Reader) (held : Follows host some g r.feed) :
      Ensures (fun r => Follows host some g r.feed) (r.round host b bytes) := by
    refine Ensures.bind (p := fun r : ReadGpio.Reader => Follows host some g r.feed) ?_ fun r₁ kept => ?_
    · exact Ensures.next fun _ => Ensures.ok (held.logs rfl)
    · exact (kept.dump (fun _ => rfl) r₁.text b.toNat).bind fun _ given => Ensures.ok given
  have loops (polls : List ReadGpio.Poll) (r : ReadGpio.Reader) (held : Follows host some g r.feed) :
      Ensures (fun r => Follows host some g r.feed) (r.loop host polls) := by
    induction polls generalizing r with
    | nil => exact Ensures.ok held
    | cons p polls ih =>
        refine Ensures.ite (fun _ => ih r held) fun _ => ?_
        cases p.stores with
        | none => exact Ensures.ok (held.logs rfl)
        | some bytes => exact (rounds _ bytes r held).bind fun r₁ kept => ih r₁ kept
  refine Ensures.bind (p := fun r : ReadGpio.Reader => Follows host some g r.feed) ?_ fun r held => ?_
  · refine Ensures.ite (fun _ => Ensures.ok follows_started) fun _ => ?_
    exact Ensures.ite (fun _ => Ensures.ok follows_started) fun _ => loops t.polls _ follows_started
  · apply Ensures.ok
    have opens : t.opens.filterMap PortCall.seen = [] := by
      unfold RaspberryTurn.opens
      split <;> rfl
    have closes : t.closes.filterMap PortCall.seen = [] := by
      unfold RaspberryTurn.closes
      split <;> rfl
    have calls : r.feed.calls.filterMap some = r.feed.calls := List.filterMap_some
    unfold Follows at held ⊢
    rw [List.filterMap_append, List.filterMap_append, opens, closes, seen_line, List.nil_append, List.append_nil]
    rwa [calls] at held

theorem windows_follows (ndebug : Bool) (portname dstname : List Char) (forward : Bool) (t : WindowsTurn) :
    Ensures (Follows host PortCall.seen g) (t.serve ndebug portname dstname forward host g) := by
  let kept (r : ReadWin.Reader) : Prop := Follows host some g ⟨r.globals, r.calls⟩
  have rounds (result : Option UInt8) (r : ReadWin.Reader) (held : kept r) :
      Ensures kept (r.round host forward result) := by
    have reads : kept (r.readFile result) := held.logs rfl
    have writes : kept (if forward then (r.readFile result).writeFile else r.readFile result) := by
      split
      · exact reads.logs rfl
      · exact reads
    exact Ensures.bind (p := fun g' => Decoder.ReadData.putReadData host _ _ = .ok g') (fun _ parsed => parsed)
      fun _ parsed => Ensures.ok (writes.given parsed rfl)
  have bursts (results : List (Option UInt8)) (r : ReadWin.Reader) (held : kept r) :
      Ensures (fun end_ => kept end_.1) (r.burst host forward results) := by
    induction results generalizing r with
    | nil => exact Ensures.ok held
    | cons result results ih =>
        refine (rounds result r held).bind fun r₁ held₁ => ?_
        exact Ensures.ite (fun _ => ih r₁ held₁) fun _ => Ensures.ok held₁
  have reads (waits : List ReadWin.Wait) (results : List (Option UInt8)) (r : ReadWin.Reader) (held : kept r) :
      Ensures kept (r.read host forward waits results) := by
    induction waits generalizing r results with
    | nil => exact Ensures.ok held
    | cons w waits ih =>
        refine Ensures.bind (p := fun end_ : ReadWin.Reader × List (Option UInt8) => kept end_.1) ?_
          fun end_ held₁ => ?_
        · exact Ensures.ite (fun _ => bursts results r held) fun _ => Ensures.ok held
        · exact Ensures.ite (fun _ => ih _ _ held₁) fun _ => Ensures.ok held₁
  refine Ensures.next fun names => Ensures.ite (fun _ => ?_) fun _ => Ensures.ok rfl
  refine (reads t.waits t.results (ReadWin.Reader.opened t.readData g) rfl).bind fun r held => ?_
  refine Ensures.ok ?_
  have own (sends closes : List PortCall) (noSend : sends.filterMap PortCall.seen = [])
      (noClose : closes.filterMap PortCall.seen = []) :
      (PortCall.openPort .source true :: (sends ++ (r.calls.map .line ++ closes))).filterMap PortCall.seen =
        r.calls.filterMap some := by
    rw [List.filterMap_cons_none rfl, List.filterMap_append, List.filterMap_append, seen_line, noSend, noClose,
      List.filterMap_some, List.nil_append, List.append_nil]
  unfold Follows
  rw [own]
  · exact held
  · split <;> rfl
  · split <;> rfl

theorem ftdi_follows (privileged outputdata : Bool) (t : FtdiTurn) :
    Ensures (Follows host ReadFTDI.FtCall.line g) (t.serve privileged outputdata host g) := by
  let kept (s : ReadFTDI.Ftdi) : Prop := Follows host ReadFTDI.FtCall.line g s.feed
  have reads (bytes : List UInt8) (s : ReadFTDI.Ftdi) (held : kept s) :
      Ensures kept (s.ftRead t.numFtdisvs bytes) :=
    Ensures.next fun device => Ensures.next fun _ => Ensures.ok (held.logs (by cases device <;> rfl))
  have writes (s : ReadFTDI.Ftdi) (held : kept s) : Ensures kept (s.ftWrite t.numFtdisvs) := by
    refine Ensures.next fun device => Ensures.next fun _ => Ensures.ok (held.logs ?_)
    rcases device with _ | _ | device <;> rfl
  have logs (elements : Nat) (s : ReadFTDI.Ftdi) (held : kept s) : Ensures kept (s.logRaw outputdata elements) := by
    have puts (feed : Feed ReadFTDI.FtCall) (held : Follows host ReadFTDI.FtCall.line g feed) :
        Ensures kept (.ok { s with feed := feed }) := Ensures.ok held
    refine Ensures.ite (fun _ => Ensures.bind ?_ puts) fun _ => puts s.feed held
    exact Ensures.forCount (fun _ _ held => Ensures.next fun _ => Ensures.ok (held.logs rfl)) elements 0 held
  have rounds (r : ReadFTDI.Round) (s : ReadFTDI.Ftdi) (held : kept s) :
      Ensures (fun end_ => kept end_.1) (s.round host t.numFtdisvs outputdata r) := by
    refine (reads r.bytes s held).bind fun s₁ held₁ => ?_
    refine Ensures.ite (fun _ => Ensures.ok held₁) fun _ => ?_
    refine (logs _ s₁ held₁).bind fun s₂ held₂ => ?_
    refine Ensures.bind (p := kept) ?_ fun s₃ held₃ => ?_
    · exact Ensures.ite (fun _ => writes s₂ held₂) fun _ => Ensures.ok held₂
    refine Ensures.ite (fun _ => Ensures.ok held₃) fun _ => ?_
    refine Ensures.bind (p := kept) ?_ fun s₄ held₄ => Ensures.ok held₄
    have before : Follows host ReadFTDI.FtCall.line g s₃.feed := held₃
    have gives (byte : UInt8) : ReadFTDI.FtCall.line (.putReadData byte) = some (.putReadData byte) := rfl
    exact (before.dump gives s₃.pcBufRead _).bind fun _ given => Ensures.ok given
  have loops (many : List ReadFTDI.Round) (s : ReadFTDI.Ftdi) (held : kept s) :
      Ensures (fun end_ => kept end_.1) (s.loop host t.numFtdisvs outputdata many) := by
    induction many generalizing s with
    | nil => exact Ensures.ok held
    | cons r many ih =>
        refine (rounds r s held).bind fun end_ held₁ => ?_
        exact Ensures.ite (fun _ => ih end_.1 held₁) fun _ => Ensures.ok held₁
  have closes (i : Nat) (s : ReadFTDI.Ftdi) (held : kept s) : Ensures kept (s.ftClose t.numFtdisvs i) :=
    Ensures.next fun _ => Ensures.ok (held.logs rfl)
  have starts : kept ⟨t.pcBufRead, ReadFTDI.openDevices t.numFtdisvs t.openings (Feed.started g)⟩ := by
    obtain ⟨opened, opens, views⟩ := ReadFTDI.openDevices_calls t.numFtdisvs t.openings (Feed.started g)
    show Follows host _ g (ReadFTDI.openDevices t.numFtdisvs t.openings (Feed.started g))
    rw [opens]
    refine follows_started.quiet ?_
    rw [views _ ReadFTDI.FtCall.line fun _ _ => rfl]
    exact congrArg passed (ReadFTDI.filterMap_blind _)
  refine Ensures.bind (p := fun end_ : ReadFTDI.Ftdi × Option Nat => kept end_.1) ?_ fun end_ held => Ensures.ok held
  refine (loops _ _ starts).bind fun end_ held => ?_
  refine Ensures.ite (fun _ => ?_) fun _ => Ensures.ok held
  exact (closes 0 end_.1 held).bind fun s₁ held₁ => (closes 1 s₁ held₁).bind fun s₂ held₂ => Ensures.ok held₂

end Receivers

section Within

variable {host : Host} {past : List UInt8} {g : Globals}

theorem ends_iff {α β : Type} (x : Checked α) (h : α → β) :
    (∃ b, (do let a ← x; .ok (h a) : Checked β) = .ok b) ↔ ∃ a, x = .ok a := by
  cases x with
  | error fault =>
      constructor
      · rintro ⟨b, result⟩
        cases result
      · rintro ⟨a, result⟩
        cases result
  | ok a => exact ⟨fun _ => ⟨a, rfl⟩, fun _ => ⟨h a, rfl⟩⟩

theorem linux_within (forward : Bool) (t : LinuxTurn) (tracks : Tracks past g) :
    (∃ f, t.serve forward host g = .ok f) ↔ t.Within forward := by
  refine (ends_iff _ _).trans ?_
  unfold Read.Reader.read LinuxTurn.Within LinuxTurn.begins
  split
  · rename_i closed
    have shut : ¬ 0 ≤ t.fd := by omega
    simp [shut]
  split
  · rename_i closed
    have shut : ¬ 0 ≤ t.fo := by omega
    simp [shut, closed.1]
  · rename_i source destination
    have begins : (decide (0 ≤ t.fd) && (!forward || decide (0 ≤ t.fo))) = true := by
      cases forward with
      | false => simpa using source
      | true =>
          simp only [true_and] at destination
          simp only [Bool.not_true, Bool.false_or, Bool.and_eq_true, decide_eq_true_eq]
          omega
    constructor
    · rintro ⟨r, result⟩ _
      by_contra full
      simp only [not_forall] at full
      obtain ⟨bad, among, unfit⟩ := full
      rw [Read.Reader.loop_outside host forward t.results ⟨bad, among, unfit⟩ (r := Read.Reader.opened t.buf g)
        tracks] at result
      cases result
    · intro fits
      obtain ⟨r, result, _⟩ := Read.Reader.loop_ok host forward t.results (fits begins)
        (r := Read.Reader.opened t.buf g) tracks
      exact ⟨r, result⟩

/-- The loop of readGPIO.cpp stays within its buffer as long as what is stored and what is available have room. -/
theorem gpio_within (polls : List ReadGpio.Poll) {r : ReadGpio.Reader} (tracks : Tracks past r.feed.globals) :
    (∃ r', r.loop host polls = .ok r') ↔ ∀ p ∈ ReadGpio.reached polls, p.Fits := by
  induction polls generalizing past r with
  | nil => exact ⟨fun _ p among => absurd among List.not_mem_nil, fun _ => ⟨r, rfl⟩⟩
  | cons p polls ih =>
      rw [ReadGpio.reached, List.forall_mem_cons, ReadGpio.Reader.loop]
      by_cases idle : p.available = 0
      · have goes : ¬ p.Fails := fun fails => fails.1 idle
        have here : p.Fits := fun busy => absurd idle busy
        rw [if_pos idle, if_neg goes, ih tracks]
        simp only [here, true_and]
      rw [if_neg idle]
      cases answer : p.stores with
      | none =>
          have fails : p.Fails := ⟨idle, answer⟩
          have here : p.Fits := fun _ bytes stores => by simp [answer] at stores
          simp [fails, here]
      | some bytes =>
          have goes : ¬ p.Fails := by
            rintro ⟨_, none⟩
            rw [answer] at none
            cases none
          have fits : p.Fits ↔ bytes.length ≤ ReadGpio.textLength ∧ p.available ≤ ReadGpio.textLength := by
            simp [ReadGpio.Poll.Fits, idle, answer]
          rw [if_neg goes, fits]
          show (∃ r', (r.round host p.available bytes >>= fun r => r.loop host polls) = .ok r') ↔ _
          by_cases within : bytes.length ≤ ReadGpio.textLength ∧ p.available ≤ ReadGpio.textLength
          · obtain ⟨r₁, front, first, _, _, _, tracks₁⟩ := ReadGpio.round_ok host tracks (r := r) within.1 within.2
            rw [first, ok_bind, ih tracks₁]
            simp [within]
          · rw [ReadGpio.round_outside host tracks within, error_bind]
            simp [within]

theorem raspberry_within (t : RaspberryTurn) (tracks : Tracks past g) :
    (∃ f, t.serve host g = .ok f) ↔ t.Within := by
  refine (ends_iff _ _).trans ?_
  unfold ReadGpio.Reader.read RaspberryTurn.Within RaspberryTurn.begins
  split
  · rename_i failed
    have shut : ¬ 0 ≤ t.gpioInitialise := by omega
    simp [shut]
  split
  · rename_i failed
    have shut : ¬ 0 ≤ t.serOpen := by omega
    simp [shut]
  · rename_i started opened
    have begins : (decide (0 ≤ t.gpioInitialise) && decide (0 ≤ t.serOpen)) = true := by
      simp only [Bool.and_eq_true, decide_eq_true_eq]
      omega
    rw [gpio_within t.polls (r := ReadGpio.Reader.opened t.text g) tracks]
    exact ⟨fun within _ => within, fun within => within begins⟩

theorem listens_ok (forward : Bool) (t : WindowsTurn) (tracks : Tracks past g) :
    ∃ f, t.listens forward host g = .ok f := by
  obtain ⟨r, _, result, _⟩ := ReadWin.read_hears host forward t.waits t.results
    (r := ReadWin.Reader.opened t.readData g) tracks
  exact ⟨_, by rw [WindowsTurn.listens, result, ok_bind]⟩

theorem windows_within (ndebug : Bool) (portname dstname : List Char) (forward : Bool) (t : WindowsTurn)
    (tracks : Tracks past g) :
    (∃ f, t.serve ndebug portname dstname forward host g = .ok f) ↔ t.Within ndebug portname dstname forward := by
  have goes (names : PortNames.Ports) : ∃ f, (if names.exit = .loops then t.listens forward host g
      else .ok { globals := g, calls := [.openPort .source t.setUp.createFile] }) = .ok f := by
    split
    · exact listens_ok forward t tracks
    · exact ⟨_, rfl⟩
  unfold WindowsTurn.serve WindowsTurn.Within
  by_cases named : ∃ n, PortNames.Names portname n
  · obtain ⟨n, names⟩ := named
    rcases PortNames.read_named ndebug dstname forward t.setUp names with ⟨succeeds, result⟩ | ⟨fails, exit, result⟩
    · rw [result, PortNames.forwardPort]
      cases forward with
      | false =>
          rw [if_neg (by decide), ok_bind]
          exact ⟨fun _ => ⟨⟨n, names⟩, fun off => by cases off⟩, fun _ => goes _⟩
      | true =>
          rw [if_pos rfl]
          by_cases other : ∃ m, PortNames.Names dstname m
          · obtain ⟨m, names'⟩ := other
            rw [PortNames.loadAt_names names', ok_bind, ok_bind]
            exact ⟨fun _ => ⟨⟨n, names⟩, fun _ _ => ⟨m, names'⟩⟩, fun _ => goes _⟩
          · rw [PortNames.loadAt_nameless other, error_bind, error_bind]
            constructor
            · rintro ⟨f, ended⟩
              cases ended
            · rintro ⟨_, destination⟩
              exact absurd (destination rfl succeeds) other
    · rw [result, ok_bind]
      exact ⟨fun _ => ⟨⟨n, names⟩, fun _ succeeds => absurd succeeds fails⟩, fun _ => goes _⟩
  · rw [PortNames.read, PortNames.loadAt_nameless named, error_bind, error_bind]
    constructor
    · rintro ⟨f, ended⟩
      cases ended
    · rintro ⟨source, _⟩
      exact absurd source named

theorem ftdi_within (privileged outputdata : Bool) (t : FtdiTurn) (tracks : Tracks past g) :
    (∃ f, t.serve privileged outputdata host g = .ok f) ↔ t.Within privileged := by
  refine (ends_iff _ _).trans ?_
  unfold FtdiTurn.Within
  rcases Nat.eq_zero_or_pos t.numFtdisvs with none | positive
  · -- without a device no round begins, and the loop does not come to its end
    rw [none]
    unfold ReadFTDI.Ftdi.readftdi
    rcases t.running.granted privileged with ⟨_ | ⟨r, rounds⟩, stops⟩
    · cases stops with
      | false => exact ⟨fun _ => ⟨fun begun => absurd rfl begun, fun off => by cases off⟩, fun _ => ⟨_, rfl⟩⟩
      | true =>
          constructor
          · rintro ⟨s, result⟩
            cases result
          · rintro ⟨_, ends⟩
            exact absurd (ends rfl (by simp)) (by decide)
    · constructor
      · rintro ⟨s, result⟩
        cases result
      · rintro ⟨begins, _⟩
        exact absurd (begins (by simp)) (by decide)
  · obtain ⟨s, opened, calls, returned, result, _, _, loops⟩ := ReadFTDI.Ftdi.readftdi_loops host positive t.openings
      privileged outputdata t.running (s := ReadFTDI.Ftdi.started t.pcBufRead g) tracks
    have goes := (Handles.loop_uses loops).goes_on
    rw [result]
    by_cases ends : returned = none ∧ (t.running.granted privileged).stops = true
    · rw [if_pos ends]
      by_cases second : 1 < t.numFtdisvs
      · rw [ReadFTDI.Ftdi.finish_ok second]
        exact ⟨fun _ => ⟨fun _ => positive, fun _ _ => second⟩, fun _ => ⟨_, rfl⟩⟩
      · rw [ReadFTDI.Ftdi.finish_outside second]
        constructor
        · rintro ⟨s', ended⟩
          cases ended
        · rintro ⟨_, closes⟩
          exact absurd (closes ends.2 (goes.mp ends.1)) second
    · rw [if_neg ends]
      refine ⟨fun _ => ⟨fun _ => positive, fun stops all => ?_⟩, fun _ => ⟨_, rfl⟩⟩
      exact absurd ⟨goes.mpr all, stops⟩ ends

end Within

section Listening

/-- What is known of a turn of any receiver: when it stays within its buffers and tables, and what the decoder holds
after it. -/
structure Sound (S : Station) : Prop where
  within : ∀ (host : Host) (t : S.Turn) (past : List UInt8) (g : Globals), Tracks past g →
    ((∃ f, S.serve host t g = .ok f) ↔ S.Within t)
  follows : ∀ (host : Host) (t : S.Turn) (g : Globals) (f : Feed S.Call), S.serve host t g = .ok f →
    receive host (S.heard f.calls) g = .ok f.globals

theorem station_sound (build : Build) (privileged : Bool) (s : Settings) : Sound (station build privileged s) := by
  unfold station
  split
  · exact ⟨fun host t past g tracks => ftdi_within _ _ t tracks, fun host t g f => ftdi_follows host g _ _ t f⟩
  split
  · exact ⟨fun host t past g tracks => linux_within _ t tracks, fun host t g f => linux_follows host g _ t f⟩
  · exact ⟨fun host t past g tracks => raspberry_within t tracks, fun host t g f => raspberry_follows host g t f⟩
  · exact ⟨fun host t past g tracks => windows_within _ _ _ _ t tracks,
      fun host t g f => windows_follows host g _ _ _ _ t f⟩

variable {S : Station} (sound : Sound S) (host : Host)

include sound

theorem Sound.turn (t : S.Turn) {past : List UInt8} {g : Globals} (tracks : Tracks past g) {f : Feed S.Call}
    (served : S.serve host t g = .ok f) :
    receive host (S.heard f.calls) g = .ok f.globals ∧ Tracks (past ++ S.heard f.calls) f.globals := by
  have follows := sound.follows host t g f served
  obtain ⟨g', received, tracks'⟩ := receive_tracks host tracks (S.heard f.calls)
  rw [follows] at received
  obtain rfl := Except.ok.inj received
  exact ⟨follows, tracks'⟩

/-- The loop of startListen: it ends within memory exactly if each turn that it comes to does, and the decoder goes
from turn to turn as if all bytes had come in one. -/
theorem Sound.listens (turns : List S.Turn) {past : List UInt8} {f : Feed S.Call} (tracks : Tracks past f.globals) :
    ((∃ f', S.startListen host turns f = .ok f') ↔ ∀ t ∈ S.visited turns, S.Within t) ∧
      ∀ f', S.startListen host turns f = .ok f' → ∃ calls, f'.calls = f.calls ++ calls ∧
        receive host (S.heard calls) f.globals = .ok f'.globals ∧ Tracks (past ++ S.heard calls) f'.globals := by
  induction turns generalizing past f with
  | nil =>
      refine ⟨by simp [Station.startListen, Station.visited], ?_⟩
      intro f' result
      obtain rfl := Except.ok.inj result
      refine ⟨[], (List.append_nil _).symm, rfl, ?_⟩
      show Tracks (past ++ []) f.globals
      rwa [List.append_nil]
  | cons t turns ih =>
      rw [Station.startListen, Station.visited, List.forall_mem_cons, ← sound.within host t past f.globals tracks]
      cases served : S.serve host t f.globals with
      | error fault =>
          refine ⟨by simp [error_bind], ?_⟩
          intro f' result
          cases result
      | ok session =>
          obtain ⟨follows, tracks'⟩ := sound.turn host t tracks served
          rw [ok_bind]
          by_cases returns : S.returns t = true
          · obtain ⟨within, later⟩ := ih (f := ⟨session.globals, f.calls ++ session.calls⟩) tracks'
            rw [if_pos returns, if_pos returns, within]
            refine ⟨by simp, ?_⟩
            intro f' result
            obtain ⟨calls, made, received, tracks''⟩ := later f' result
            refine ⟨session.calls ++ calls, ?_, ?_, ?_⟩
            · rw [made, List.append_assoc]
            · rw [receive] at follows received ⊢
              rw [Station.heard, List.filterMap_append, passed_append, List.foldlM_append]
              exact (congrArg (· >>= _) follows).trans received
            · rw [Station.heard, List.filterMap_append, passed_append, ← List.append_assoc]
              exact tracks''
          · rw [if_neg returns, if_neg returns]
            refine ⟨by simp, ?_⟩
            intro f' result
            obtain rfl := Except.ok.inj result
            exact ⟨session.calls, rfl, follows, tracks'⟩

end Listening

theorem sessions_run (build : Build) (privileged : Bool) (s : Settings) (host : Host)
    (turns : List (station build privileged s).Turn) :
    ((∃ f, serial build privileged s host turns = .ok f) ↔
      ∀ t ∈ (station build privileged s).visited turns, (station build privileged s).Within t) ∧
    ∀ f, serial build privileged s host turns = .ok f →
      run host ((station build privileged s).heard f.calls) = .ok f.globals := by
  obtain ⟨g, started, tracks⟩ := dataInit_tracks host
  obtain ⟨within, feeds⟩ := (station_sound build privileged s).listens host turns (f := Feed.started g) tracks
  unfold serial run
  rw [started, ok_bind]
  refine ⟨within, ?_⟩
  intro f result
  obtain ⟨calls, made, received, _⟩ := feeds f result
  have all : f.calls = calls := made
  rw [all, ok_bind]
  exact received

end SerialTiming.Laws.Sessions
