/- module: SerialTiming/Decoder/ReadData
   digest: analyseData.cpp: the byte parser, and that its runs track the board over the counting frames. -/

import SerialTiming.Decoder.Clock
import SerialTiming.Decoder.Header

set_option autoImplicit false
set_option relaxedAutoImplicit false

namespace SerialTiming.Decoder.ReadData

open CLib.Objects CLib.Strings Line.Segments Scoreboard.Display Scoreboard.Clocks Scoreboard.Boards
open State Lane Clock Header

def initReadData : Checked Globals := do
  let (pRound, storeRoundsData) ← initanalyseData
  let (coloradoHeatData, coloradoPlaceData) ← initanalyseLane
  let coloradoHeaderData ← initanalyseHeader mqttLongLength
  .ok {
    input := Input.start
    coloradoData := initCells
    coloradoHeatData := coloradoHeatData
    coloradoPlaceData := coloradoPlaceData
    coloradoHeaderData := coloradoHeaderData
    storeRoundsData := storeRoundsData
    pRound := pRound
    clock := initRunninTime
    startStop := initStartStop
    mqtt := Mqtt.start
    trace := [] }

/-- One round of the loop over a complete buffer: the digit in `buf[j]` goes to its cell. -/
def storeCell (channel bit : UInt8) (j : Nat) (g : Globals) : Checked Globals := do
  let x ← load g.input.buf j
  let coloradoDigitNo := (x >>> 4) &&& 0x07
  let row ← load g.coloradoData channel.toNat
  let row ← store row ((coloradoDigitNo <<< 1) + bit).toNat (~~~x &&& 0x0F)
  let coloradoData ← store g.coloradoData channel.toNat row
  .ok (g.setCells coloradoData coloradoDigitNo)

def bufferedFrame (buf : Vector UInt8 10) (length : UInt8) : Segment :=
  ⟨buf[0], (buf.toList.drop 1).take (length.toNat - 1)⟩

/-- The handlers of the stored row. They get a pointer to it and none of them writes to it. -/
def dispatchRow (host : Host) (channel : UInt8) (row : Row) (g : Globals) : Checked Globals :=
  if channel ≠ 0x00 ∧ channel < UInt8.ofNat (displayLaneCount + 1) then
    analyseActiveData host channel row g
  else if channel = 0x00 then do
    let g ← checkStartStop host row g
    getTime host row g
  else if channel = 0x0C then getHeader host row g
  else if channel = 0x12 then storeRounds host row g
  else .ok g

/-- What an address byte does first: a buffer of the right length is stored and dispatched. -/
def closeBuffer (host : Host) (g : Globals) : Checked Globals :=
  if g.input.coloradoStartDetected = 0x01 then do
    let channel := g.input.coloradoControlChannel
    let length ← load coloradoChannelLength channel.toNat
    if g.input.inCount = length then do
      let g := g.emit (.accept (bufferedFrame g.input.buf length))
      let g ← forCount (length.toNat - 1) (storeCell channel g.input.coloradoControlBit) 1 g
      let row ← load g.coloradoData channel.toNat
      dispatchRow host channel row g
    else .ok g
  else .ok g

def putReadData (host : Host) (readData : UInt8) (g : Globals) : Checked Globals :=
  if readData &&& 0x80 = 0x80 then do
    let g ← closeBuffer host g
    let buf ← store g.input.buf 0 readData
    let address ← load buf 0
    .ok { g with input := { g.input with
      inCount := 1
      coloradoStartDetected := 0x01
      buf := buf
      coloradoControlBit := address &&& 0x01
      coloradoControlChannel := ~~~(address >>> 1) &&& 0x1F } }
  else if g.input.coloradoStartDetected = 0x01 then do
    let buf ← store g.input.buf g.input.inCount.toNat readData
    let inCount := g.input.inCount + 1
    .ok { g with input := { g.input with
      buf := buf
      inCount := inCount
      coloradoStartDetected := if inCount > 9 then 0x00 else g.input.coloradoStartDetected } }
  else .ok g

/-- The message dataInit sends before the first byte. -/
def greeting : List Char := "utils init (mqtt rawdata)".toList

/-- Start-up. Whether mqtt_connect got a client is the host's. -/
def dataInit (host : Host) : Checked Globals := do
  let g ← initReadData
  let (_, g) ← mqttSend host (literal greeting) g
  .ok g

def receive (host : Host) (bytes : List UInt8) (g : Globals) : Checked Globals :=
  bytes.foldlM (fun g readData => putReadData host readData g) g

def run (host : Host) (bytes : List UInt8) : Checked Globals := do
  let g ← dataInit host
  receive host bytes g

/-- One connection after the other; nothing is reset in between. -/
def startListen (host : Host) (sessions : List (List UInt8)) : Checked Globals := do
  let g ← dataInit host
  sessions.foldlM (fun g bytes => receive host bytes g) g

/-- The parser holds the open segment `s` in its buffer. -/
structure Collects (s : Segment) (i : Input) : Prop where
  start : i.coloradoStartDetected = 0x01
  short : s.data.length ≤ 8
  count : i.inCount.toNat = s.data.length + 1
  channel : i.coloradoControlChannel = s.channel
  controlBit : i.coloradoControlBit = s.controlBit
  address : i.buf[0] = s.address
  data : ∀ k, (h : k < s.data.length) → ∃ h' : 1 + k < 10, i.buf[1 + k] = s.data[k]

/-- The parser's globals after `bytes`: waiting, collecting, or thrown off by a ninth data byte. -/
def Parses (bytes : List UInt8) (i : Input) : Prop :=
  (segments bytes = [] ∧ i.coloradoStartDetected = 0x00) ∨
  ∃ done s, segments bytes = done ++ [s] ∧
    (Collects s i ∨ (8 < s.data.length ∧ i.coloradoStartDetected = 0x00))

theorem Collects.unique {s t : Segment} {i : Input} (first : Collects s i) (second : Collects t i) : s = t := by
  have address : s.address = t.address := first.address.symm.trans second.address
  have count := first.count.symm.trans second.count
  have data : s.data = t.data := by
    apply List.ext_getElem (by omega)
    intro k inside inside'
    obtain ⟨_, held⟩ := first.data k inside
    obtain ⟨_, held'⟩ := second.data k inside'
    exact held.symm.trans held'
  cases s
  cases t
  simp_all

private theorem Parses.open {bytes : List UInt8} {i : Input} (parses : Parses bytes i) :
    (i.coloradoStartDetected = 0x00 ∧ ∀ more, completed (pendingSegment bytes) more = completed none more) ∨
    ∃ s, Collects s i ∧ pendingSegment bytes = some s := by
  rcases parses with ⟨none, waits⟩ | ⟨done, s, last, collects | ⟨long, waits⟩⟩
  · refine .inl ⟨waits, fun more => ?_⟩
    rw [pendingSegment, none]
    rfl
  · exact .inr ⟨s, collects, by rw [pendingSegment, last, List.getLast?_concat]⟩
  · refine .inl ⟨waits, fun more => ?_⟩
    have rejected : ¬ (⟨s.address, s.data ++ (cut more).1⟩ : Segment).Counts := by
      intro counts
      have short := counts.data_length
      simp only [List.length_append] at short
      omega
    rw [pendingSegment, last, List.getLast?_concat, completed, completed]
    simp [closing, rejected]

/-- Which frames more bytes complete is in the parser's globals. -/
theorem parses_completed {past past' : List UInt8} {i : Input} (first : Parses past i) (second : Parses past' i)
    (bytes : List UInt8) : completed (pendingSegment past) bytes = completed (pendingSegment past') bytes := by
  rcases first.open with ⟨waits, none⟩ | ⟨s, collects, opened⟩
  · rcases second.open with ⟨_, none'⟩ | ⟨t, collects', _⟩
    · rw [none, none']
    · exact absurd (waits.symm.trans collects'.start) (by decide)
  · rcases second.open with ⟨waits', _⟩ | ⟨t, collects', opened'⟩
    · exact absurd (waits'.symm.trans collects.start) (by decide)
    · rw [opened, opened', collects.unique collects']

/-- The globals after `bytes`: the parser parses them, the memory shows the board after the counting
frames, and the trace is the greeting and the board's events. -/
structure Tracks (bytes : List UInt8) (g : Globals) : Prop where
  parses : Parses bytes g.input
  shows : Shows g (after (countingFrames bytes)).1
  trace : g.trace = .mqttSend greeting :: (after (countingFrames bytes)).2

theorem dataInit_tracks (host : Host) : ∃ g, dataInit host = .ok g ∧ Tracks [] g := by
  obtain ⟨storeRoundsData, startRounds, rounds⟩ := initanalyseData_ok
  obtain ⟨heats, places, startLane, heat, place⟩ := initanalyseLane_ok
  obtain ⟨coloradoHeaderData, startHeader, header⟩ := initanalyseHeader_ok
  let g : Globals := {
    input := Input.start, coloradoData := initCells, coloradoHeatData := heats, coloradoPlaceData := places,
    coloradoHeaderData := coloradoHeaderData, storeRoundsData := storeRoundsData, pRound := 0,
    clock := initRunninTime, startStop := initStartStop, mqtt := Mqtt.start, trace := [] }
  have started : initReadData = .ok g := by
    simp only [initReadData, startRounds, startLane, startHeader, ok_bind, g]
  have shows : Shows g Board.start := {
    cells := rfl
    heat := fun i inside => by simpa [Board.start] using heat i inside
    place := fun i inside => by simpa [Board.start] using place i inside
    header := header
    rounds := rounds
    pRound := rfl
    pRoundRange := by decide
    clock := rfl
    startStop := rfl
    calls := rfl }
  refine ⟨g.handOver host greeting, ?_, .inl ⟨rfl, rfl⟩, shows.handOver, rfl⟩
  simp only [dataInit, started, ok_bind, mqttSend_holds host (literal_holds (s := greeting) (by decide))]

/-- The handlers of a row do to the memory what the board's dispatch does. -/
theorem dispatchRow_does (host : Host) {g : Globals} {b : Board} (shows : Shows g b) (channel : UInt8)
    (row : Row) :
    Does (dispatchRow host channel row g) g (b.dispatch channel row).1 (b.dispatch channel row).2 := by
  have laneChannel : (channel ≠ 0x00 ∧ channel < UInt8.ofNat (displayLaneCount + 1)) ↔
      1 ≤ channel.toNat ∧ channel.toNat ≤ 10 := by
    have lanes : (UInt8.ofNat (displayLaneCount + 1)).toNat = 11 := by decide
    simp only [UInt8.lt_iff_toNat_lt, lanes, ne_eq, ← UInt8.toNat_inj, UInt8.toNat_zero]
    omega
  simp only [dispatchRow, Board.dispatch, laneChannel]
  split
  · rename_i lane
    exact analyseActiveData_does host shows ⟨channel, lane⟩ row
  · split
    · exact Does.bind (checkStartStop_does host shows row) fun g' shown => getTime_does host shown row
    · split
      · exact getHeader_does host shows row
      · split
        · exact storeRounds_does host shows row
        · exact Does.nothing shows

private theorem storeCells (s : Segment) (g : Globals)
    (data : ∀ k, (h : k < s.data.length) → ∃ h' : 1 + k < 10, g.input.buf[1 + k] = s.data[k]) :
    ∃ digit, forCount s.data.length (storeCell s.channel s.controlBit) 1 g =
      .ok (g.setCells (storeFrame g.coloradoData s) digit) := by
  let step (g : Globals) (x : UInt8) : Globals := g.setCells (storeDigit s g.coloradoData x) (digitNo x)
  have round (g : Globals) (j : Nat) (inside : j < 10) :
      storeCell s.channel s.controlBit j g = .ok (step g g.input.buf[j]) := by
    have column : ((((g.input.buf[j] >>> 4) &&& 0x07) <<< 1) + s.controlBit).toNat < 16 :=
      cell_lt (digitNo_le g.input.buf[j]) (controlBitOf_le s.address)
    have row : s.channel.toNat < 32 := s.channel_lt
    simp only [storeCell, load_ok _ inside, ok_bind, load_ok _ row, store_ok _ _ column, store_ok _ _ row]
    rfl
  have loop := forCount_fold (fun g : Globals => g.input.buf) step round (fun _ _ => rfl)
    s.data 1 g data
  have fold (xs : List UInt8) (g : Globals) :
      ∃ digit, xs.foldl step g = g.setCells (xs.foldl (storeDigit s) g.coloradoData) digit := by
    induction xs generalizing g with
    | nil => exact ⟨g.input.coloradoDigitNo, rfl⟩
    | cons x xs ih => exact ih (step g x)
  obtain ⟨digit, folded⟩ := fold s.data g
  exact ⟨digit, by rw [loop, folded]; rfl⟩

private theorem Collects.buffered {s : Segment} {i : Input} (collects : Collects s i) :
    (i.buf.toList.drop 1).take s.data.length = s.data := by
  have short := collects.short
  apply List.ext_getElem
  · simp only [List.length_take, List.length_drop, Vector.length_toList]
    omega
  · intro k inside inData
    obtain ⟨_, held⟩ := collects.data k inData
    simpa [Nat.add_comm k 1] using held

private theorem closeBuffer_counts (host : Host) {g : Globals} {b : Board} (shows : Shows g b) {s : Segment}
    (collects : Collects s g.input) (counts : s.Counts) :
    ∃ g', closeBuffer host g = .ok g' ∧ Shows g' (b.frame s).1 ∧ g'.trace = g.trace ++ (b.frame s).2 := by
  have row : s.channel.toNat < 32 := s.channel_lt
  have length : coloradoChannelLength[s.channel.toNat].toNat = s.data.length + 1 := counts.symm
  have complete : g.input.inCount = coloradoChannelLength[s.channel.toNat] :=
    UInt8.toNat_inj.mp (collects.count.trans length.symm)
  have frame : bufferedFrame g.input.buf coloradoChannelLength[s.channel.toNat] = s := by
    rw [bufferedFrame, length, Nat.add_sub_cancel, collects.buffered, collects.address]
  have accepted : Shows (g.emit (.accept s)) b := shows.emit rfl
  obtain ⟨digit, stored⟩ := storeCells s (g.emit (.accept s)) collects.data
  rw [Globals.emit_coloradoData, shows.cells] at stored
  obtain ⟨g', result, shows', _, trace⟩ := dispatchRow_does host
    (accepted.setCells (storeFrame b.cells s) digit) s.channel (rowOf (storeFrame b.cells s) s)
  refine ⟨g', ?_, shows', by simpa [Board.frame, Board.stored, Board.read] using trace⟩
  rw [closeBuffer, if_pos collects.start]
  simp only [collects.channel, Globals.emit_input, collects.controlBit, load_ok _ row, ok_bind, if_pos complete, frame,
    length, Nat.add_sub_cancel, stored, Globals.setCells_coloradoData]
  exact result

private theorem closeBuffer_rejects (host : Host) {g : Globals} {s : Segment} (collects : Collects s g.input)
    (rejected : ¬ s.Counts) : closeBuffer host g = .ok g := by
  have row : s.channel.toNat < 32 := s.channel_lt
  have other : g.input.inCount ≠ coloradoChannelLength[s.channel.toNat] := by
    intro same
    exact rejected (collects.count.symm.trans (congrArg UInt8.toNat same))
  rw [closeBuffer, if_pos collects.start]
  simp only [collects.channel, load_ok _ row, ok_bind, if_neg other]

private theorem closeBuffer_waits (host : Host) {g : Globals} (waits : g.input.coloradoStartDetected = 0x00) :
    closeBuffer host g = .ok g := by
  have idle : ¬ g.input.coloradoStartDetected = 0x01 := by
    rw [waits]
    decide
  rw [closeBuffer, if_neg idle]

/-- An address byte closes what was open: the memory shows the board after the frames that count now. -/
private theorem closes (host : Host) {bytes : List UInt8} {g : Globals} (tracks : Tracks bytes g) {a : UInt8}
    (address : isAddress a = true) :
    ∃ g', closeBuffer host g = .ok g' ∧
      Shows g' (after (countingFrames (bytes ++ [a]))).1 ∧
      g'.trace = .mqttSend greeting :: (after (countingFrames (bytes ++ [a]))).2 := by
  obtain ⟨parses, shows, trace⟩ := tracks
  have closed := countingFrames_snoc_address bytes address
  rcases parses with ⟨none, waits⟩ | ⟨done, s, last, collects | ⟨long, waits⟩⟩
  · have before : countingFrames bytes = [] := by simp [countingFrames, closedSegments, none]
    rw [before] at shows trace
    rw [closed.1 none]
    exact ⟨g, closeBuffer_waits host waits, shows, trace⟩
  · rw [closed.2 done s last]
    by_cases counts : s.Counts
    · obtain ⟨g', result, shows', trace'⟩ := closeBuffer_counts host shows collects counts
      rw [if_pos counts, after_snoc]
      exact ⟨g', result, shows', by rw [trace', trace, List.cons_append]⟩
    · rw [if_neg counts, List.append_nil]
      exact ⟨g, closeBuffer_rejects host collects counts, shows, trace⟩
  · have rejected : ¬ s.Counts := fun counts => absurd counts.data_length (by omega)
    rw [closed.2 done s last, if_neg rejected, List.append_nil]
    exact ⟨g, closeBuffer_waits host waits, shows, trace⟩

private theorem putReadData_address (host : Host) {bytes : List UInt8} {g : Globals} (tracks : Tracks bytes g)
    {a : UInt8} (address : isAddress a = true) :
    ∃ g', putReadData host a g = .ok g' ∧ Tracks (bytes ++ [a]) g' := by
  have masked : a &&& 0x80 = 0x80 := by simpa [isAddress] using address
  obtain ⟨g', closed, shows, trace⟩ := closes host tracks address
  have first : 0 < 10 := by decide
  simp only [putReadData, if_pos masked, closed, ok_bind, store_ok _ _ first, load_ok _ first]
  refine ⟨_, rfl, .inr ⟨segments bytes, ⟨a, []⟩, segments_snoc_address bytes address, .inl ?_⟩,
    { shows with }, trace⟩
  exact {
    start := rfl
    short := Nat.zero_le 8
    count := rfl
    channel := by simp [Segment.channel, channelOf]
    controlBit := by simp [Segment.controlBit, controlBitOf]
    address := by simp
    data := fun _ inside => absurd inside (Nat.not_lt_zero _) }

private theorem collects_snoc {s : Segment} {i : Input} (collects : Collects s i) (x : UInt8) :
    ∃ h : i.inCount.toNat < 10, ∀ start, start = (if i.inCount + 1 > 9 then 0x00 else i.coloradoStartDetected) →
      Collects ⟨s.address, s.data ++ [x]⟩ { i with
          buf := i.buf.set i.inCount.toNat x, inCount := i.inCount + 1, coloradoStartDetected := start } ∨
        (8 < (s.data ++ [x]).length ∧ start = 0x00) := by
  have short := collects.short
  have count := collects.count
  have inside : i.inCount.toNat < 10 := by omega
  have next : (i.inCount + 1).toNat = i.inCount.toNat + 1 := by
    rw [UInt8.toNat_add, UInt8.toNat_one]
    omega
  refine ⟨inside, ?_⟩
  rintro start rfl
  by_cases full : s.data.length = 8
  · have past : i.inCount + 1 > 9 := by
      rw [gt_iff_lt, UInt8.lt_iff_toNat_lt, next, count, full]
      decide
    exact .inr ⟨by simp [full], if_pos past⟩
  · have room : ¬ i.inCount + 1 > 9 := by
      rw [gt_iff_lt, UInt8.lt_iff_toNat_lt, next, count]
      have nine : (9 : UInt8).toNat = 9 := rfl
      omega
    refine .inl {
      start := (if_neg room).trans collects.start
      short := by simp only [List.length_append, List.length_singleton]; omega
      count := by simp only [next, count, List.length_append, List.length_singleton]
      channel := collects.channel
      controlBit := collects.controlBit
      address := ?_
      data := ?_ }
    · rw [Vector.getElem_set_ne _ _ (by omega)]
      exact collects.address
    · intro k inData
      simp only [List.length_append, List.length_singleton] at inData
      refine ⟨by omega, ?_⟩
      rw [Vector.getElem_set, List.getElem_append]
      by_cases new : k = s.data.length
      · have here : i.inCount.toNat = 1 + k := by omega
        simp [here, new]
      · have there : i.inCount.toNat ≠ 1 + k := by omega
        have old : k < s.data.length := by omega
        obtain ⟨_, held⟩ := collects.data k old
        simpa [there, old] using held

private theorem putReadData_data (host : Host) {bytes : List UInt8} {g : Globals} (tracks : Tracks bytes g)
    {x : UInt8} (data : isAddress x = false) :
    ∃ g', putReadData host x g = .ok g' ∧ Tracks (bytes ++ [x]) g' := by
  have unmasked : ¬ x &&& 0x80 = 0x80 := by simpa [isAddress] using data
  obtain ⟨parses, shows, trace⟩ := tracks
  rw [putReadData, if_neg unmasked]
  have same := countingFrames_snoc_data bytes data
  rcases parses with ⟨none, waits⟩ | ⟨done, s, last, collects | ⟨long, waits⟩⟩
  · exact ⟨g, by simp [waits], .inl ⟨segments_snoc_lead data none, waits⟩, same ▸ shows, same ▸ trace⟩
  · obtain ⟨inside, collected⟩ := collects_snoc collects x
    rw [if_pos collects.start, store_ok _ _ inside, ok_bind]
    exact ⟨_, rfl, .inr ⟨done, _, segments_snoc_data data last, collected _ rfl⟩,
      same ▸ { shows with }, same ▸ trace⟩
  · exact ⟨g, by simp [waits], .inr ⟨done, _, segments_snoc_data data last,
      .inr ⟨by simp only [List.length_append]; omega, waits⟩⟩, same ▸ shows, same ▸ trace⟩

theorem putReadData_tracks (host : Host) {bytes : List UInt8} {g : Globals} (tracks : Tracks bytes g)
    (b : UInt8) : ∃ g', putReadData host b g = .ok g' ∧ Tracks (bytes ++ [b]) g' := by
  cases kind : isAddress b with
  | false => exact putReadData_data host tracks kind
  | true => exact putReadData_address host tracks kind

theorem receive_tracks (host : Host) {before : List UInt8} {g : Globals} (tracks : Tracks before g)
    (bytes : List UInt8) : ∃ g', receive host bytes g = .ok g' ∧ Tracks (before ++ bytes) g' := by
  induction bytes generalizing before g with
  | nil => exact ⟨g, rfl, by simpa using tracks⟩
  | cons b bytes ih =>
      obtain ⟨g₁, first, tracks₁⟩ := putReadData_tracks host tracks b
      obtain ⟨g₂, rest, tracks₂⟩ := ih tracks₁
      refine ⟨g₂, ?_, by simpa using tracks₂⟩
      simpa only [receive, List.foldlM_cons, first, ok_bind] using rest

/-- The program runs on every stream and tracks the board over the frames that count. -/
theorem run_tracks (host : Host) (bytes : List UInt8) : ∃ g, run host bytes = .ok g ∧ Tracks bytes g := by
  obtain ⟨g₀, started, tracks₀⟩ := dataInit_tracks host
  obtain ⟨g, received, tracks⟩ := receive_tracks host tracks₀ bytes
  exact ⟨g, by rw [run, started, ok_bind, received], by simpa using tracks⟩

private theorem sessions_flatten (host : Host) (sessions : List (List UInt8)) (g : Globals) :
    sessions.foldlM (fun g bytes => receive host bytes g) g = receive host sessions.flatten g := by
  induction sessions generalizing g with
  | nil => rfl
  | cons bytes sessions ih =>
      simp only [receive, List.flatten_cons, List.foldlM_append, List.foldlM_cons] at ih ⊢
      cases bytes.foldlM (fun g readData => putReadData host readData g) g with
      | error fault => rfl
      | ok next => simpa only [ok_bind] using ih next

/-- Sessions follow each other as if their bytes had come in one connection. -/
theorem startListen_flatten (host : Host) (sessions : List (List UInt8)) :
    startListen host sessions = run host sessions.flatten := by
  simp only [startListen, run, sessions_flatten]

end SerialTiming.Decoder.ReadData
