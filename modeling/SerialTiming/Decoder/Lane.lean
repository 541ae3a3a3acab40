/- module: SerialTiming/Decoder/Lane
   digest: analyseLane.cpp: the lane records, and that its handler does what the board does. -/

import SerialTiming.Decoder.State

set_option autoImplicit false
set_option relaxedAutoImplicit false

namespace SerialTiming.Decoder.Lane

open CLib.Objects CLib.Strings Scoreboard.Display Scoreboard.Clocks Scoreboard.Boards State

def resetTimeAndPlace (lane : UInt8) (g : Globals) : Checked Globals :=
  if lane = 0 then .ok g -- only prints an internal error
  else do
    let setshortdata ← sprintf (unwritten 8) "%d%d%d%d%d%d".toList
      [arg getNullBit, arg getNullBit, arg getNullBit, arg getNullBit, arg getNullBit, arg getNullBit]
    let nullplace ← sprintf (unwritten 3) "%d".toList [arg getNullBit]
    let place ← load g.coloradoPlaceData (lane - 1).toNat
    let place ← strncpy place nullplace 3
    let coloradoPlaceData ← store g.coloradoPlaceData (lane - 1).toNat place
    let heat ← load g.coloradoHeatData (lane - 1).toNat
    let heat ← strncpy heat setshortdata 8
    let coloradoHeatData ← store g.coloradoHeatData (lane - 1).toNat heat
    .ok { g with coloradoPlaceData := coloradoPlaceData, coloradoHeatData := coloradoHeatData }

def resetAllData (g : Globals) : Checked Globals :=
  forCount displayLaneCount (fun clearnr g => resetTimeAndPlace (UInt8.ofNat (clearnr + 1)) g) 0 g

/-- Before malloc sets them the pointers lead to no bytes at all. -/
def noBuffers : Vector CharBuf 10 := Vector.replicate 10 []

def initHeat (i : Nat) (coloradoHeatData : Vector CharBuf 10) : Checked (Vector CharBuf 10) := do
  let setshortdata ← sprintf (unwritten 12) "%d%d%d%d%d%d".toList
    [arg getNullBit, arg getNullBit, arg getNullBit, arg getNullBit, arg getNullBit, arg getNullBit]
  let heat ← strncpy (unwritten 18) setshortdata 12
  store coloradoHeatData i heat

def initPlace (i : Nat) (coloradoPlaceData : Vector CharBuf 10) : Checked (Vector CharBuf 10) := do
  let nullplace ← sprintf (unwritten 3) "%d".toList [arg getNullBit]
  let place ← strncpy (unwritten 10) nullplace 3
  store coloradoPlaceData i place

def initanalyseLane : Checked (Vector CharBuf 10 × Vector CharBuf 10) := do
  let coloradoHeatData ← forCount displayLaneCount initHeat 0 noBuffers
  let coloradoPlaceData ← forCount displayLaneCount initPlace 0 noBuffers
  .ok (coloradoHeatData, coloradoPlaceData)

def sendLaneData (host : Host) (mydata : CharBuf) (g : Globals) : Checked Globals := do
  let shownText ← text mydata
  let g := g.emit (.sendLaneData shownText)
  if g.clock.sendActiveState then do
    -- a result other than 0 only prints "Error sending"
    let (_, g) ← mqttSend host mydata g
    .ok g
  else .ok g

/-- The six time digits of a row as they are compared and recorded. -/
def printShortdata (data : Row) : Checked CharBuf :=
  sprintf (unwritten 16) "%d%d%d%d%d%d".toList
    [shown (data.get 4), shown (data.get 6), shown (data.get 8), shown (data.get 10), shown (data.get 12),
      shown (data.get 14)]

/-- `strcmp(shortdata, coloradoHeatData[lane - 1])` -/
def compareTime (lane : UInt8) (shortdata : CharBuf) (g : Globals) : Checked Int := do
  let heat ← load g.coloradoHeatData (lane - 1).toNat
  strcmp shortdata heat

/-- The comparison of a rendered row with the lane record: whether nothing has to be sent. -/
def arrayMatches (lane : UInt8) (shortdata place nullshortdata nullplace : CharBuf) (g : Globals) :
    Checked (Bool × Globals) := do
  let sameTime ← compareTime lane shortdata g
  if sameTime = 0 then do
    let recorded ← load g.coloradoPlaceData (lane - 1).toNat
    let samePlace ← strcmp place recorded
    if samePlace ≠ 0 then do
      let zero ← strcmp place nullplace
      if zero ≠ 0 then .ok (false, g) else .ok (true, g)
    else .ok (true, g)
  else do
    let zero ← strcmp shortdata nullshortdata
    if zero = 0 then do
      let g ← resetTimeAndPlace lane g
      .ok (true, g)
    else .ok (false, g)

def getLaneTime (host : Host) (lane : UInt8) (data : Row) (g : Globals) : Checked Globals := do
  let nullshortdata ← sprintf (unwritten 7) "%d%d%d%d%d%d".toList [0, 0, 0, 0, 0, 0]
  let nullplace ← sprintf (unwritten 3) "%d".toList [0]
  let shortdata ← printShortdata data
  let mydata ← sprintf (unwritten 64) "lane %d %d%d:%d%d,%d%d %d".toList
    [arg lane, shown (data.get 4), shown (data.get 6), shown (data.get 8), shown (data.get 10),
      shown (data.get 12), shown (data.get 14), shown (data.get 2)]
  let place ← sprintf (unwritten 3) "%d".toList [shown (data.get 2)]
  let (arrayMatch, g) ← arrayMatches lane shortdata place nullshortdata nullplace g
  let arrayMatch :=
    if checkBitValue (data.get 2) = 0 ∧ checkBitValue (data.get 14) = 13 then true else arrayMatch
  if arrayMatch then .ok g
  else do
    let g ← sendLaneData host mydata g
    let heat ← load g.coloradoHeatData (lane - 1).toNat
    let heat ← strncpy heat shortdata 8
    let coloradoHeatData ← store g.coloradoHeatData (lane - 1).toNat heat
    let recorded ← load g.coloradoPlaceData (lane - 1).toNat
    let recorded ← strncpy recorded place 3
    let coloradoPlaceData ← store g.coloradoPlaceData (lane - 1).toNat recorded
    .ok { g with coloradoHeatData := coloradoHeatData, coloradoPlaceData := coloradoPlaceData }

def analyseActiveData (host : Host) (channel : UInt8) (data : Row) (g : Globals) : Checked Globals :=
  getLaneTime host channel data (g.emit (.analyseActiveData channel data))

private theorem nullText {n : Nat} (room : 6 < n) :
    ∃ b, sprintf (unwritten n) "%d%d%d%d%d%d".toList [0, 0, 0, 0, 0, 0] = .ok b ∧ Holds b zeroTime := by
  have spelled : format "%d%d%d%d%d%d".toList [0, 0, 0, 0, 0, 0] = zeroTime := by decide
  obtain ⟨b, result, holds, _⟩ := sprintf_holds (unwritten n) "%d%d%d%d%d%d".toList
    [0, 0, 0, 0, 0, 0] (by rw [spelled]; decide) (by rw [spelled, unwritten_length]; exact room)
  exact ⟨b, result, spelled ▸ holds⟩

private theorem nullPlaceText :
    ∃ b, sprintf (unwritten 3) "%d".toList [0] = .ok b ∧ Holds b zeroPlace := by
  have spelled : format "%d".toList [0] = zeroPlace := by decide
  obtain ⟨b, result, holds, _⟩ := sprintf_holds (unwritten 3) "%d".toList [0]
    (by rw [spelled]; decide) (by rw [spelled, unwritten_length]; decide)
  exact ⟨b, result, spelled ▸ holds⟩

private theorem shows_setLane {g : Globals} {b : Board} (shows : Shows g b) (lane : Lane)
    {heat place : CharBuf} {h p : List Char} (heatPadded : Padded 9 heat h) (heatSize : heat.length = 18)
    (placePadded : Padded 3 place p) (placeSize : place.length = 10) :
    Shows { g with
      coloradoHeatData := g.coloradoHeatData.set lane.index heat
      coloradoPlaceData := g.coloradoPlaceData.set lane.index place } (b.setLane lane h p) := by
  have cell {α : Type} (v : Vector α 10) (x : α) (i : Nat) (inside : i < 10) :
      (v.set lane.index x)[i] = if lane.index = i then x else v[i] := Vector.getElem_set _ _
  refine { shows with heat := fun i inside => ?_, place := fun i inside => ?_ }
  · simp only [Board.setLane, cell]
    split
    · exact ⟨heatPadded, heatSize⟩
    · exact shows.heat i inside
  · simp only [Board.setLane, cell]
    split
    · exact ⟨placePadded, placeSize⟩
    · exact shows.place i inside

theorem lane_offset (lane : Lane) : (lane.number - 1).toNat = lane.index := by
  have range := lane.inRange
  have below : (1 : UInt8) ≤ lane.number := by
    rw [UInt8.le_iff_toNat_le]
    exact range.1
  rw [UInt8.toNat_sub_of_le _ _ below]
  rfl

theorem resetTimeAndPlace_does {g : Globals} {b : Board} (shows : Shows g b) (lane : Lane) :
    Does (resetTimeAndPlace lane.number g) g (b.setLane lane zeroTime zeroPlace) [] := by
  have nonzero : lane.number ≠ 0 := by
    intro zero
    have range := lane.inRange
    simp [zero] at range
  obtain ⟨setshortdata, printed, time⟩ := nullText (n := 8) (by decide)
  obtain ⟨nullplace, printedPlace, zero⟩ := nullPlaceText
  have zeroArg : arg getNullBit = 0 := by decide
  have inside := lane.index.isLt
  have heatBefore := shows.heat _ inside
  have placeBefore := shows.place _ inside
  obtain ⟨place, copiedPlace, placePadded, placeSize⟩ :=
    strncpy_whole (n := 3) g.coloradoPlaceData[lane.index] zero (by decide)
      (by have := placeBefore.2; simp only [Fin.getElem_fin]; omega)
  obtain ⟨heat, copiedHeat, heatPadded, heatSize⟩ := strncpy_cut heatBefore.1 time
  refine ⟨_, ?_, shows_setLane shows lane heatPadded (heatSize.trans heatBefore.2) placePadded
    (placeSize.trans placeBefore.2), rfl, by simp⟩
  simp only [resetTimeAndPlace, if_neg nonzero, zeroArg, printed, printedPlace, ok_bind, lane_offset,
    load_ok _ inside, store_ok _ _ inside]
  simp only [Fin.getElem_fin] at copiedPlace
  rw [copiedPlace, ok_bind, copiedHeat, ok_bind]

private def clearedTo (b : Board) (k : Nat) : Board :=
  { b with
    heat := Vector.ofFn fun i => if i.val < k then zeroTime else b.heat.get i
    place := Vector.ofFn fun i => if i.val < k then zeroPlace else b.place.get i }

private theorem clearedTo_zero (b : Board) : clearedTo b 0 = b := by
  have heat : (Vector.ofFn fun i : Fin 10 => if i.val < 0 then zeroTime else b.heat.get i) = b.heat := by
    ext i h : 1
    simp [Vector.get_eq_getElem]
  have place : (Vector.ofFn fun i : Fin 10 => if i.val < 0 then zeroPlace else b.place.get i) = b.place := by
    ext i h : 1
    simp [Vector.get_eq_getElem]
  simp only [clearedTo, heat, place]

private theorem clearedTo_all (b : Board) : clearedTo b displayLaneCount = b.clearLanes := by
  simp only [clearedTo, Board.clearLanes, Board.mk.injEq, true_and, and_true]
  constructor
  · ext i h : 1
    simp [displayLaneCount]
  · ext i h : 1
    simp [displayLaneCount]

private theorem clearedTo_succ (b : Board) (lane : Lane) {k : Nat} (next : lane.index.val = k) :
    (clearedTo b k).setLane lane zeroTime zeroPlace = clearedTo b (k + 1) := by
  have step (i : Nat) : (i < k + 1) = (i = k ∨ i < k) := by
    rw [eq_iff_iff]
    omega
  simp only [clearedTo, Board.setLane, Board.mk.injEq, true_and, and_true]
  constructor
  · ext i h : 1
    by_cases here : i = k
    · simp [next, here]
    · simp [next, step, here, Ne.symm here]
  · ext i h : 1
    by_cases here : i = k
    · simp [next, here]
    · simp [next, step, here, Ne.symm here]

theorem resetAllData_does {g : Globals} {b : Board} (shows : Shows g b) :
    Does (resetAllData g) g b.clearLanes [] := by
  have round : ∀ k g', k < displayLaneCount →
      (Shows g' (clearedTo b k) ∧ g'.input = g.input ∧ g'.trace = g.trace) →
      ∃ g'', resetTimeAndPlace (UInt8.ofNat (k + 1)) g' = .ok g'' ∧
        (Shows g'' (clearedTo b (k + 1)) ∧ g''.input = g.input ∧ g''.trace = g.trace) := by
    rintro k g' below ⟨shown, input, trace⟩
    have small : k < 10 := below
    have number : (UInt8.ofNat (k + 1)).toNat = k + 1 := by
      rw [UInt8.toNat_ofNat']
      omega
    let lane : Lane := ⟨UInt8.ofNat (k + 1), by omega⟩
    have index : lane.index.val = k := by
      simp only [Lane.index, lane, number]
      omega
    obtain ⟨g'', result, shown', input', trace'⟩ := resetTimeAndPlace_does shown lane
    rw [clearedTo_succ b lane index] at shown'
    exact ⟨g'', result, shown', input'.trans input, by rw [trace', trace, List.append_nil]⟩
  obtain ⟨g', result, shown, input, trace⟩ :=
    forCount_invariant _ round displayLaneCount 0 g (Nat.zero_add _) ⟨(clearedTo_zero b).symm ▸ shows, rfl, rfl⟩
  rw [clearedTo_all] at shown
  exact ⟨g', result, shown, input, by simp [trace]⟩

private theorem fillBuffers (good : CharBuf → Prop) {x : CharBuf} (isGood : good x)
    {body : Nat → Vector CharBuf 10 → Checked (Vector CharBuf 10)} (stores : ∀ i v, body i v = store v i x) :
    ∃ v, forCount displayLaneCount body 0 noBuffers = .ok v ∧ ∀ i, (h : i < 10) → good v[i] := by
  have round : ∀ k v, k < displayLaneCount → (∀ i, (h : i < 10) → i < k → good v[i]) →
      ∃ w, body k v = .ok w ∧ ∀ i, (h : i < 10) → i < k + 1 → good w[i] := by
    intro k v below before
    have small : k < 10 := below
    refine ⟨v.set k x, by rw [stores, store_ok v x small], fun i inside less => ?_⟩
    rw [Vector.getElem_set]
    split
    · exact isGood
    · exact before i inside (by omega)
  obtain ⟨v, result, all⟩ := forCount_invariant (fun k v => ∀ i, (h : i < 10) → i < k → good v[i]) round
    displayLaneCount 0 noBuffers (Nat.zero_add _) (fun _ _ less => absurd less (Nat.not_lt_zero _))
  exact ⟨v, result, fun i inside => all i inside inside⟩

theorem initanalyseLane_ok :
    ∃ heats places, initanalyseLane = .ok (heats, places) ∧
      (∀ i, (h : i < 10) → Padded 9 heats[i] zeroTime ∧ heats[i].length = 18) ∧
      ∀ i, (h : i < 10) → Padded 3 places[i] zeroPlace ∧ places[i].length = 10 := by
  have zeroArg : arg getNullBit = 0 := by decide
  obtain ⟨setshortdata, printed, time⟩ := nullText (n := 12) (by decide)
  obtain ⟨nullplace, printedPlace, zero⟩ := nullPlaceText
  obtain ⟨heat, copiedHeat, heatPadded, heatSize⟩ :=
    strncpy_whole (n := 12) (unwritten 18) time (by decide) (by simp)
  obtain ⟨place, copiedPlace, placePadded, placeSize⟩ :=
    strncpy_whole (n := 3) (unwritten 10) zero (by decide) (by simp)
  have storesHeat (i : Nat) (v : Vector CharBuf 10) : initHeat i v = store v i heat := by
    simp only [initHeat, zeroArg, printed, ok_bind, copiedHeat]
  have storesPlace (i : Nat) (v : Vector CharBuf 10) : initPlace i v = store v i place := by
    simp only [initPlace, zeroArg, printedPlace, ok_bind, copiedPlace]
  obtain ⟨heats, heatLoop, heatGood⟩ := fillBuffers (fun b => Padded 9 b zeroTime ∧ b.length = 18)
    ⟨heatPadded.shrink (by decide) (by decide), by simpa using heatSize⟩ storesHeat
  obtain ⟨places, placeLoop, placeGood⟩ := fillBuffers (fun b => Padded 3 b zeroPlace ∧ b.length = 10)
    ⟨placePadded, by simpa using placeSize⟩ storesPlace
  exact ⟨heats, places, by rw [initanalyseLane, heatLoop, ok_bind, placeLoop, ok_bind], heatGood, placeGood⟩

theorem sendLaneData_does (host : Host) {g : Globals} {b : Board} {mydata : CharBuf} {s : List Char}
    (shows : Shows g b) (holds : Holds mydata s) :
    Does (sendLaneData host mydata g) g b (b.laneEvents s) := by
  rw [sendLaneData, text_holds holds, ok_bind]
  apply Does.emit
  have shown := Shows.emit (e := .sendLaneData s) shows rfl
  simp only [shown.clock]
  split
  · exact Does.send shown holds fun rc g' _ shown' => Does.nothing shown'
  · exact Does.nothing shown

/-- The comparison says what `announces` says, and a zero time resets the record on the way. -/
theorem printShortdata_holds (row : Row) : ∃ b, printShortdata row = .ok b ∧ Holds b (shortText row) := by
  obtain ⟨b, printed, holds, _⟩ := sprintf_holds (unwritten 16) "%d%d%d%d%d%d".toList
    [shown (row.get 4), shown (row.get 6), shown (row.get 8), shown (row.get 10), shown (row.get 12),
      shown (row.get 14)]
    (format_clean (by decide)) (Nat.lt_of_le_of_lt (shortText_length row) (by simp))
  exact ⟨b, printed, holds⟩

theorem compareTime_holds {g : Globals} {b : Board} (shows : Shows g b) (lane : Lane) {shortdata : CharBuf}
    {s : List Char} (time : Holds shortdata s) :
    ∃ v, compareTime lane.number shortdata g = .ok v ∧ (v = 0 ↔ s = b.heat.get lane.index) := by
  have inside := lane.index.isLt
  obtain ⟨v, compared, meaning⟩ := strcmp_holds time (shows.heat _ inside).1.holds
  refine ⟨v, ?_, meaning⟩
  rw [compareTime, lane_offset, load_ok _ inside, ok_bind, compared]

private theorem arrayMatches_does {g : Globals} {b : Board} (shows : Shows g b) (lane : Lane) (row : Row)
    {shortdata place nullshortdata nullplace : CharBuf} (time : Holds shortdata (shortText row))
    (placeHolds : Holds place (placeText row)) (zero : Holds nullshortdata zeroTime)
    (noPlace : Holds nullplace zeroPlace) :
    ∃ g', arrayMatches lane.number shortdata place nullshortdata nullplace g =
        .ok (!announces (b.heat.get lane.index) (b.place.get lane.index) row, g') ∧
      g'.input = g.input ∧ g'.trace = g.trace ∧
      Shows g'
        (if announces (b.heat.get lane.index) (b.place.get lane.index) row then b else (b.onLane lane row).1) := by
  have inside := lane.index.isLt
  obtain ⟨sameTime, compared, meaning⟩ := compareTime_holds shows lane time
  obtain ⟨samePlace, comparedPlace, meaningPlace⟩ := strcmp_holds placeHolds (shows.place _ inside).1.holds
  obtain ⟨zeroed, comparedZero, meaningZero⟩ := strcmp_holds placeHolds noPlace
  obtain ⟨timeZeroed, comparedTime, meaningTime⟩ := strcmp_holds time zero
  simp only [arrayMatches, lane_offset, load_ok _ inside, ok_bind, compared, comparedPlace, comparedZero,
    comparedTime]
  rw [Vector.get_eq_getElem] at meaning
  simp only [Board.onLane, announces, Vector.get_eq_getElem, meaning, meaningPlace, meaningZero, meaningTime,
    ne_eq]
  by_cases same : shortText row = b.heat[lane.index.val]
  · by_cases known : placeText row = b.place[lane.index.val]
    · exact ⟨g, by simp [same, known], rfl, rfl, by simpa [same, known] using shows⟩
    · by_cases blank : placeText row = zeroPlace
      · exact ⟨g, by simp [same, blank], rfl, rfl, by simpa [same, blank] using shows⟩
      · exact ⟨g, by simp [same, known, blank], rfl, rfl, by simpa [same, known, blank] using shows⟩
  · by_cases cleared : shortText row = zeroTime
    · obtain ⟨g', result, shown, input, trace⟩ := resetTimeAndPlace_does shows lane
      have other : ¬ zeroTime = b.heat[lane.index.val] := cleared ▸ same
      refine ⟨g', by simp [cleared, other, result], input, by simpa using trace, ?_⟩
      simpa [cleared, other] using shown
    · exact ⟨g, by simp [same, cleared], rfl, rfl, by simpa [same, cleared] using shows⟩

/-- A displayed digit is never 13, so the extra test of getLaneTime never fires. -/
private theorem checkBitValue_ne_thirteen (data : UInt8) : checkBitValue data ≠ 13 := by
  intro thirteen
  have bound := checkBitValue_le data
  simp [thirteen] at bound

/-- The lane handler does to the memory what the board does to its lane. -/
theorem getLaneTime_does (host : Host) {g : Globals} {b : Board} (shows : Shows g b) (lane : Lane) (row : Row) :
    Does (getLaneTime host lane.number row g) g (b.onLane lane row).1 (b.onLane lane row).2 := by
  obtain ⟨nullshortdata, printedNull, zero⟩ := nullText (n := 7) (by decide)
  obtain ⟨nullplace, printedNullPlace, noPlace⟩ := nullPlaceText
  obtain ⟨shortdata, printedTime, time⟩ := printShortdata_holds row
  obtain ⟨mydata, printedLane, message, _⟩ := sprintf_holds (unwritten 64) "lane %d %d%d:%d%d,%d%d %d".toList
    [arg lane.number, shown (row.get 4), shown (row.get 6), shown (row.get 8), shown (row.get 10),
      shown (row.get 12), shown (row.get 14), shown (row.get 2)]
    (format_clean (by decide)) (Nat.lt_of_le_of_lt (laneText_length row lane.inRange.2) (by simp))
  obtain ⟨place, printedPlace, placeHolds, _⟩ := sprintf_holds (unwritten 3) "%d".toList [shown (row.get 2)]
    (format_clean (by decide)) (Nat.lt_of_le_of_lt (placeText_length row) (by simp))
  obtain ⟨g₁, compared, input, trace, shown₁⟩ := arrayMatches_does shows lane row time placeHolds zero noPlace
  simp only [getLaneTime, printedNull, printedNullPlace, printedTime, printedLane, printedPlace, compared,
    ok_bind, checkBitValue_ne_thirteen, and_false, ↓reduceIte]
  cases sends : announces (b.heat.get lane.index) (b.place.get lane.index) row with
  | false =>
      simp only [sends, Bool.false_eq_true, ↓reduceIte] at shown₁
      have silent : (b.onLane lane row).2 = [] := by
        simp only [Board.onLane, sends, Bool.false_eq_true, ↓reduceIte]
        split <;> rfl
      exact ⟨g₁, by simp, shown₁, input, by simp [silent, trace]⟩
  | true =>
      simp only [sends, ↓reduceIte] at shown₁
      have announced : b.onLane lane row =
          (b.setLane lane (recordedTime row) (placeText row), b.laneEvents (laneText lane.number row)) := by
        simp only [Board.onLane, sends, ↓reduceIte]
      simp only [Bool.not_true, Bool.false_eq_true, ↓reduceIte, announced]
      obtain ⟨g₂, sent, shown₂, input₂, trace₂⟩ := sendLaneData_does host shown₁ message
      have inside := lane.index.isLt
      have heatBefore := shown₂.heat _ inside
      have placeBefore := shown₂.place _ inside
      obtain ⟨heat, copiedHeat, heatPadded, heatSize⟩ := strncpy_cut heatBefore.1 time
      obtain ⟨recorded, copiedPlace, placePadded, placeSize⟩ :=
        strncpy_whole (n := 3) g₂.coloradoPlaceData[lane.index.val] placeHolds
          (Nat.lt_of_le_of_lt (placeText_length row) (by decide)) (by have := placeBefore.2; omega)
      refine ⟨_, ?_, shows_setLane shown₂ lane heatPadded (heatSize.trans heatBefore.2) placePadded
        (placeSize.trans placeBefore.2), input₂.trans input, by rw [trace₂, trace]; rfl⟩
      simp only [sent, ok_bind, lane_offset, load_ok _ inside, copiedHeat, store_ok _ _ inside, copiedPlace]

theorem analyseActiveData_does (host : Host) {g : Globals} {b : Board} (shows : Shows g b) (lane : Lane)
    (row : Row) :
    Does (analyseActiveData host lane.number row g) g (b.onLane lane row).1
      (.analyseActiveData lane.number row :: (b.onLane lane row).2) :=
  Does.emit (getLaneTime_does host (shows.emit rfl) lane row)

end SerialTiming.Decoder.Lane
