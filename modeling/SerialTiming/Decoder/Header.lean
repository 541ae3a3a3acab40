/- module: SerialTiming/Decoder/Header
   digest: analyseHeader.cpp and serialUtils.cpp: the handlers that remember the last text they sent. -/

import SerialTiming.Decoder.Lane

set_option autoImplicit false
set_option relaxedAutoImplicit false

namespace SerialTiming.Decoder.Header

open CLib.Objects CLib.Strings Scoreboard.Display Scoreboard.Clocks Scoreboard.Boards State Lane

def initanalyseHeader (mqttLongLength : Nat) : Checked CharBuf :=
  forCount mqttLongLength (fun i coloradoHeaderData => storeByte coloradoHeaderData i (some '0')) 0
    (unwritten mqttLongLength)

/-- One round of the loop that keeps the header. It copies whatever lies behind the terminator too. -/
def keepHeader (mydata : CharBuf) (i : Nat) (coloradoHeaderData : CharBuf) : Checked CharBuf := do
  let c ← loadByte mydata i
  storeByte coloradoHeaderData i c

def getHeaderInternal (host : Host) (data : Row) (g : Globals) : Checked Globals := do
  let mydata ← sprintf (unwritten 64) "header %d%d%d %d%d%d".toList
    [shown (data.get 0), shown (data.get 2), shown (data.get 4), shown (data.get 10), shown (data.get 12),
      shown (data.get 14)]
  let blank ← strcmp mydata (literal "header 000 000".toList)
  let (arrayMatch, mydata, g) ←
    if blank = 0 then do
      let mydata ← sprintf mydata "clock".toList []
      .ok (true, mydata, g)
    else do
      let known ← strcmp mydata g.coloradoHeaderData
      if known = 0 then .ok (true, mydata, g)
      else do
        let (_, g) ← mqttSend host mydata g
        let g ← resetAllData (g.setClock (setsendActiveStateOff g.clock))
        .ok (false, mydata, g)
  if arrayMatch then .ok g
  else do
    let (_, g) ← mqttSend host mydata g
    let coloradoHeaderData ← forCount mqttLongLength (keepHeader mydata) 0 g.coloradoHeaderData
    .ok { g with coloradoHeaderData := coloradoHeaderData }

def getHeader (host : Host) (data : Row) (g : Globals) : Checked Globals :=
  getHeaderInternal host data (g.emit (.getHeader data))

/-- `p_round` and `storeRoundsData` after start-up. The global `mydata` is hidden by every function. -/
def initanalyseData : Checked (Int × CharBuf) := do
  let storeRoundsData ←
    forCount mqttLongLength (fun i storeRoundsData => storeByte storeRoundsData i (some '0')) 0
      (unwritten mqttLongLength)
  .ok (0, storeRoundsData)

/-- The block that storeRoundsInternal runs for a text it does not know. -/
def sendRound (host : Host) (mydata : CharBuf) (g : Globals) : Checked Globals := do
  let storeRoundsData ← strcpy g.storeRoundsData mydata
  let g := { g with storeRoundsData := storeRoundsData }
  let sendData ← sprintf (unwritten mqttLongLength) "round %d".toList [g.pRound]
  let (_, g) ← mqttSend host sendData g
  .ok g

def storeRoundsInternal (host : Host) (data : Row) (g : Globals) : Checked Globals := do
  let mydata ← sprintf (unwritten mqttLongLength) "%d%d%d%d%d%d%d%d".toList
    [shown (data.get 0), shown (data.get 2), shown (data.get 4), shown (data.get 6), shown (data.get 8),
      shown (data.get 10), shown (data.get 12), shown (data.get 14)]
  let zero ← strcmp mydata (literal "00000000".toList)
  let g ← if zero = 0 then do
      let g := { g with pRound := 0 }
      let known ← strcmp mydata g.storeRoundsData
      if known ≠ 0 then sendRound host mydata g else .ok g
    else .ok g
  let known ← strcmp mydata g.storeRoundsData
  if known ≠ 0 then sendRound host mydata { g with pRound := Board.nextRound g.pRound } else .ok g

def storeRounds (host : Host) (data : Row) (g : Globals) : Checked Globals :=
  storeRoundsInternal host data (g.emit (.storeRounds data))

/-- Start-up fills a record buffer to its last byte and leaves no room for a terminator. -/
private theorem fill_remembers :
    forCount mqttLongLength (fun i b => storeByte b i (some '0')) 0 (unwritten mqttLongLength) =
      .ok (List.replicate mqttLongLength (some '0')) := by
  have nothingLeft : (unwritten mqttLongLength).drop mqttLongLength = [] := by simp
  have filled := forCount_storeByte (List.replicate mqttLongLength (some '0'))
    (unwritten mqttLongLength) (fun k b inside => by rw [List.getElem_replicate]) (by simp)
  rwa [List.length_replicate, nothingLeft, List.append_nil] at filled

theorem initanalyseHeader_ok : ∃ b, initanalyseHeader mqttLongLength = .ok b ∧ Remembers b none :=
  ⟨_, fill_remembers, rfl⟩

theorem initanalyseData_ok : ∃ b, initanalyseData = .ok (0, b) ∧ Remembers b none :=
  ⟨_, by rw [initanalyseData, fill_remembers, ok_bind], rfl⟩

/-- The copied header is remembered, whatever came along behind its terminator. -/
private theorem keepHeader_remembers {mydata b : CharBuf} {s : List Char} {r : Option (List Char)}
    (holds : Holds mydata s) (short : s.length < mqttLongLength) (long : mqttLongLength ≤ mydata.length)
    (remembers : Remembers b r) :
    ∃ c, forCount mqttLongLength (keepHeader mydata) 0 b = .ok c ∧ Remembers c (some s) := by
  have size : (mydata.take mqttLongLength).length = mqttLongLength := List.length_take_of_le long
  have copies (k : Nat) (d : CharBuf) (inside : k < (mydata.take mqttLongLength).length) :
      keepHeader mydata k d = storeByte d k (mydata.take mqttLongLength)[k] := by
    have there : k < mydata.length := by omega
    simp [keepHeader, loadByte, there]
  have copied := forCount_storeByte (mydata.take mqttLongLength) b copies
    (Nat.le_of_eq (size.trans remembers.length.symm))
  rw [size, List.drop_of_length_le (Nat.le_of_eq remembers.length), List.append_nil] at copied
  exact ⟨_, copied, holds.take short, size⟩

theorem getHeaderInternal_does (host : Host) {g : Globals} {b : Board} (shows : Shows g b) (row : Row) :
    Does (getHeaderInternal host row g) g (b.onHeader row).1 (b.onHeader row).2 := by
  obtain ⟨mydata, printed, header, size⟩ := sprintf_holds (unwritten 64) "header %d%d%d %d%d%d".toList
    [shown (row.get 0), shown (row.get 2), shown (row.get 4), shown (row.get 10), shown (row.get 12),
      shown (row.get 14)]
    (format_clean (by decide)) (Nat.lt_of_le_of_lt (headerText_length row) (by simp))
  have short : (headerText row).length < mqttLongLength :=
    Nat.lt_of_le_of_lt (headerText_length row) (by decide)
  obtain ⟨blank, comparedBlank, meaningBlank⟩ :=
    strcmp_holds header (literal_holds (s := blankHeader) (by decide))
  obtain ⟨known, compared, meaning⟩ := shows.header.strcmp header short
  obtain ⟨clock, printedClock, _⟩ := sprintf_holds mydata "clock".toList [] (by decide) (by rw [size]; decide)
  have literalBlank : "header 000 000".toList = blankHeader := rfl
  have spelled : format "header %d%d%d %d%d%d".toList
    [shown (row.get 0), shown (row.get 2), shown (row.get 4), shown (row.get 10), shown (row.get 12),
      shown (row.get 14)] =
      headerText row := rfl
  simp only [spelled] at header meaningBlank meaning
  simp only [getHeaderInternal, Board.onHeader, printed, literalBlank, comparedBlank, ok_bind, meaningBlank]
  by_cases zero : headerText row = blankHeader
  · simp only [zero, ↓reduceIte, printedClock, ok_bind, true_or]
    exact Does.nothing shows
  · by_cases same : b.header = some (headerText row)
    · simp only [zero, ↓reduceIte, compared, ok_bind, meaning, same, or_true]
      exact Does.nothing shows
    · have sent : Shows (g.handOver host (headerText row)) b := shows.handOver
      obtain ⟨g₁, cleared, shown₁, input₁, trace₁⟩ :=
        resetAllData_does (sent.setClock (setsendActiveStateOff b.clock))
      have again : Shows (g₁.handOver host (headerText row)) _ := shown₁.handOver
      obtain ⟨coloradoHeaderData, kept, remembered⟩ :=
        keepHeader_remembers header short (by rw [size]; decide) again.header
      simp only [zero, ↓reduceIte, compared, ok_bind, meaning, same, or_self, Bool.false_eq_true,
        mqttSend_holds host header, sent.clock, cleared, kept]
      refine ⟨_, rfl, { again with header := remembered }, input₁, ?_⟩
      simp only [Globals.handOver, trace₁]
      simp [Globals.setClock]

theorem getHeader_does (host : Host) {g : Globals} {b : Board} (shows : Shows g b) (row : Row) :
    Does (getHeader host row g) g (b.onHeader row).1 (.getHeader row :: (b.onHeader row).2) :=
  Does.emit (getHeaderInternal_does host (shows.emit rfl) row)

theorem nextRound_range (round : Int) :
    -2 ^ 31 ≤ Board.nextRound round ∧ Board.nextRound round < 2 ^ 31 := by
  have low := Int.le_bmod (x := round + 1) (m := 2 ^ 32) (by decide)
  have high := Int.bmod_lt (x := round + 1) (m := 2 ^ 32) (by decide)
  simp only [Board.nextRound]
  omega

private theorem sendRound_does (host : Host) {g : Globals} {b : Board} (shows : Shows g b)
    {mydata : CharBuf} {s : List Char} (holds : Holds mydata s) (short : s.length < mqttLongLength) :
    Does (sendRound host mydata g) g { b with rounds := some s } [.mqttSend (roundText b.pRound)] := by
  obtain ⟨storeRoundsData, copied, kept, size⟩ :=
    strcpy_holds holds (Nat.lt_of_lt_of_eq short shows.rounds.length.symm)
  have recorded : Shows { g with storeRoundsData := storeRoundsData } { b with rounds := some s } :=
    { shows with rounds := ⟨kept, size.trans shows.rounds.length⟩ }
  obtain ⟨sendData, printed, message, _⟩ := sprintf_holds (unwritten mqttLongLength) "round %d".toList
    [b.pRound] (format_clean (by decide))
    (Nat.lt_of_le_of_lt (roundText_length shows.pRoundRange.1 shows.pRoundRange.2) (by decide))
  rw [← shows.pRound] at printed
  simp only [sendRound, copied, ok_bind, printed]
  exact Does.send recorded message fun _ _ _ shown => Does.nothing shown

theorem storeRoundsInternal_does (host : Host) {g : Globals} {b : Board} (shows : Shows g b) (row : Row) :
    Does (storeRoundsInternal host row g) g (b.onRounds row).1 (b.onRounds row).2 := by
  obtain ⟨mydata, printed, rounds, _⟩ := sprintf_holds (unwritten mqttLongLength)
    "%d%d%d%d%d%d%d%d".toList
    [shown (row.get 0), shown (row.get 2), shown (row.get 4), shown (row.get 6), shown (row.get 8),
      shown (row.get 10), shown (row.get 12), shown (row.get 14)]
    (format_clean (by decide)) (Nat.lt_of_le_of_lt (roundsText_length row) (by decide))
  have short : (roundsText row).length < mqttLongLength :=
    Nat.lt_of_le_of_lt (roundsText_length row) (by decide)
  obtain ⟨zero, comparedZero, meaningZero⟩ :=
    strcmp_holds rounds (literal_holds (s := zeroRounds) (by decide))
  obtain ⟨known, compared, meaning⟩ := shows.rounds.strcmp rounds short
  have literalZero : "00000000".toList = zeroRounds := rfl
  have spelled : format "%d%d%d%d%d%d%d%d".toList
    [shown (row.get 0), shown (row.get 2), shown (row.get 4), shown (row.get 6), shown (row.get 8),
      shown (row.get 10), shown (row.get 12), shown (row.get 14)] = roundsText row := rfl
  simp only [spelled] at rounds meaningZero meaning
  -- a text just recorded compares equal, so the two blocks never both send
  have recorded (c : CharBuf) (holds : Holds c (roundsText row)) : strcmp mydata c = .ok 0 := by
    obtain ⟨v, value, zero⟩ := strcmp_holds rounds holds
    rw [value, zero.mpr rfl]
  have counted (round : Int) (range : -2 ^ 31 ≤ round ∧ round < 2 ^ 31) :
      Shows { g with pRound := round } { b with pRound := round } :=
    { shows with pRound := rfl, pRoundRange := range }
  simp only [storeRoundsInternal, Board.onRounds, printed, literalZero, comparedZero, ok_bind]
  by_cases zeros : roundsText row = zeroRounds
  · have reset := counted 0 (by decide)
    simp only [if_pos zeros, if_pos (meaningZero.mpr zeros), compared, ok_bind]
    by_cases same : b.rounds = some (roundsText row)
    · have equal : ¬ known ≠ 0 := not_not.mpr (meaning.mpr same)
      simp only [if_neg equal, ← same]
      exact Does.nothing reset
    · have differ : known ≠ 0 := fun equal => same (meaning.mp equal)
      simp only [if_neg same, if_pos differ]
      exact Does.bind (sendRound_does host reset rounds short) fun g' shown => by
        rw [recorded _ shown.rounds.1, ok_bind, if_neg (not_not.mpr rfl)]
        exact Does.nothing shown
  · have nonzero : ¬ zero = 0 := fun equal => zeros (meaningZero.mp equal)
    simp only [if_neg zeros, if_neg nonzero, ok_bind, compared]
    by_cases same : b.rounds = some (roundsText row)
    · have equal : ¬ known ≠ 0 := not_not.mpr (meaning.mpr same)
      simp only [if_neg equal, ← same]
      exact Does.nothing shows
    · have differ : known ≠ 0 := fun equal => same (meaning.mp equal)
      simp only [if_neg same, if_pos differ, shows.pRound]
      exact sendRound_does host (counted _ (nextRound_range b.pRound)) rounds short

theorem storeRounds_does (host : Host) {g : Globals} {b : Board} (shows : Shows g b) (row : Row) :
    Does (storeRounds host row g) g (b.onRounds row).1 (.storeRounds row :: (b.onRounds row).2) :=
  Does.emit (storeRoundsInternal_does host (shows.emit rfl) row)

end SerialTiming.Decoder.Header
