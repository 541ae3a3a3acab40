/- module: SerialTiming/Decoder/Clock
   digest: analyseRunningTime.cpp and analyseStartStop.cpp: the handlers of the clock row. -/

import SerialTiming.Decoder.Lane

set_option autoImplicit false
set_option relaxedAutoImplicit false

namespace SerialTiming.Decoder.Clock

open CLib.Objects CLib.Strings Scoreboard.Display Scoreboard.Clocks Scoreboard.Boards State Lane

def getTimeInternal (host : Host) (data : Row) (g : Globals) : Checked Globals := do
  let g ← if g.clock.loopcount > sendTimeEveryCounts then do
      let clock := if g.clock.headerChange then g.clock else (timehundredth data g.clock).2
      let g := g.setClock { clock with headerChange := false }
      let mydata ← sprintf (unwritten 64) "time %d%d:%d%d,%d".toList
        [shown (data.get 4), shown (data.get 6), shown (data.get 8), shown (data.get 10), shown (data.get 12)]
      let (_, g) ← mqttSend host mydata g
      .ok (g.setClock { g.clock with loopcount := 0 })
    else .ok g
  .ok (g.setClock { g.clock with loopcount := g.clock.loopcount + 1 })

def getTime (host : Host) (data : Row) (g : Globals) : Checked Globals :=
  getTimeInternal host data (g.emit (.getTime data))

/-- What checkStartStopInternal does when the clock has started or stopped. -/
def startOrStop (host : Host) (g : Globals) : Checked Globals := do
  let g ← resetAllData g
  if g.startStop.bRunning then do
    let mydata ← sprintf (unwritten mqttLongLength) "start".toList []
    let (_, g) ← mqttSend host mydata g
    .ok g
  else do
    let mydata ← sprintf (unwritten mqttLongLength) "stop".toList []
    let (_, g) ← mqttSend host mydata g
    .ok g

def checkStartStopInternal (host : Host) (data : Row) (g : Globals) : Checked Globals := do
  let g := g.setStartStop (g.startStop.watch data)
  let g ← if g.startStop.bStopping ≠ g.startStop.bRunning then startOrStop host g else .ok g
  .ok (g.setStartStop g.startStop.settle)

def checkStartStop (host : Host) (data : Row) (g : Globals) : Checked Globals :=
  checkStartStopInternal host data (g.emit (.checkStartStop data))

theorem getTimeInternal_does (host : Host) {g : Globals} {b : Board} (shows : Shows g b) (row : Row) :
    Does (getTimeInternal host row g) g (b.onTime row).1 (b.onTime row).2 := by
  obtain ⟨mydata, printed, message, _⟩ := sprintf_holds (unwritten 64) "time %d%d:%d%d,%d".toList
    [shown (row.get 4), shown (row.get 6), shown (row.get 8), shown (row.get 10), shown (row.get 12)]
    (format_clean (by decide)) (Nat.lt_of_le_of_lt (timeText_length row) (by simp))
  simp only [getTimeInternal, Board.onTime, shows.clock]
  split
  · simp only [printed, ok_bind, mqttSend_holds host message]
    exact ⟨_, rfl, ((shows.setClock _).handOver).setClock _, rfl, rfl⟩
  · simp only [ok_bind, shows.clock]
    exact Does.setClock shows _

theorem getTime_does (host : Host) {g : Globals} {b : Board} (shows : Shows g b) (row : Row) :
    Does (getTime host row g) g (b.onTime row).1 (.getTime row :: (b.onTime row).2) :=
  Does.emit (getTimeInternal_does host (shows.emit rfl) row)

private theorem plain_holds {s fmt : List Char} (plain : format fmt [] = s) (clean : nul ∉ s)
    (short : s.length < mqttLongLength) :
    ∃ b, sprintf (unwritten mqttLongLength) fmt [] = .ok b ∧ Holds b s := by
  obtain ⟨b, result, holds, _⟩ := sprintf_holds (unwritten mqttLongLength) fmt [] (plain ▸ clean)
    (by rw [plain, unwritten_length]; exact short)
  exact ⟨b, result, plain ▸ holds⟩

private theorem startOrStop_does (host : Host) {g : Globals} {b : Board} (shows : Shows g b) :
    Does (startOrStop host g) g b.clearLanes
      [.mqttSend (if b.startStop.bRunning then startText else stopText)] := by
  obtain ⟨started, printedStart, start⟩ :=
    plain_holds (s := startText) (by rfl : format "start".toList [] = _) (by decide) (by decide)
  obtain ⟨stopped, printedStop, stop⟩ :=
    plain_holds (s := stopText) (by rfl : format "stop".toList [] = _) (by decide) (by decide)
  rw [← List.nil_append [Event.mqttSend _]]
  refine Does.bind (resetAllData_does shows) fun g' shown => ?_
  simp only [shown.startStop, Board.clearLanes]
  split
  · simp only [printedStart, ok_bind]
    exact Does.send shown start fun _ _ _ shown' => Does.nothing shown'
  · simp only [printedStop, ok_bind]
    exact Does.send shown stop fun _ _ _ shown' => Does.nothing shown'

theorem checkStartStopInternal_does (host : Host) {g : Globals} {b : Board} (shows : Shows g b) (row : Row) :
    Does (checkStartStopInternal host row g) g (b.onStartStop row).1 (b.onStartStop row).2 := by
  have watched := shows.setStartStop (b.startStop.watch row)
  have finish (c : Board) (g' : Globals) (shown : Shows g' c) :
      Does (.ok (g'.setStartStop g'.startStop.settle)) g' { c with startStop := c.startStop.settle } [] := by
    rw [shown.startStop]
    exact Does.setStartStop shown _
  simp only [checkStartStopInternal, Board.onStartStop, shows.startStop, Globals.setStartStop_startStop]
  by_cases changed : (b.startStop.watch row).bStopping ≠ (b.startStop.watch row).bRunning
  · rw [if_pos changed, if_pos changed]
    obtain ⟨g', result, shown, input, trace⟩ :=
      Does.bind (startOrStop_does host watched) fun g' shown => finish _ g' shown
    exact ⟨g', result, shown, input, by simpa using trace⟩
  · rw [if_neg changed, if_neg changed, ok_bind]
    exact finish _ _ watched

theorem checkStartStop_does (host : Host) {g : Globals} {b : Board} (shows : Shows g b) (row : Row) :
    Does (checkStartStop host row g) g (b.onStartStop row).1 (.checkStartStop row :: (b.onStartStop row).2) :=
  Does.emit (checkStartStopInternal_does host (shows.emit rfl) row)

end SerialTiming.Decoder.Clock
