/- module: SerialTiming/Decoder/Sender
   digest: Only mqtt_send touches the sender: what each of its calls keeps holds after every run. -/

import SerialTiming.CLib.Outcomes
import SerialTiming.Decoder.ReadData

set_option autoImplicit false
set_option relaxedAutoImplicit false

namespace SerialTiming.Decoder.Sender

open CLib.Objects CLib.Strings CLib.Outcomes Scoreboard.Display Scoreboard.Clocks Scoreboard.Boards
open State Lane Clock Header ReadData

section Keeps

variable (host : Host) (kept : Mqtt → Prop)

/-- The sender of these globals is in a state that is kept. -/
def Kept (g : Globals) : Prop := kept g.mqtt

variable {kept}

theorem resetTimeAndPlace_keeps {g : Globals} (lane : UInt8) (before : Kept kept g) :
    Ensures (Kept kept) (resetTimeAndPlace lane g) := by
  unfold resetTimeAndPlace
  apply Ensures.ite
  · intro _
    exact Ensures.ok before
  · intro _
    iterate 8 refine Ensures.next fun _ => ?_
    exact Ensures.ok before

theorem resetAllData_keeps {g : Globals} (before : Kept kept g) : Ensures (Kept kept) (resetAllData g) :=
  Ensures.forCount (fun _ _ held => resetTimeAndPlace_keeps _ held) displayLaneCount 0 before

theorem arrayMatches_keeps {g : Globals} (lane : UInt8) (shortdata place nullshortdata nullplace : CharBuf)
    (before : Kept kept g) :
    Ensures (fun r => Kept kept r.2) (arrayMatches lane shortdata place nullshortdata nullplace g) := by
  unfold arrayMatches
  refine Ensures.next fun _ => ?_
  apply Ensures.ite
  · intro _
    iterate 2 refine Ensures.next fun _ => ?_
    apply Ensures.ite
    · intro _
      refine Ensures.next fun _ => ?_
      exact Ensures.ite (fun _ => Ensures.ok before) fun _ => Ensures.ok before
    · intro _
      exact Ensures.ok before
  · intro _
    refine Ensures.next fun _ => ?_
    apply Ensures.ite
    · intro _
      exact (resetTimeAndPlace_keeps lane before).bind fun _ held => Ensures.ok held
    · intro _
      exact Ensures.ok before

variable (sends : ∀ message m, kept m → kept (m.send host message).2)

include sends

theorem mqttSend_keeps {g : Globals} (message : CharBuf) (before : Kept kept g) :
    Ensures (fun r => Kept kept r.2) (mqttSend host message g) := by
  unfold mqttSend
  refine Ensures.next fun text => ?_
  exact Ensures.ok (sends text g.mqtt before)

theorem sendLaneData_keeps {g : Globals} (mydata : CharBuf) (before : Kept kept g) :
    Ensures (Kept kept) (sendLaneData host mydata g) := by
  unfold sendLaneData
  refine Ensures.next fun shownText => ?_
  apply Ensures.ite
  · intro _
    exact (mqttSend_keeps host sends mydata (g := g.emit (.sendLaneData shownText)) before).bind
      fun r held => Ensures.ok held
  · intro _
    exact Ensures.ok before

theorem analyseActiveData_keeps {g : Globals} (channel : UInt8) (data : Row) (before : Kept kept g) :
    Ensures (Kept kept) (analyseActiveData host channel data g) := by
  unfold analyseActiveData getLaneTime
  iterate 5 refine Ensures.next fun _ => ?_
  refine (arrayMatches_keeps channel _ _ _ _ (g := g.emit (.analyseActiveData channel data)) before).bind ?_
  rintro ⟨matched, g₁⟩ held
  apply Ensures.ite
  · intro _
    exact Ensures.ok held
  · intro _
    refine (sendLaneData_keeps host sends _ held).bind fun g₂ held₂ => ?_
    iterate 6 refine Ensures.next fun _ => ?_
    exact Ensures.ok held₂

theorem getTime_keeps {g : Globals} (data : Row) (before : Kept kept g) :
    Ensures (Kept kept) (getTime host data g) := by
  unfold getTime getTimeInternal
  dsimp only
  apply Ensures.ite
  · intro _
    refine Ensures.next fun mydata => ?_
    refine (mqttSend_keeps host sends mydata (g := Globals.setClock _ (g.emit (.getTime data))) before).bind ?_
    rintro ⟨rc, g₁⟩ held
    exact Ensures.ok held
  · intro _
    exact Ensures.ok before

theorem startOrStop_keeps {g : Globals} (before : Kept kept g) : Ensures (Kept kept) (startOrStop host g) := by
  unfold startOrStop
  refine (resetAllData_keeps before).bind fun g₁ held => ?_
  apply Ensures.ite
  · intro _
    refine Ensures.next fun mydata => ?_
    exact (mqttSend_keeps host sends mydata held).bind fun r held₂ => Ensures.ok held₂
  · intro _
    refine Ensures.next fun mydata => ?_
    exact (mqttSend_keeps host sends mydata held).bind fun r held₂ => Ensures.ok held₂

theorem checkStartStop_keeps {g : Globals} (data : Row) (before : Kept kept g) :
    Ensures (Kept kept) (checkStartStop host data g) := by
  unfold checkStartStop checkStartStopInternal
  dsimp only
  apply Ensures.ite
  · intro _
    refine (startOrStop_keeps host sends (g := Globals.setStartStop _ (g.emit (.checkStartStop data))) before).bind ?_
    intro g₁ held
    exact Ensures.ok held
  · intro _
    exact Ensures.ok before

theorem getHeader_keeps {g : Globals} (data : Row) (before : Kept kept g) :
    Ensures (Kept kept) (getHeader host data g) := by
  unfold getHeader getHeaderInternal
  iterate 2 refine Ensures.next fun _ => ?_
  dsimp only
  apply Ensures.ite
  · intro _
    refine Ensures.next fun _ => ?_
    exact Ensures.ok before
  · intro _
    refine Ensures.next fun _ => ?_
    apply Ensures.ite
    · intro _
      exact Ensures.ok before
    · intro _
      refine (mqttSend_keeps host sends _ (g := g.emit (.getHeader data)) before).bind ?_
      rintro ⟨rc, g₁⟩ held
      refine (resetAllData_keeps (g := g₁.setClock (setsendActiveStateOff g₁.clock)) held).bind fun g₂ held₂ => ?_
      refine (mqttSend_keeps host sends _ held₂).bind ?_
      rintro ⟨rc, g₃⟩ held₃
      refine Ensures.next fun _ => ?_
      exact Ensures.ok held₃

theorem sendRound_keeps {g : Globals} (mydata : CharBuf) (before : Kept kept g) :
    Ensures (Kept kept) (sendRound host mydata g) := by
  unfold sendRound
  refine Ensures.next fun storeRoundsData => ?_
  refine Ensures.next fun sendData => ?_
  exact (mqttSend_keeps host sends sendData (g := { g with storeRoundsData := storeRoundsData }) before).bind
    fun r held => Ensures.ok held

theorem storeRounds_keeps {g : Globals} (data : Row) (before : Kept kept g) :
    Ensures (Kept kept) (storeRounds host data g) := by
  unfold storeRounds storeRoundsInternal
  refine Ensures.next fun mydata => ?_
  refine Ensures.next fun zero => ?_
  -- the second comparison comes after each branch of the first one
  have compares : ∀ g₁, Kept kept g₁ → Ensures (Kept kept) (do
      let known ← strcmp mydata g₁.storeRoundsData
      if known ≠ 0 then sendRound host mydata { g₁ with pRound := Board.nextRound g₁.pRound } else .ok g₁) := by
    intro g₁ held
    refine Ensures.next fun known => ?_
    apply Ensures.ite
    · intro _
      exact sendRound_keeps host sends mydata (g := { g₁ with pRound := Board.nextRound g₁.pRound }) held
    · intro _
      exact Ensures.ok held
  dsimp only
  apply Ensures.ite
  · intro _
    refine Ensures.next fun known => ?_
    apply Ensures.ite
    · intro _
      exact (sendRound_keeps host sends mydata (g := { g.emit (.storeRounds data) with pRound := 0 }) before).bind
        compares
    · intro _
      exact compares _ before
  · intro _
    exact compares _ before

theorem dispatchRow_keeps {g : Globals} (channel : UInt8) (row : Row) (before : Kept kept g) :
    Ensures (Kept kept) (dispatchRow host channel row g) := by
  unfold dispatchRow
  apply Ensures.ite
  · intro _
    exact analyseActiveData_keeps host sends channel row before
  intro _
  apply Ensures.ite
  · intro _
    exact (checkStartStop_keeps host sends row before).bind fun g₁ held => getTime_keeps host sends row held
  intro _
  apply Ensures.ite
  · intro _
    exact getHeader_keeps host sends row before
  intro _
  apply Ensures.ite
  · intro _
    exact storeRounds_keeps host sends row before
  · intro _
    exact Ensures.ok before

theorem closeBuffer_keeps {g : Globals} (before : Kept kept g) : Ensures (Kept kept) (closeBuffer host g) := by
  unfold closeBuffer
  apply Ensures.ite
  · intro _
    refine Ensures.next fun length => ?_
    apply Ensures.ite
    · intro _
      refine Ensures.bind (p := Kept kept) ?_ fun g₁ held => ?_
      · apply Ensures.forCount
        · intro j g₁ held
          unfold storeCell
          iterate 4 refine Ensures.next fun _ => ?_
          exact Ensures.ok held
        · exact before
      · refine Ensures.next fun row => ?_
        exact dispatchRow_keeps host sends _ row held
    · intro _
      exact Ensures.ok before
  · intro _
    exact Ensures.ok before

theorem putReadData_keeps {g : Globals} (readData : UInt8) (before : Kept kept g) :
    Ensures (Kept kept) (putReadData host readData g) := by
  unfold putReadData
  apply Ensures.ite
  · intro _
    refine (closeBuffer_keeps host sends before).bind fun g₁ held => ?_
    iterate 2 refine Ensures.next fun _ => ?_
    exact Ensures.ok held
  intro _
  apply Ensures.ite
  · intro _
    refine Ensures.next fun buf => ?_
    exact Ensures.ok before
  · intro _
    exact Ensures.ok before

/-- What holds of the sender at start-up and is kept by each call of mqtt_send holds of it after every run. -/
theorem run_keeps (start : kept Mqtt.start) (bytes : List UInt8) : Ensures (Kept kept) (run host bytes) := by
  unfold run dataInit initReadData
  refine Ensures.bind (p := Kept kept) ?_ fun g held => ?_
  · refine Ensures.bind (p := Kept kept) ?_ fun g held => ?_
    · iterate 3 refine Ensures.next fun _ => ?_
      exact Ensures.ok start
    · exact (mqttSend_keeps host sends _ held).bind fun r held₂ => Ensures.ok held₂
  · exact Ensures.foldlM (fun g b held => putReadData_keeps host sends b held) bytes held

end Keeps

end SerialTiming.Decoder.Sender
