/- module: SerialTiming/Laws/DigitMemory
   digest: Every cell is the last digit received for it, and every published digit is such a cell. -/

import SerialTiming.Laws.Framing

set_option autoImplicit false
set_option relaxedAutoImplicit false

namespace SerialTiming.Laws.DigitMemory

open Line.Segments Scoreboard.Display Scoreboard.Clocks Scoreboard.Boards Scoreboard.Answers
open Decoder.State Decoder.ReadData Framing

/-- The last digit with index `d` among the data bytes of one frame. -/
def lastDigit (d : Nat) (data : List UInt8) : Option UInt8 :=
  (data.filter fun x => (digitNo x).toNat = d).getLast?.map digitOf

def writers (frames : List Segment) (c b : Nat) : List Segment :=
  frames.filter fun f => f.channel.toNat = c ∧ f.controlBit.toNat = b

/-- The last digit with index `d` in the last frame of channel `c` and control bit `b` that has one. -/
def remembered (frames : List Segment) (c d b : Nat) : Option UInt8 :=
  ((writers frames c b).filterMap fun f => lastDigit d f.data).getLast?

def cell (cells : Vector Row 32) (c : Fin 32) (d : Fin 8) (b : Fin 2) : UInt8 := cells[c][2 * d.val + b.val]

private theorem lastDigit_snoc (d : Nat) (data : List UInt8) (x : UInt8) :
    lastDigit d (data ++ [x]) = if (digitNo x).toNat = d then some (digitOf x) else lastDigit d data := by
  simp only [lastDigit, List.filter_append]
  by_cases same : (digitNo x).toNat = d <;> simp [same]

private theorem storeDigit_cell (f : Segment) (cells : Vector Row 32) (x : UInt8) (c : Fin 32) (d : Fin 8)
    (b : Fin 2) :
    cell (storeDigit f cells x) c d b =
      if f.channel.toNat = c ∧ f.controlBit.toNat = b ∧ (digitNo x).toNat = d then digitOf x
      else cell cells c d b := by
  have digit := digitNo_le x
  have bit : f.controlBit.toNat ≤ 1 := controlBitOf_le f.address
  have column : ((digitNo x <<< 1) + f.controlBit).toNat = 2 * (digitNo x).toNat + f.controlBit.toNat :=
    cell_index digit bit
  simp only [cell, storeDigit, Fin.getElem_fin, column]
  by_cases row : f.channel.toNat = c
  · have place : 2 * (digitNo x).toNat + f.controlBit.toNat = 2 * d.val + b.val ↔
        f.controlBit.toNat = b ∧ (digitNo x).toNat = d := by omega
    simp only [row, ↓reduceIte, Vector.getElem_set, place, true_and]
  · rw [if_neg fun all => row all.1]
    exact congrArg (fun r : Row => r[2 * d.val + b.val]) (Vector.getElem_set_ne _ _ row)

theorem storeFrame_cell (f : Segment) (cells : Vector Row 32) (c : Fin 32) (d : Fin 8) (b : Fin 2) :
    cell (storeFrame cells f) c d b =
      if f.channel.toNat = c ∧ f.controlBit.toNat = b then (lastDigit d f.data).getD (cell cells c d b)
      else cell cells c d b := by
  have stored (data : List UInt8) : cell (data.foldl (storeDigit f) cells) c d b =
      if f.channel.toNat = c ∧ f.controlBit.toNat = b then (lastDigit d data).getD (cell cells c d b)
      else cell cells c d b := by
    induction data using List.reverseRecOn with
    | nil => simp [lastDigit]
    | append_singleton data x ih =>
        rw [List.foldl_append, List.foldl_cons, List.foldl_nil, storeDigit_cell, ih, lastDigit_snoc]
        by_cases row : f.channel.toNat = c ∧ f.controlBit.toNat = b
        · by_cases same : (digitNo x).toNat = d <;> simp [row, same]
        · have other : ¬ (f.channel.toNat = c ∧ f.controlBit.toNat = b ∧ (digitNo x).toNat = d) :=
            fun all => row ⟨all.1, all.2.1⟩
          rw [if_neg row, if_neg other, if_neg row]
  exact stored f.data

private theorem remembered_snoc (frames : List Segment) (f : Segment) (c d b : Nat) :
    remembered (frames ++ [f]) c d b =
      if f.channel.toNat = c ∧ f.controlBit.toNat = b then (lastDigit d f.data).or (remembered frames c d b)
      else remembered frames c d b := by
  simp only [remembered, writers, List.filter_append]
  by_cases row : f.channel.toNat = c ∧ f.controlBit.toNat = b
  · cases received : lastDigit d f.data <;> simp [row, received]
  · simp [row]

/-- The cells after a list of frames are the digits remembered of them, or the fill. -/
theorem after_cell (frames : List Segment) (c : Fin 32) (d : Fin 8) (b : Fin 2) :
    cell (after frames).1.cells c d b = (remembered frames c d b).getD 0x01 := by
  induction frames using List.reverseRecOn with
  | nil => simp [after, Machines.Transducer.run, Board.start, initCells, cell, remembered, writers]
  | append_singleton frames f ih =>
      rw [after_snoc, frame_cells, storeFrame_cell, ih, remembered_snoc]
      split
      · cases lastDigit d f.data <;> simp
      · rfl

theorem storeFrame_row (f : Segment) (cells : Vector Row 32) {c : Fin 32} (other : f.channel.toNat ≠ c.val) :
    (storeFrame cells f)[c] = cells[c] := by
  have kept (data : List UInt8) : (data.foldl (storeDigit f) cells)[c] = cells[c] := by
    induction data using List.reverseRecOn with
    | nil => rfl
    | append_singleton data x ih =>
        rw [List.foldl_append, List.foldl_cons, List.foldl_nil, ← ih]
        exact Vector.getElem_set_ne (channelOf_lt f.address) c.isLt other
  exact kept f.data

theorem cells_ext {cells cells' : Vector Row 32} (same : ∀ c d b, cell cells c d b = cell cells' c d b) :
    cells = cells' := by
  ext c inChannels i inRow : 2
  have digit : i / 2 < 8 := by omega
  have bit : i % 2 < 2 := by omega
  have column : 2 * (i / 2) + i % 2 = i := by omega
  have here := same ⟨c, inChannels⟩ ⟨i / 2, digit⟩ ⟨i % 2, bit⟩
  simpa only [cell, Fin.getElem_fin, column] using here

theorem storeFrame_comm (cells : Vector Row 32) {f g : Segment} (other : f.channel ≠ g.channel) :
    storeFrame (storeFrame cells f) g = storeFrame (storeFrame cells g) f := by
  apply cells_ext
  intro c d b
  have apart : ¬ (f.channel.toNat = c.val ∧ g.channel.toNat = c.val) :=
    fun both => other (UInt8.toNat_inj.mp (both.1.trans both.2.symm))
  simp only [storeFrame_cell]
  by_cases first : f.channel.toNat = c.val ∧ f.controlBit.toNat = b.val
  · have second : ¬ (g.channel.toNat = c.val ∧ g.controlBit.toNat = b.val) := fun both => apart ⟨first.1, both.1⟩
    simp only [first, second, and_self, ↓reduceIte]
  · simp only [first, ↓reduceIte]

/-- The digit memory. A cell is the last digit that a counting segment of the line brought for it, or the fill. A byte
that completes no such segment changes no cell, and one that does changes no other row and with control bit 1 no cell
that is shown. -/
theorem cells_remember (host : Host) (bytes : List UInt8) :
    ∃ g, run host bytes = .ok g ∧ accepted g.trace = countingFrames bytes ∧
      (∀ c d b, cell g.coloradoData c d b = (remembered (countingFrames bytes) c d b).getD 0x01) ∧
      ∀ x, ∃ g', run host (bytes ++ [x]) = .ok g' ∧
        ((countingFrames (bytes ++ [x]) = countingFrames bytes ∧ g'.coloradoData = g.coloradoData) ∨
          ∃ f, countingFrames (bytes ++ [x]) = countingFrames bytes ++ [f] ∧
            (∀ c : Fin 32, f.channel.toNat ≠ c.val → g'.coloradoData[c] = g.coloradoData[c]) ∧
            (f.controlBit = 1 → ∀ c d, cell g'.coloradoData c d 0 = cell g.coloradoData c d 0)) := by
  obtain ⟨g, ran, tracks⟩ := run_tracks host bytes
  refine ⟨g, ran, tracks_accepted tracks, ?_, ?_⟩
  · intro c d b
    rw [tracks.shows.cells, after_cell]
  · intro x
    obtain ⟨g', ran', tracks'⟩ := run_tracks host (bytes ++ [x])
    refine ⟨g', ran', ?_⟩
    rw [tracks.shows.cells, tracks'.shows.cells]
    rcases countingFrames_snoc bytes x with same | ⟨f, _, _, _, more⟩
    · exact .inl ⟨same, by rw [same]⟩
    · rw [more, after_snoc]
      simp only [frame_cells]
      refine .inr ⟨f, rfl, fun c other => storeFrame_row f _ other, fun odd c d => ?_⟩
      rw [storeFrame_cell, if_neg]
      simp [odd]

/-- What a message of a lane, clock or header frame is made of. -/
def Renders (channel : UInt8) (row : Row) (m : List Char) : Prop :=
  (1 ≤ channel.toNat ∧ channel.toNat ≤ 10 ∧ m = laneText channel row) ∨
  (channel = 0x00 ∧ m = timeText row) ∨ (channel = 0x0C ∧ m = headerText row)

private theorem renders_message {b : Board} {f : Segment} {m : List Char} (sent : .mqttSend m ∈ (b.frame f).2)
    (kind : kindOf m = .lane ∨ kindOf m = .time ∨ kindOf m = .header) : Renders f.channel (b.read f) m := by
  rcases frame_message sent with ⟨lane, number, rfl, _⟩ | ⟨channel, rfl | rfl | rfl⟩ | ⟨channel, rfl⟩ |
    ⟨channel, round, rfl⟩
  · exact .inl ⟨number ▸ lane.inRange.1, number ▸ lane.inRange.2, by rw [number]⟩
  · simp at kind
  · simp at kind
  · exact .inr (.inl ⟨channel, rfl⟩)
  · exact .inr (.inr ⟨channel, rfl⟩)
  · simp at kind

/-- A lane, time or header message on its way out shows what is remembered for the frame accepted last. -/
theorem message_row {bytes : List UInt8} {g : Globals} (tracks : Tracks bytes g) {pre post : List Event}
    {m : List Char} (split : g.trace = pre ++ .mqttSend m :: post)
    (kind : kindOf m = .lane ∨ kindOf m = .time ∨ kindOf m = .header) :
    ∃ f row, (accepted pre).getLast? = some f ∧ Renders f.channel row m ∧
      ∀ d : Fin 8, row[2 * d.val] = (remembered (accepted pre) f.channel.toNat d 0).getD 0x01 := by
  have told : kindOf m ≠ .other := by
    rcases kind with lane | time | header
    · simp [lane]
    · simp [time]
    · simp [header]
  obtain ⟨before, f, later, front, back, _, place, _, _, taken⟩ := tracks_sent tracks split told
  refine ⟨f, (after before).1.read f, by simp [taken], renders_message ?_ kind, fun d => ?_⟩
  · rw [place]
    simp
  · have stored := after_cell (before ++ [f]) ⟨f.channel.toNat, channelOf_lt f.address⟩ d 0
    rw [after_snoc, frame_cells] at stored
    rw [taken]
    exact stored

/-- Every lane, time and header message shows, at the dispatch of the frame accepted last, the digits
remembered for the even cells of that frame's channel, and the fill where none was ever received. -/
theorem messages_show_remembered (host : Host) (bytes : List UInt8) :
    ∃ g, run host bytes = .ok g ∧
      ∀ pre m post, g.trace = pre ++ .mqttSend m :: post →
        (kindOf m = .lane ∨ kindOf m = .time ∨ kindOf m = .header) →
        ∃ f row, (accepted pre).getLast? = some f ∧ Renders f.channel row m ∧
          ∀ d : Fin 8, row[2 * d.val] = (remembered (accepted pre) f.channel.toNat d 0).getD 0x01 := by
  obtain ⟨g, ran, tracks⟩ := run_tracks host bytes
  refine ⟨g, ran, ?_⟩
  intro pre m post split kind
  exact message_row tracks split kind

/-- The first frame of a line is a header frame with control bit 1: the header that goes out shows the fill
of six cells for which no frame with control bit 0 was ever accepted. -/
theorem header_shows_fill :
    ∃ g pre post, run Host.reliable [0xA7, 0x0F, 0x1F, 0x2F, 0x3F, 0x4F, 0x5F, 0x6F, 0x7F, 0x80] = .ok g ∧
      g.trace = pre ++ .mqttSend "header 111 111".toList :: post ∧
      accepted pre = [⟨0xA7, [0x0F, 0x1F, 0x2F, 0x3F, 0x4F, 0x5F, 0x6F, 0x7F]⟩] ∧
      ¬ ∃ f ∈ accepted pre, f.channel = 0x0C ∧ f.controlBit = 0 ∧ ∃ x ∈ f.data, digitNo x = 0 := by
  obtain ⟨g, ran, tracks⟩ :=
    run_tracks Host.reliable [0xA7, 0x0F, 0x1F, 0x2F, 0x3F, 0x4F, 0x5F, 0x6F, 0x7F, 0x80]
  let f : Segment := ⟨0xA7, [0x0F, 0x1F, 0x2F, 0x3F, 0x4F, 0x5F, 0x6F, 0x7F]⟩
  have events : (after (countingFrames [0xA7, 0x0F, 0x1F, 0x2F, 0x3F, 0x4F, 0x5F, 0x6F, 0x7F, 0x80])).2 =
      [.accept f, .getHeader (Board.start.read f), .mqttSend "header 111 111".toList,
        .mqttSend "header 111 111".toList] := by
    decide +kernel
  refine ⟨g, [.mqttSend greeting, .accept f, .getHeader (Board.start.read f)],
    [.mqttSend "header 111 111".toList], ran, ?_, rfl, ?_⟩
  · rw [tracks.trace, events]
    rfl
  · have only : accepted [.mqttSend greeting, .accept f, .getHeader (Board.start.read f)] = [f] := rfl
    rw [only]
    decide

end SerialTiming.Laws.DigitMemory
