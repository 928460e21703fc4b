import HaierProtocol.Transport.Encoder
import HaierProtocol.Transport.Refinement
import HaierProtocol.Utils.LogReading

/-!
# The log as a transcript

At the highest log level `send_data` logs the bytes that it writes, and `read_data` those that it
has read, out of the cells of the ring buffer.  Whatever else is called and logged in between, these
lines tell what has gone over the line.
-/

namespace HaierProtocol

open TransportLevelHandler Log Writing

namespace TransportLevelHandler

/-! ## What has been filled -/

/-- The region holds the bytes that were read into it. -/
def Shows (cells : Nat → UInt8) (t : Transfer) : Prop :=
  Holds (fun i => cells (t.first + i)) t.bytes

theorem cells_fill (stream : ProtocolStream) (buffer : CircularBuffer UInt8) (s : stream.State)
    (size i : Nat) :
    (fill stream buffer s size).1.buffer i =
      if (fill stream buffer s size).2.2.first ≤ i then
        ((fill stream buffer s size).2.2.bytes[i - (fill stream buffer s size).2.2.first]?).getD
          (buffer.buffer i)
      else buffer.buffer i := rfl

theorem first_fill (stream : ProtocolStream) (buffer : CircularBuffer UInt8) (s : stream.State)
    (size : Nat) : (fill stream buffer s size).2.2.first = buffer.tail :=
  congrArg Prod.fst (buffer.reserve_snd size)

theorem shows_fill (stream : ProtocolStream) (buffer : CircularBuffer UInt8) (s : stream.State)
    (size : Nat) :
    Shows (fill stream buffer s size).1.buffer (fill stream buffer s size).2.2 := by
  intro i hi
  show (fill stream buffer s size).1.buffer (_ + i) = _
  rw [cells_fill, if_pos (Nat.le_add_right _ _), Nat.add_sub_cancel_left,
    List.getElem?_eq_getElem hi, Option.getD_some]

/-- Filling the front of the block leaves a region behind it alone. -/
theorem Shows.fill {stream : ProtocolStream} {buffer : CircularBuffer UInt8} {s : stream.State}
    {size : Nat} {t : Transfer} (h : Shows buffer.buffer t) (htail : buffer.tail = 0)
    (hfits : (fill stream buffer s size).2.2.bytes.length ≤ t.first) :
    Shows (fill stream buffer s size).1.buffer t := by
  intro i hi
  show (TransportLevelHandler.fill stream buffer s size).1.buffer (t.first + i) = _
  rw [cells_fill, first_fill, htail, if_pos (Nat.zero_le _), List.getElem?_eq_none (by omega)]
  exact h i hi

/-- The regions that `read_data` has filled, and the bytes that the stream has given. -/
inductive Regions (cells : Nat → UInt8) (bytes : List UInt8) : List Transfer → Prop
  | one {t : Transfer} (shows : Shows cells t) (all : t.bytes = bytes) : Regions cells bytes [t]
  | two {t₁ t₂ : Transfer} (shows₁ : Shows cells t₁) (shows₂ : Shows cells t₂)
      (nonempty : t₁.bytes ≠ []) (all : t₁.bytes ++ t₂.bytes = bytes) :
      Regions cells bytes [t₁, t₂]

theorem Regions.sum {cells : Nat → UInt8} {bytes : List UInt8} {transfers : List Transfer}
    (h : Regions cells bytes transfers) :
    (transfers.map fun t => t.bytes.length).sum = bytes.length := by
  cases h with
  | one shows all => rw [← all, List.map_singleton, List.sum_singleton]
  | two shows₁ shows₂ nonempty all =>
    rw [← all, List.length_append]
    rfl

theorem readDataFrom_regions (stream : ProtocolStream) (h : TransportLevelHandler)
    (s : stream.State) :
    let (h', s', transfers) := h.readDataFrom stream s
    Regions h'.buffer.buffer
        ((stream.pending s).take (min (stream.available s) h.buffer.capacity)) transfers ∧
      stream.pending s' = (stream.pending s).drop (min (stream.available s) h.buffer.capacity) ∧
      h'.buffer.capacity = h.buffer.capacity := by
  have hcount : (if stream.available s ≥ h.buffer.capacity then h.buffer.capacity
      else stream.available s) = min (stream.available s) h.buffer.capacity := by
    split <;> omega
  have havailable : min (stream.available s) h.buffer.capacity ≤ stream.available s :=
    Nat.min_le_left _ _
  have hspace := le_getSpace_makeSpace h (Nat.min_le_right (stream.available s) h.buffer.capacity)
  have hcap := capacity_makeSpace h (min (stream.available s) h.buffer.capacity)
  have hmost := Nat.min_le_right (stream.available s) h.buffer.capacity
  rw [readDataFrom]
  simp only [hcount]
  generalize min (stream.available s) h.buffer.capacity = count at *
  generalize h.makeSpace count = g at hspace hcap ⊢
  have hshows₁ := shows_fill stream g.buffer s count
  have hfirst₁ := first_fill stream g.buffer s count
  obtain ⟨b₁, s₁, t₁, hfill₁, first⟩ := fill_filled stream havailable hspace
  rw [hfill₁] at hshows₁ hfirst₁ ⊢
  have hsize₁ := first.size
  by_cases hmore : count > t₁.bytes.length
  · simp only [hmore, if_true]
    rw [first.full] at hmore ⊢
    have hlt := g.buffer.tail_lt
    have hend : t₁.size = g.buffer.capacity - g.buffer.tail := by omega
    have htail : b₁.tail = 0 := by
      rw [first.tail, hend, Nat.add_sub_cancel' (Nat.le_of_lt hlt), Nat.mod_self]
    have hspace₁ : count - t₁.size ≤ b₁.getSpace := by
      have hlen := congrArg List.length first.contents
      rw [List.length_append, Members.length_contents, Members.length_contents,
        first.full] at hlen
      have hcap₁ := first.capacity
      unfold Members.getSpace at hspace ⊢
      omega
    have havailable₁ : count - t₁.size ≤ stream.available s₁ := by
      have := first.available
      omega
    have hshows₂ := shows_fill stream b₁ s₁ (count - t₁.size)
    have hkeeps : (fill stream b₁ s₁ (count - t₁.size)).2.2.bytes.length ≤ t₁.first →
        Shows (fill stream b₁ s₁ (count - t₁.size)).1.buffer t₁ := hshows₁.fill htail
    obtain ⟨b₂, s₂, t₂, hfill₂, second⟩ := fill_filled stream havailable₁ hspace₁
    rw [hfill₂] at hshows₂ hkeeps ⊢
    have hsize₂ : t₂.size = count - t₁.size := by
      have := second.size
      unfold Members.getSpace at hspace₁
      omega
    have hfull := second.full
    refine ⟨.two (hkeeps ?_) hshows₂ ?_ ?_, ?_, second.capacity.trans (first.capacity.trans hcap)⟩
    · show t₂.bytes.length ≤ t₁.first
      rw [hfirst₁]
      omega
    · rw [← List.length_pos_iff, first.full]
      omega
    · rw [second.bytes, first.pending, first.bytes, ← List.take_add, hsize₂,
        Nat.add_sub_cancel' (Nat.le_of_lt hmore)]
    · rw [second.pending, first.pending, List.drop_drop, hsize₂,
        Nat.add_sub_cancel' (Nat.le_of_lt hmore)]
  · have hall : t₁.size = count := by
      have := first.full
      omega
    simp only [hmore, if_false]
    exact ⟨.one hshows₁ (first.bytes.trans (by rw [hall])), first.pending.trans (by rw [hall]),
      first.capacity.trans hcap⟩

end TransportLevelHandler

/-! ## The two lines -/

def sendingDataChars : List UInt8 :=
  [0x53, 0x65, 0x6E, 0x64, 0x69, 0x6E, 0x67, 0x20, 0x64, 0x61, 0x74, 0x61, 0x3A]

theorem zero_notMem_sendingDataChars : 0 ∉ sendingDataChars := by decide

def sendingData : CString := ⟨sendingDataChars, zero_notMem_sendingDataChars⟩

/-- What `read_data` logs of the regions that it has filled. -/
def logReceived (p : Platform) (cells : Nat → UInt8) : List Transfer → Logging Nat
  | [t] => logHaierBuffers p true .levelVerbose (some receivedData)
      (some fun i => cells (t.first + i)) (Fin.ofNat p.sizes t.bytes.length) none
      (Fin.ofNat p.sizes 0)
  | [t₁, t₂] => logHaierBuffers p true .levelVerbose (some receivedData)
      (some fun i => cells (t₁.first + i)) (Fin.ofNat p.sizes t₁.bytes.length)
      (some fun i => cells (t₂.first + i)) (Fin.ofNat p.sizes t₂.bytes.length)
  | _ => pure 0

/-- What `send_data` logs of the bytes that it writes. -/
def logSent (p : Platform) (wire : List UInt8) : Logging Nat :=
  logHaierBuffers p true .levelVerbose (some sendingData) (some fun i => wire.getD i 0)
    (Fin.ofNat p.sizes wire.length) none (Fin.ofNat p.sizes 0)

/-- What goes over the line in one call. -/
inductive Moved where
  | received (bytes : List UInt8)
  | sent (bytes : List UInt8)
  deriving DecidableEq, Repr

/-- What a line of the log tells. -/
def readLine (text : List UInt8) : Option Moved :=
  if (headerText (some receivedData)).isPrefixOf text then
    (readDump (text.drop (headerText (some receivedData)).length)).map .received
  else if (headerText (some sendingData)).isPrefixOf text then
    (readDump (text.drop (headerText (some sendingData)).length)).map .sent
  else none

theorem readLine_received (bytes : List UInt8) :
    readLine (headerText (some receivedData) ++ hexLine bytes) = some (.received bytes) := by
  rw [readLine, if_pos (List.isPrefixOf_iff_prefix.mpr (List.prefix_append _ _)), List.drop_left,
    readDump_hexLine]
  rfl

theorem readLine_sent (bytes : List UInt8) :
    readLine (headerText (some sendingData) ++ hexLine bytes) = some (.sent bytes) := by
  have hother : ¬(headerText (some receivedData)).isPrefixOf
      (headerText (some sendingData) ++ hexLine bytes) = true := by
    intro h
    obtain ⟨rest, hrest⟩ := List.isPrefixOf_iff_prefix.mp h
    exact absurd (Option.some.inj (congrArg List.head? hrest)) (by decide)
  rw [readLine, if_neg hother, if_pos (List.isPrefixOf_iff_prefix.mpr (List.prefix_append _ _)),
    List.drop_left, readDump_hexLine]
  rfl

/-- The program hands over this text, and goes on as before. -/
def HandsOver (x : Logging Nat) (text : List UInt8) : Prop :=
  ∀ s : LogState, s.underflow = false → ∃ res s', x.run s = some (res, s') ∧
    s'.underflow = false ∧ ∃ call, s'.handled = some call ∧ textOf call.2 = text

theorem val_ofNat {p : Platform} {n : Nat} (h : n < bufferSize) : (Fin.ofNat p.sizes n).val = n :=
  Nat.mod_eq_of_lt (h.trans_le (le_trans (by decide) p.le_sizes))

/-- A call whose blocks are these bytes.  1360 of them fit behind either header. -/
theorem handsOver_blocks (p : Platform) (header : CString) (bytes1 : Nat → UInt8)
    (buffer2 : Option (Nat → UInt8)) {n₁ n₂ : Nat} {bytes : List UInt8}
    (hheader : (headerText (some header)).length ≤ 15) (hpos : 0 < n₁)
    (hblock : n₂ = 0 ∨ buffer2.isSome) (hlength : n₁ + n₂ ≤ 1360)
    (hbytes : blockBytes (some bytes1) n₁ ++ blockBytes buffer2 n₂ = bytes) :
    HandsOver (logHaierBuffers p true .levelVerbose (some header) (some bytes1)
      (Fin.ofNat p.sizes n₁) buffer2 (Fin.ofNat p.sizes n₂))
      (headerText (some header) ++ hexLine bytes) := by
  intro s hunderflow
  have h₁ : (Fin.ofNat p.sizes n₁).val = n₁ := val_ofNat (by unfold bufferSize; omega)
  have h₂ : (Fin.ofNat p.sizes n₂).val = n₂ := val_ofNat (by unfold bufferSize; omega)
  have hverbose : HaierLogLevel.levelVerbose ≠ .levelNone := by decide
  obtain ⟨s', hrun, hwell, hhandled, htext⟩ := run_logHaierBuffers p hverbose (some header) bytes1
    (Fin.ofNat p.sizes n₁) (Fin.ofNat p.sizes n₂) buffer2 (by rwa [h₁]) (by rwa [h₂])
    (by rw [h₁, h₂]; unfold bufferSize; omega) s hunderflow
  rw [h₁, h₂, hbytes] at htext
  exact ⟨_, s', hrun, hwell, _, hhandled, htext⟩

theorem handsOver_received (p : Platform) {cells : Nat → UInt8} {bytes : List UInt8}
    {transfers : List Transfer} (h : Regions cells bytes transfers) (hne : bytes ≠ [])
    (hlength : bytes.length ≤ 1360) :
    HandsOver (logReceived p cells transfers)
      (headerText (some receivedData) ++ hexLine bytes) := by
  cases h with
  | @one t shows all =>
    subst all
    refine handsOver_blocks p receivedData _ none (by decide) (List.length_pos_iff.mpr hne)
      (.inl rfl) hlength ?_
    rw [blockBytes_of_holds shows]
    exact List.append_nil _
  | @two t₁ t₂ shows₁ shows₂ nonempty all =>
    subst all
    rw [List.length_append] at hlength
    refine handsOver_blocks p receivedData _ _ (by decide) (List.length_pos_iff.mpr nonempty)
      (.inr rfl) hlength ?_
    rw [blockBytes_of_holds shows₁, blockBytes_of_holds shows₂]

theorem handsOver_sent (p : Platform) {wire : List UInt8} (hne : wire ≠ [])
    (hlength : wire.length ≤ 1360) :
    HandsOver (logSent p wire) (headerText (some sendingData) ++ hexLine wire) := by
  have hwire : Holds (fun i => wire.getD i 0) wire := by
    intro i hi
    show wire.getD i 0 = _
    rw [List.getD_eq_getElem?_getD, List.getElem?_eq_getElem hi]
    rfl
  refine handsOver_blocks p sendingData _ none (by decide) (List.length_pos_iff.mpr hne) (.inl rfl)
    hlength ?_
  rw [blockBytes_of_holds hwire]
  exact List.append_nil _

/-- What `send_data` writes is short enough. -/
theorem length_sendData {heap : Nat → UInt8} {frameType : UInt8} {data wire : List UInt8}
    {useCrc : Bool} (h : (sendData heap frameType data useCrc).1 = some wire) :
    wire ≠ [] ∧ wire.length ≤ 1360 := by
  by_cases hlong : data.length > (maxFrameSize - pureHeaderSize).toNat
  · rw [sendData, if_pos hlong] at h
    cases h
  · have hle : data.length ≤ 233 := Nat.not_lt.mp hlong
    have hsend := sendData_packet heap ⟨frameType, data, useCrc, hle⟩
    have hshort := Packet.length_wire_le ⟨frameType, data, useCrc, hle⟩
    have hpos := Packet.le_length_wire ⟨frameType, data, useCrc, hle⟩
    have hwire := Option.some.inj (h.symm.trans (congrArg Prod.fst hsend))
    have hlen := congrArg List.length hwire
    rw [HaierFrame.length_putBytes, List.length_map, List.length_range] at hlen
    have hshort' : wire.length ≤ 2 * data.length + 24 := hlen.trans_le hshort
    refine ⟨List.length_pos_iff.mp ?_, by omega⟩
    rw [hlen]
    exact Nat.lt_of_lt_of_le (by decide) hpos

/-! ## Runs -/

/-- A handler at the highest log level. -/
structure Transcript where
  handler : TransportLevelHandler
  log : LogState
  /-- What `send_data` and `read_data` have handed over, line by line. -/
  lines : List (List UInt8)
  /-- What has gone over the line. -/
  moved : List Moved

/-- A call.  What `read_data` reads from is any stream in any state.  `message` is any other
message, which leaves `cells` in the buffer. -/
inductive LineCall where
  | sendData (heap : Nat → UInt8) (frameType : UInt8) (data : List UInt8) (useCrc : Bool)
  | readData (stream : ProtocolStream) (s : stream.State)
  | processData (now : TimePoint)
  | resetProtocol
  | pop
  | drop (framesCount : Nat)
  | message (cells : Nat → UInt8)

namespace Transcript

def start (cells : Nat → UInt8) (bufferSize : Nat) (msgBuffer : Nat → UInt8) : Transcript where
  handler := .ofBufferSize cells bufferSize
  log := { msgBuffer }
  lines := []
  moved := []

/-- Log, and note what the log handler is given. -/
def print (x : Logging Nat) (t : Transcript) : Option Transcript :=
  (x.run { t.log with handled := none }).map fun r =>
    { t with log := r.2, lines := t.lines ++ (r.2.handled.map fun call => textOf call.2).toList }

/-- A call; `none` if it goes wrong in the log. -/
def step (p : Platform) (t : Transcript) : LineCall → Option Transcript
  | .sendData heap frameType data useCrc =>
    match (TransportLevelHandler.sendData heap frameType data useCrc).1 with
    | some wire => { t with moved := t.moved ++ [Moved.sent wire] }.print (logSent p wire)
    | none => some t
  | .readData stream s =>
    let (handler, s', transfers) := t.handler.readDataFrom stream s
    let count := (stream.pending s).length - (stream.pending s').length
    if 0 < (transfers.map fun t => t.bytes.length).sum then
      { t with
        handler
        moved := t.moved ++ [Moved.received ((stream.pending s).take count)] }.print
          (logReceived p handler.buffer.buffer transfers)
    else some { t with handler }
  | .processData now => some { t with handler := t.handler.processData now }
  | .resetProtocol => some { t with handler := t.handler.resetProtocol }
  | .pop => some { t with handler := t.handler.pop.1 }
  | .drop framesCount => some { t with handler := t.handler.drop framesCount }
  | .message cells => some { t with log := { t.log with msgBuffer := cells } }

def run (p : Platform) (t : Transcript) : List LineCall → Option Transcript
  | [] => some t
  | call :: rest => (t.step p call).bind fun t => t.run p rest

/-- What every call keeps. -/
structure Tells (t : Transcript) : Prop where
  underflow : t.log.underflow = false
  capacity : t.handler.buffer.capacity ≤ 1360
  lines : t.lines.map readLine = t.moved.map some

theorem Tells.print {t : Transcript} {x : Logging Nat} {text : List UInt8} {moved : Moved}
    (h : Tells t) (hx : HandsOver x text) (htext : readLine text = some moved) :
    ∃ t', ({ t with moved := t.moved ++ [moved] } : Transcript).print x = some t' ∧ Tells t' := by
  obtain ⟨res, s', hrun, hunderflow, call, hhandled, hcall⟩ :=
    hx { t.log with handled := none } h.underflow
  refine ⟨_, congrArg (Option.map _) hrun, hunderflow, h.capacity, ?_⟩
  show (t.lines ++ _).map readLine = (t.moved ++ [moved]).map some
  rw [hhandled, List.map_append, h.lines, List.map_append]
  show _ ++ [readLine (textOf call.2)] = _
  rw [hcall, htext]
  rfl

theorem Tells.step {t : Transcript} (h : Tells t) (p : Platform) (call : LineCall) :
    ∃ t', t.step p call = some t' ∧ Tells t' := by
  cases call with
  | sendData heap frameType data useCrc =>
    rw [Transcript.step]
    cases hsend : (TransportLevelHandler.sendData heap frameType data useCrc).1 with
    | none => exact ⟨t, rfl, h⟩
    | some wire =>
      obtain ⟨hne, hlength⟩ := length_sendData hsend
      exact h.print (handsOver_sent p hne hlength) (readLine_sent wire)
  | readData stream s =>
    have hread := readDataFrom_regions stream t.handler s
    rw [Transcript.step]
    generalize t.handler.readDataFrom stream s = r at hread ⊢
    obtain ⟨handler, s', transfers⟩ := r
    obtain ⟨hregions, hpending, hcapacity⟩ := hread
    have htold : Tells { t with handler } :=
      ⟨h.underflow, hcapacity.trans_le h.capacity, h.lines⟩
    have havailable := stream.available_le s
    have hcount : (stream.pending s).length - (stream.pending s').length =
        min (stream.available s) t.handler.buffer.capacity := by
      rw [hpending, List.length_drop]
      omega
    dsimp only
    rw [hregions.sum, hcount]
    by_cases hsome : 0 < ((stream.pending s).take
        (min (stream.available s) t.handler.buffer.capacity)).length
    · have hshort : ((stream.pending s).take
          (min (stream.available s) t.handler.buffer.capacity)).length ≤ 1360 :=
        (List.length_take_le _ _).trans ((Nat.min_le_right _ _).trans h.capacity)
      rw [if_pos hsome]
      exact htold.print (handsOver_received p hregions (List.length_pos_iff.mp hsome) hshort)
        (readLine_received _)
    · rw [if_neg hsome]
      exact ⟨_, rfl, htold⟩
  | processData now =>
    have hfixed := fixed_processData t.handler now
    exact ⟨_, rfl, h.underflow, hfixed.1.trans_le h.capacity, h.lines⟩
  | resetProtocol => exact ⟨_, rfl, h.underflow, h.capacity, h.lines⟩
  | pop =>
    refine ⟨_, rfl, h.underflow, ?_, h.lines⟩
    show t.handler.pop.1.buffer.capacity ≤ 1360
    rw [pop_eq_drop]
    exact h.capacity
  | drop framesCount => exact ⟨_, rfl, h.underflow, h.capacity, h.lines⟩
  | message cells => exact ⟨_, rfl, h.underflow, h.capacity, h.lines⟩

/-- With a ring buffer of at most 1360 bytes: whatever is called, and whatever other messages are
logged, no call goes wrong in the log, and the lines tell, one after another, the bytes that have
been written to the stream and read from it. -/
theorem run_transcript (p : Platform) (cells : Nat → UInt8) (bufferSize : Nat)
    (msgBuffer : Nat → UInt8) (hsize : bufferSize ≤ 1360) (calls : List LineCall) :
    ∃ t, (start cells bufferSize msgBuffer).run p calls = some t ∧
      t.lines.map readLine = t.moved.map some := by
  have hrun : ∀ (calls : List LineCall) {t : Transcript}, Tells t →
      ∃ t', t.run p calls = some t' ∧ Tells t' := by
    intro calls
    induction calls with
    | nil => exact fun h => ⟨_, rfl, h⟩
    | cons call rest ih =>
      intro t h
      obtain ⟨t₁, hstep, h₁⟩ := h.step p call
      rw [run, hstep]
      exact ih h₁
  have hstart : Tells (start cells bufferSize msgBuffer) := by
    refine ⟨rfl, ?_, rfl⟩
    show (if bufferSize < _ then _ else _) ≤ 1360
    split
    · decide
    · exact hsize
  obtain ⟨t, ht, htells⟩ := hrun calls hstart
  exact ⟨t, ht, htells.lines⟩

/-- A frame is sent, another message is logged, and the beginning of an answer is read. -/
def asked : List LineCall :=
  [.sendData (fun _ => 0) 0x01 [0x4D, 0xFF] true, .message fun _ => 0x58,
    .readData .ofList [0xFF, 0xFF, 0x08], .processData 0]

theorem run_transcript_asked :
    ∃ t, (start (fun _ => 0) defaultBufferSize fun _ => 0x58).run sixtyFour asked = some t ∧
      t.lines.map readLine = t.moved.map some :=
  run_transcript sixtyFour (fun _ => 0) defaultBufferSize (fun _ => 0x58) (by decide) asked

end Transcript
end HaierProtocol
