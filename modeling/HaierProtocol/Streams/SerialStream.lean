import HaierProtocol.Streams.Delivery
import HaierProtocol.Streams.VirtualStream
import HaierProtocol.Transport.History

/-!
# The serial port

`SerialStream` of `tools/utils/serial_stream.cpp`.  `available` reads the port, but only when
nothing is stored from the last time, and as much as the ring buffer holds.  So nothing is lost
between the port and whoever reads the stream.  A transport level on a serial port goes through a
history like any other, whatever the port gives (`run_receives`), and receives the packets on the
line behind it (`run_receives_packets`).
-/

namespace HaierProtocol

open TransportLevelHandler

/-- `SERIAL_BUFFER_SIZE`. -/
def serialBufferSize : Nat := 2048

/-- What `read` gives for so many bytes, `none` if it fails. -/
abbrev ReadResult (size : Nat) := Option { bytes : List UInt8 // bytes.length ≤ size }

namespace ReadResult

def bytes {size : Nat} : ReadResult size → List UInt8
  | none => []
  | some bytes => bytes.1

theorem length_bytes_le {size : Nat} (result : ReadResult size) : result.bytes.length ≤ size := by
  cases result with
  | none => exact Nat.zero_le size
  | some bytes => exact bytes.2

end ReadResult

/-- The port may not have been opened. -/
structure SerialStream where
  isValid : Bool
  buffer : Members UInt8
  capacity_eq : buffer.capacity = serialBufferSize
  flagged : buffer.Flagged

namespace SerialStream

def ofCells (cells : Nat → UInt8) (isValid : Bool) : SerialStream where
  isValid := isValid
  buffer := (CircularBuffer.ofCapacity cells serialBufferSize).toMembers
  capacity_eq := rfl
  flagged := CircularBuffer.flagged _

def push (s : SerialStream) (bytes : List UInt8) : SerialStream where
  isValid := s.isValid
  buffer := (s.buffer.push bytes).1
  capacity_eq := (s.buffer.push_extends bytes).capacity.trans s.capacity_eq
  flagged := (s.buffer.push_extends bytes).flagged s.flagged

def pop (s : SerialStream) (len : Nat) : SerialStream where
  isValid := s.isValid
  buffer := (s.buffer.pop len).1
  capacity_eq := by rw [Members.pop_eq]; exact s.capacity_eq
  flagged := by rw [Members.pop_eq]; exact s.flagged.drop len

/-- The result, and the bytes that were taken from the port.  `port` is what it has for a call of
`read`. -/
def available (s : SerialStream) (port : ReadResult serialBufferSize) :
    SerialStream × Nat × List UInt8 :=
  if !s.isValid then (s, 0, [])
  else if s.buffer.isEmpty then
    if port.bytes.length > 0 then
      let s := s.push port.bytes
      (s, s.buffer.getSize, port.bytes)
    else (s, 0, [])
  else (s, s.buffer.getSize, [])

def readArray (s : SerialStream) (len : Nat) : SerialStream × List UInt8 :=
  if !s.isValid || s.buffer.isEmpty then (s, [])
  else
    let av := s.buffer.getSize
    let len := if av < len then av else len
    (s.pop len, (s.buffer.pop len).2.1)

/-- What `write` is asked to write. -/
def writeArray (s : SerialStream) (data : List UInt8) : List UInt8 :=
  if !s.isValid then [] else data

/-! ## Nothing is lost -/

variable (s : SerialStream)

theorem contents_of_isEmpty (h : s.buffer.isEmpty = true) : s.buffer.contents = [] :=
  s.flagged.eq_nil_iff.mp h

theorem contents_push (bytes : List UInt8) (hempty : s.buffer.isEmpty = true)
    (hlen : bytes.length ≤ serialBufferSize) : (s.push bytes).buffer.contents = bytes := by
  have hspace : s.buffer.getSpace = serialBufferSize := by
    rw [Members.getSpace, s.flagged hempty, s.capacity_eq, Nat.sub_zero]
  show (s.buffer.push bytes).1.contents = bytes
  rw [s.buffer.contents_push, s.contents_of_isEmpty hempty, s.buffer.push_snd, hspace,
    Nat.min_eq_left hlen, List.take_length, List.nil_append]

/-- A port that is not open delivers nothing. -/
def Closed : Prop := s.isValid = false → s.buffer.contents = []

theorem closed_ofCells (cells : Nat → UInt8) (isValid : Bool) : Closed (ofCells cells isValid) :=
  fun _ => rfl

theorem Closed.of_valid {s : SerialStream} (h : s.isValid = true) : s.Closed :=
  fun h' => absurd (h.symm.trans h') (by decide)

/-- `available` counts what is stored, old bytes or new ones, and has taken no others. -/
theorem available_spec (hclosed : s.Closed) (port : ReadResult serialBufferSize) :
    (s.available port).1.buffer.contents = s.buffer.contents ++ (s.available port).2.2 ∧
      (s.available port).2.1 = (s.available port).1.buffer.getSize ∧
      (s.available port).1.Closed ∧ (s.available port).1.isValid = s.isValid := by
  rw [available]
  by_cases hvalid : s.isValid = true
  · rw [hvalid, if_neg (by decide)]
    by_cases hempty : s.buffer.isEmpty = true
    · rw [if_pos hempty]
      by_cases hsome : port.bytes.length > 0
      · rw [if_pos hsome]
        refine ⟨?_, rfl, .of_valid hvalid, hvalid⟩
        rw [s.contents_of_isEmpty hempty, List.nil_append]
        exact s.contents_push port.bytes hempty port.length_bytes_le
      · rw [if_neg hsome]
        exact ⟨(List.append_nil _).symm, (s.flagged hempty).symm, hclosed, hvalid⟩
    · rw [if_neg hempty]
      exact ⟨(List.append_nil _).symm, rfl, hclosed, hvalid⟩
  · have hfalse : s.isValid = false := by simpa using hvalid
    have hnil := hclosed hfalse
    rw [hfalse, if_pos (by decide)]
    exact ⟨(List.append_nil _).symm, by rw [← Members.length_contents, hnil]; rfl, hclosed, hfalse⟩

/-- `read_array` takes what is stored, from the front. -/
theorem readArray_spec (hclosed : s.Closed) (len : Nat) :
    (s.readArray len).2 = s.buffer.contents.take len ∧
      (s.readArray len).1.buffer.contents = s.buffer.contents.drop len ∧
      (s.readArray len).1.Closed ∧ (s.readArray len).1.isValid = s.isValid := by
  rw [readArray]
  by_cases hnone : (!s.isValid || s.buffer.isEmpty) = true
  · have hnil : s.buffer.contents = [] := by
      rcases Bool.or_eq_true_iff.mp hnone with h | h
      · exact hclosed (by simpa using h)
      · exact s.contents_of_isEmpty h
    rw [if_pos hnone]
    exact ⟨by rw [hnil, List.take_nil], by rw [hnil, List.drop_nil], hclosed, rfl⟩
  · have hlen : (if s.buffer.getSize < len then s.buffer.getSize else len) =
        min len s.buffer.contents.length := by
      rw [Members.length_contents]
      split <;> omega
    have hvalid : s.isValid = true := by
      cases h : s.isValid
      · exact absurd (by rw [h]; rfl) hnone
      · rfl
    rw [if_neg hnone]
    simp only [hlen]
    refine ⟨?_, ?_, .of_valid hvalid, rfl⟩
    · rw [Members.pop_eq, ← List.take_eq_take_min]
    · show (s.buffer.pop _).1.contents = _
      rw [Members.pop_eq, Members.contents_drop]
      by_cases h : len ≤ s.buffer.contents.length
      · rw [Nat.min_eq_left h]
      · rw [Nat.min_eq_right (Nat.le_of_not_le h), List.drop_length,
          List.drop_eq_nil_of_le (Nat.le_of_not_le h)]

end SerialStream

/-- The port once `available` has been called. -/
def ProtocolStream.ofSerial : ProtocolStream where
  State := { s : SerialStream // s.Closed }
  available := fun s => s.1.buffer.getSize
  readArray := fun s len => ((s.1.readArray len).2, ⟨_, (s.1.readArray_spec s.2 len).2.2.1⟩)
  pending := fun s => s.1.buffer.contents
  available_le := fun s => Nat.le_of_eq s.1.buffer.length_contents.symm
  reads := by
    intro s len
    refine (s.1.readArray_spec s.2 len).1.trans ?_
    rw [← Members.length_contents, ← List.take_eq_take_min]
  consumes := by
    intro s len
    rw [(s.1.readArray_spec s.2 len).2.1, ← Members.length_contents]
    by_cases h : len ≤ s.1.buffer.contents.length
    · rw [Nat.min_eq_left h]
    · rw [Nat.min_eq_right (Nat.le_of_not_le h), List.drop_length,
        List.drop_eq_nil_of_le (Nat.le_of_not_le h)]
  keeps := by
    intro s len
    rw [← Members.length_contents, ← Members.length_contents,
      (s.1.readArray_spec s.2 len).2.1, List.length_drop]
    omega

theorem ProtocolStream.prompt_ofSerial : Prompt ofSerial :=
  fun s => s.1.buffer.length_contents.symm

/-! ## A transport level on a serial port -/

structure SerialReceiver where
  intake : Intake
  serial : { s : SerialStream // s.Closed }
  /-- All bytes that the port has given. -/
  delivered : List UInt8

inductive SerialCall where
  /-- `port` is what the port has when it is read. -/
  | readData (port : ReadResult serialBufferSize)
  | processData (now : TimePoint)
  | resetProtocol
  | pop
  | drop (framesCount : Nat)

namespace SerialReceiver

def start (cells ringCells : Nat → UInt8) (bufferSize : Nat) (isValid : Bool) : SerialReceiver where
  intake := .ofBufferSize cells bufferSize
  serial := ⟨.ofCells ringCells isValid, SerialStream.closed_ofCells ringCells isValid⟩
  delivered := []

/-- The port after the call of `available` in `read_data`, and the bytes taken from it. -/
def fetch (s : SerialReceiver) (port : ReadResult serialBufferSize) :
    ProtocolStream.ofSerial.State :=
  ⟨(s.serial.1.available port).1, (s.serial.1.available_spec s.serial.2 port).2.2.1⟩

def fetched (s : SerialReceiver) (port : ReadResult serialBufferSize) : List UInt8 :=
  (s.serial.1.available port).2.2

def step (s : SerialReceiver) : SerialCall → SerialReceiver
  | .readData port =>
    let (transport, serial, _) := s.intake.transport.readDataFrom .ofSerial (s.fetch port)
    { intake := { s.intake with transport }
      serial
      delivered := s.delivered ++ s.fetched port }
  | .processData now => { s with intake := s.intake.processData now }
  | .resetProtocol =>
    { s with intake := { s.intake with transport := s.intake.transport.resetProtocol } }
  | .pop => { s with intake := s.intake.pop }
  | .drop framesCount => { s with intake := s.intake.drop framesCount }

def run (s : SerialReceiver) (calls : List SerialCall) : SerialReceiver := calls.foldl step s

/-- What `read_data` does, with the bytes that were stored and those taken from the port. -/
theorem step_readData (s : SerialReceiver) (port : ReadResult serialBufferSize) :
    let input := s.serial.1.buffer.contents ++ s.fetched port
    (s.step (.readData port)).intake =
        { s.intake with transport := (s.intake.transport.readData input).1 } ∧
      (s.step (.readData port)).serial.1.buffer.contents = (s.intake.transport.readData input).2.1 ∧
      (s.step (.readData port)).delivered = s.delivered ++ s.fetched port := by
  intro input
  obtain ⟨htransport, hleft⟩ := readDataFrom_prompt ProtocolStream.prompt_ofSerial
    s.intake.transport (s.fetch port)
  have hinput : ProtocolStream.ofSerial.pending (s.fetch port) = input :=
    (s.serial.1.available_spec s.serial.2 port).1
  rw [hinput] at htransport hleft
  exact ⟨congrArg (Intake.mk · s.intake.taken) htransport, hleft, rfl⟩

/-! ## Any bytes -/

/-- The history of the handler on this port. -/
structure Follows (s : SerialReceiver) (h : History) : Prop where
  transport : s.intake.transport = h.handler
  input : s.serial.1.buffer.contents = h.input
  delivered : s.delivered = h.received ++ h.input

theorem Follows.readData {s : SerialReceiver} {h : History} (hs : Follows s h)
    (port : ReadResult serialBufferSize) :
    Follows (s.step (.readData port)) (h.run [.arrive (s.fetched port), .readData]) := by
  obtain ⟨hintake, hleft, hdelivered⟩ := s.step_readData port
  obtain ⟨_, hread, _⟩ := readData_spec s.intake.transport (h.input ++ s.fetched port)
  have hafter : h.run [.arrive (s.fetched port), .readData] =
      ⟨(s.intake.transport.readData (h.input ++ s.fetched port)).1,
        (s.intake.transport.readData (h.input ++ s.fetched port)).2.1,
        h.received ++ (h.input ++ s.fetched port).take
          (s.intake.transport.readData (h.input ++ s.fetched port)).2.2, h.pushed⟩ := by
    rw [hs.transport]
    rfl
  rw [hs.input] at hintake hleft
  rw [hafter]
  refine ⟨congrArg Intake.transport hintake, hleft, ?_⟩
  rw [hdelivered, hs.delivered, hread]
  show h.received ++ h.input ++ s.fetched port = h.received ++ _ ++ _
  rw [List.append_assoc, List.append_assoc, List.take_append_drop]

/-- Every call is one of a history, or two. -/
theorem Follows.step {s : SerialReceiver} {h : History} (hs : Follows s h) (call : SerialCall) :
    ∃ calls, Follows (s.step call) (h.run calls) := by
  obtain ⟨htransport, hinput, hdelivered⟩ := hs
  cases call with
  | readData port => exact ⟨_, Follows.readData ⟨htransport, hinput, hdelivered⟩ port⟩
  | processData now =>
    exact ⟨[.processData now], congrArg (TransportLevelHandler.processData · now) htransport,
      hinput, hdelivered⟩
  | resetProtocol =>
    exact ⟨[.resetProtocol], congrArg TransportLevelHandler.resetProtocol htransport, hinput,
      hdelivered⟩
  | pop =>
    exact ⟨[.pop], congrArg (fun t => (TransportLevelHandler.pop t).1) htransport, hinput,
      hdelivered⟩
  | drop n =>
    exact ⟨[.drop n], congrArg (TransportLevelHandler.drop · n) htransport, hinput, hdelivered⟩

/-- A call finds room in the handler's buffer, and does not give up what is being received. -/
def Room (s : SerialReceiver) : SerialCall → Prop
  | .readData port => s.intake.Room (s.fetch port).1.buffer.getSize
  | .resetProtocol => False
  | _ => True

instance (s : SerialReceiver) : (call : SerialCall) → Decidable (s.Room call)
  | .readData _ => inferInstanceAs (Decidable (Intake.Room _ _))
  | .processData _ => isTrue trivial
  | .resetProtocol => isFalse id
  | .pop => isTrue trivial
  | .drop _ => isTrue trivial

def Fits : SerialReceiver → List SerialCall → Prop
  | _, [] => True
  | s, call :: rest => s.Room call ∧ Fits (s.step call) rest

instance Fits.decidable : (s : SerialReceiver) → (calls : List SerialCall) →
    Decidable (s.Fits calls)
  | _, [] => isTrue trivial
  | s, call :: rest =>
    have := Fits.decidable (s.step call) rest
    inferInstanceAs (Decidable (_ ∧ _))

theorem delivered_step (s : SerialReceiver) (call : SerialCall) :
    s.delivered <+: (s.step call).delivered := by
  cases call with
  | readData port => exact List.prefix_append _ _
  | _ => exact List.prefix_refl _

theorem delivered_run (calls : List SerialCall) (s : SerialReceiver) :
    s.delivered <+: (s.run calls).delivered := by
  induction calls generalizing s with
  | nil => exact List.prefix_refl _
  | cons call rest ih => exact (s.delivered_step call).trans (ih _)

/-- The packets, with the bytes that the port has not given yet behind those stored. -/
def Awaits (s : SerialReceiver) (packets : List Packet) : Prop :=
  ∃ rest r, s.delivered ++ rest = wires packets ∧
    Delivers s.intake (s.serial.1.buffer.contents ++ rest) packets r

theorem Awaits.step {s : SerialReceiver} {packets : List Packet} (h : s.Awaits packets)
    {call : SerialCall} (hroom : s.Room call)
    (hline : (s.step call).delivered <+: wires packets) : (s.step call).Awaits packets := by
  obtain ⟨rest, r, hrest, hr⟩ := h
  cases call with
  | readData port =>
    obtain ⟨hintake, hleft, hdelivered⟩ := s.step_readData port
    obtain ⟨later, hlater⟩ := hline
    have hsplit : rest = s.fetched port ++ later := by
      rw [hdelivered, List.append_assoc, ← hrest] at hlater
      exact (List.append_cancel_left hlater).symm
    rw [hsplit, ← List.append_assoc] at hr
    have hsize : (s.serial.1.buffer.contents ++ s.fetched port).length =
        (s.fetch port).1.buffer.getSize := by
      rw [← Members.length_contents]
      exact congrArg List.length (s.serial.1.available_spec s.serial.2 port).1.symm
    obtain ⟨r', hr'⟩ := hr.read (hsize ▸ hroom)
    rw [← hleft, ← hintake] at hr'
    exact ⟨later, r', hlater, hr'⟩
  | processData now => exact ⟨rest, _, hrest, hr.process now⟩
  | resetProtocol => exact absurd hroom id
  | pop => exact ⟨rest, _, hrest, hr.pop⟩
  | drop n => exact ⟨rest, _, hrest, hr.drop n⟩

theorem awaits_run {packets : List Packet} : ∀ (calls : List SerialCall) {s : SerialReceiver},
    s.Awaits packets → s.Fits calls → (s.run calls).delivered <+: wires packets →
      (s.run calls).Awaits packets
  | [], _, h, _, _ => h
  | call :: rest, s, h, hfits, hline =>
    awaits_run rest (h.step hfits.1 ((delivered_run rest (s.step call)).trans hline)) hfits.2 hline

/-- If the port gives the encodings of packets, in portions of any size, their frames are received
in order, and all of them once everything has been given, read and looked at. -/
theorem run_receives_packets (cells ringCells : Nat → UInt8) (bufferSize : Nat) (isValid : Bool)
    (packets : List Packet) (calls : List SerialCall)
    (hfits : (start cells ringCells bufferSize isValid).Fits calls)
    (hline : ((start cells ringCells bufferSize isValid).run calls).delivered <+: wires packets) :
    let s := (start cells ringCells bufferSize isValid).run calls
    s.intake.frames <+: packets.map Packet.frame ∧
      (s.delivered = wires packets → s.serial.1.buffer.contents = [] → ∀ now,
        (s.intake.processData now).frames = packets.map Packet.frame) := by
  intro s
  have hstart : (start cells ringCells bufferSize isValid).Awaits packets :=
    ⟨_, _, List.nil_append _, (Delivers.start cells bufferSize).sendAll packets⟩
  obtain ⟨rest, r, hrest, hr⟩ := awaits_run calls hstart hfits hline
  refine ⟨hr.frames_prefix, fun hall hempty now => ?_⟩
  have hnil : rest = [] := by
    have hlen := congrArg List.length (hrest.trans hall.symm)
    rw [List.length_append] at hlen
    exact List.length_eq_zero_iff.mp (Nat.left_eq_add.mp hlen.symm)
  have hline : s.serial.1.buffer.contents ++ rest = [] := by rw [hempty, hnil, List.append_nil]
  rw [hline] at hr
  exact hr.frames_processed now

/-- A packet in two portions, between which the port fails. -/
def portions : List SerialCall :=
  let wire := (Packet.mk 0x06 [0xFF, 0x01] true (by decide)).wire
  [.readData (some ⟨wire.take 11, by decide +kernel⟩), .processData 0, .readData none,
    .readData (some ⟨wire.drop 11, by decide +kernel⟩), .processData 0]

theorem run_receives_portions :
    let s := (start (fun _ => 0) (fun _ => 0) 0 true).run portions
    (s.intake.processData 0).frames = [(Packet.mk 0x06 [0xFF, 0x01] true (by decide)).frame] :=
  (run_receives_packets (fun _ => 0) (fun _ => 0) 0 true [⟨0x06, [0xFF, 0x01], true, by decide⟩]
    portions (by decide +kernel) (by decide +kernel)).2 (by decide +kernel) (by decide +kernel) 0

end SerialReceiver
end HaierProtocol
