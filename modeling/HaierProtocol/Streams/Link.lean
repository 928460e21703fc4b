import HaierProtocol.Streams.Delivery
import HaierProtocol.Streams.VirtualStream
import HaierProtocol.Transport.Encoder

/-!
# Two transport levels on one pair of streams

What the tests set up: two `TransportLevelHandler`s whose streams are the two ends of a
`VirtualStreamHolder`.  Both send and receive, in any order.  As long as nothing overflows and no
packet is too long for the encoder's count of bytes, each of them is a queue for the other
(`run_delivers`).
-/

namespace HaierProtocol

open TransportLevelHandler

/-- The packet that `send_data` encodes, if there is one. -/
def packetOf (frameType : UInt8) (data : List UInt8) (useCrc : Bool) : Option Packet :=
  if h : data.length ≤ 233 then some ⟨frameType, data, useCrc, h⟩ else none

theorem sendData_fst (heap : Nat → UInt8) {frameType : UInt8} {data : List UInt8} {useCrc : Bool}
    (h : ∀ p ∈ packetOf frameType data useCrc, p.wire.length ≤ 256) :
    (TransportLevelHandler.sendData heap frameType data useCrc).1 =
      (packetOf frameType data useCrc).map Packet.wire := by
  rw [packetOf] at h ⊢
  by_cases hdata : data.length ≤ 233
  · rw [dif_pos hdata] at h ⊢
    exact (encodes_of_le (h _ rfl)).send heap
  · have hlarge : data.length > (maxFrameSize - pureHeaderSize).toNat := Nat.lt_of_not_le hdata
    rw [dif_neg hdata, TransportLevelHandler.sendData, if_pos hlarge]
    rfl

/-- One of the two handlers, with a record of what it has sent. -/
structure LinkEnd where
  intake : Intake
  sent : List Packet

structure Link where
  streams : VirtualStreamHolder
  ends : StreamDirection → LinkEnd

inductive LinkCall where
  | sendData (heap : Nat → UInt8) (frameType : UInt8) (data : List UInt8) (useCrc : Bool)
  | readData
  | processData (now : TimePoint)
  | pop
  | drop (framesCount : Nat)

namespace LinkCall

/-- The encoder counts the bytes of a packet in a byte. -/
def Countable : LinkCall → Prop
  | .sendData _ frameType data useCrc =>
    ∀ p ∈ packetOf frameType data useCrc, p.wire.length ≤ 256
  | _ => True

instance : (call : LinkCall) → Decidable call.Countable
  | .sendData _ frameType data useCrc =>
    inferInstanceAs (Decidable (∀ p ∈ packetOf frameType data useCrc, _))
  | .readData => isTrue trivial
  | .processData _ => isTrue trivial
  | .pop => isTrue trivial
  | .drop _ => isTrue trivial

end LinkCall

namespace Link

def start (ringCells cells : StreamDirection → Nat → UInt8) (bufferSize : StreamDirection → Nat) :
    Link where
  streams := .ofCells ringCells
  ends := fun d => ⟨.ofBufferSize (cells d) (bufferSize d), []⟩

def setEnd (l : Link) (d : StreamDirection) (e : LinkEnd) : Link :=
  { l with ends := Function.update l.ends d e }

def setIntake (l : Link) (d : StreamDirection) (intake : Intake) : Link :=
  l.setEnd d { l.ends d with intake }

/-- A call to the handler at one end. -/
def step (l : Link) (d : StreamDirection) : LinkCall → Link
  | .sendData heap frameType data useCrc =>
    let e := l.ends d
    let l := match (TransportLevelHandler.sendData heap frameType data useCrc).1 with
      | none => l
      | some bytes => { l with streams := l.streams.writeArray d bytes }
    l.setEnd d { e with sent := e.sent ++ (packetOf frameType data useCrc).toList }
  | .readData =>
    let e := (l.ends d).intake
    let (transport, ring, _) := e.transport.readDataFrom .ofRing (l.streams.rxBuffer d)
    { l with streams := l.streams.setRxBuffer d ring }.setIntake d { e with transport }
  | .processData now => l.setIntake d ((l.ends d).intake.processData now)
  | .pop => l.setIntake d (l.ends d).intake.pop
  | .drop framesCount => l.setIntake d ((l.ends d).intake.drop framesCount)

def run (l : Link) (calls : List (StreamDirection × LinkCall)) : Link :=
  calls.foldl (fun l call => l.step call.1 call.2) l

/-- No buffer overflows: what is written fits the ring buffer, what is read fits the handler's
buffer. -/
def Room (l : Link) (d : StreamDirection) : LinkCall → Prop
  | .sendData heap frameType data useCrc =>
    ∀ bytes ∈ (TransportLevelHandler.sendData heap frameType data useCrc).1,
      bytes.length ≤ (l.streams.rxBuffer d.other).getSpace
  | .readData => (l.ends d).intake.Room (l.streams.rxBuffer d).getSize
  | _ => True

instance (l : Link) (d : StreamDirection) : (call : LinkCall) → Decidable (l.Room d call)
  | .sendData heap frameType data useCrc =>
    inferInstanceAs (Decidable
      (∀ bytes ∈ (TransportLevelHandler.sendData heap frameType data useCrc).1, _))
  | .readData => inferInstanceAs (Decidable (Intake.Room _ _))
  | .processData _ => isTrue trivial
  | .pop => isTrue trivial
  | .drop _ => isTrue trivial

def Fits : Link → List (StreamDirection × LinkCall) → Prop
  | _, [] => True
  | l, (d, call) :: rest => l.Room d call ∧ Fits (l.step d call) rest

instance Fits.decidable : (l : Link) → (calls : List (StreamDirection × LinkCall)) →
    Decidable (l.Fits calls)
  | _, [] => isTrue trivial
  | l, (d, call) :: rest =>
    have := Fits.decidable (l.step d call) rest
    inferInstanceAs (Decidable (_ ∧ _))

/-! ## Both directions -/

/-- What holds of either end. -/
def Carries (l : Link) : Prop :=
  ∀ d, ∃ r, Delivers (l.ends d).intake (l.streams.rxBuffer d).contents (l.ends d.other).sent r

theorem carries_start (ringCells cells : StreamDirection → Nat → UInt8)
    (bufferSize : StreamDirection → Nat) : Carries (start ringCells cells bufferSize) :=
  fun d => ⟨_, Delivers.start (cells d) (bufferSize d)⟩

theorem setEnd_self (l : Link) (d : StreamDirection) (e : LinkEnd) : (l.setEnd d e).ends d = e :=
  Function.update_self ..

theorem setEnd_other (l : Link) (d : StreamDirection) (e : LinkEnd) :
    (l.setEnd d e).ends d.other = l.ends d.other := Function.update_of_ne d.other_ne ..

/-- What an end sends arrives in front of the other one. -/
theorem step_sendData {l : Link} {d : StreamDirection} {heap : Nat → UInt8} {frameType : UInt8}
    {data : List UInt8} {useCrc : Bool}
    (hroom : l.Room d (.sendData heap frameType data useCrc))
    (hcount : LinkCall.Countable (.sendData heap frameType data useCrc)) :
    let l' := l.step d (.sendData heap frameType data useCrc)
    (l'.streams.rxBuffer d.other).contents = (l.streams.rxBuffer d.other).contents ++
        wires (packetOf frameType data useCrc).toList ∧
      l'.streams.rxBuffer d = l.streams.rxBuffer d ∧
      l'.ends d.other = l.ends d.other ∧
      l'.ends d = { l.ends d with
        sent := (l.ends d).sent ++ (packetOf frameType data useCrc).toList } := by
  intro l'
  have hbytes := sendData_fst heap hcount
  have hl' : l' = setEnd (match (packetOf frameType data useCrc).map Packet.wire with
      | none => l
      | some bytes => { l with streams := l.streams.writeArray d bytes }) d { l.ends d with
        sent := (l.ends d).sent ++ (packetOf frameType data useCrc).toList } := by
    rw [← hbytes]
    rfl
  rw [Room, hbytes] at hroom
  rw [hl']
  cases hp : packetOf frameType data useCrc with
  | none => exact ⟨(List.append_nil _).symm, rfl, setEnd_other _ _ _, setEnd_self _ _ _⟩
  | some p =>
    refine ⟨?_, l.streams.rxBuffer_writeArray d p.wire, setEnd_other _ _ _, setEnd_self _ _ _⟩
    refine (l.streams.contents_writeArray d p.wire).trans ?_
    rw [List.take_of_length_le (hroom p.wire (Option.mem_map_of_mem Packet.wire hp))]
    exact congrArg (_ ++ ·) (List.append_nil p.wire).symm

theorem step_readData (l : Link) (d : StreamDirection) :
    l.step d .readData =
      let result := (l.ends d).intake.transport.readDataFrom .ofRing (l.streams.rxBuffer d)
      setIntake ⟨l.streams.setRxBuffer d result.2.1, l.ends⟩ d
        { (l.ends d).intake with transport := result.1 } := rfl

theorem Carries.step {l : Link} (h : Carries l) {d : StreamDirection} {call : LinkCall}
    (hroom : l.Room d call) (hcount : call.Countable) : Carries (l.step d call) := by
  intro d'
  -- An end is the one that is called or the other one.
  have hcases : d' = d ∨ d' = d.other := by cases d <;> cases d' <;> decide
  obtain ⟨r, hr⟩ := h d
  obtain ⟨r', hr'⟩ := h d.other
  rw [StreamDirection.other_other] at hr'
  -- A call that sends nothing leaves the other end as it was.
  have hrest : ∀ (streams : VirtualStreamHolder) (intake : Intake),
      streams.rxBuffer d.other = l.streams.rxBuffer d.other →
      (∃ r, Delivers intake (streams.rxBuffer d).contents (l.ends d.other).sent r) →
      ∃ r, Delivers ((setIntake ⟨streams, l.ends⟩ d intake).ends d').intake
        (streams.rxBuffer d').contents ((setIntake ⟨streams, l.ends⟩ d intake).ends d'.other).sent
        r := by
    intro streams intake hstreams hown
    rcases hcases with rfl | rfl
    · rw [setIntake, setEnd_self, setEnd_other]
      exact hown
    · rw [StreamDirection.other_other, setIntake, setEnd_other, setEnd_self, hstreams]
      exact ⟨r', hr'⟩
  cases call with
  | sendData heap frameType data useCrc =>
    obtain ⟨hfront, hown, hends, hend⟩ := step_sendData hroom hcount
    rcases hcases with rfl | rfl
    · rw [hown, hends, hend]
      exact ⟨r, hr⟩
    · rw [StreamDirection.other_other, hfront, hends, hend]
      exact ⟨r', hr'.sendAll _⟩
  | readData =>
    obtain ⟨htransport, hring⟩ :=
      readDataFrom_ofRing (l.ends d).intake.transport (l.streams.rxBuffer d)
    rw [step_readData]
    refine hrest _ _ (l.streams.rxBuffer_setRxBuffer_other d _) ?_
    rw [← List.append_nil (l.streams.rxBuffer d).contents] at hr
    obtain ⟨s, hs⟩ := hr.read (by rw [Members.length_contents]; exact hroom)
    rw [List.append_nil, ← htransport, ← hring] at hs
    exact ⟨s, (l.streams.rxBuffer_setRxBuffer d _).symm ▸ hs⟩
  | processData now => exact hrest l.streams _ rfl ⟨_, hr.process now⟩
  | pop => exact hrest l.streams _ rfl ⟨_, hr.pop⟩
  | drop n => exact hrest l.streams _ rfl ⟨_, hr.drop n⟩

theorem carries_run : ∀ (calls : List (StreamDirection × LinkCall)) {l : Link}, Carries l →
    l.Fits calls → (∀ call ∈ calls, call.2.Countable) → Carries (l.run calls)
  | [], _, h, _, _ => h
  | call :: rest, _, h, hfits, hcount =>
    carries_run rest (h.step hfits.1 (hcount call List.mem_cons_self)) hfits.2
      fun later hlater => hcount later (List.mem_cons_of_mem call hlater)

/-- However sending and receiving on both sides are interleaved: the frames that an end has received
are the first of the packets that the other end has sent, in order, and all of them once nothing
is left to read and the bytes have been looked at. -/
theorem run_delivers (ringCells cells : StreamDirection → Nat → UInt8)
    (bufferSize : StreamDirection → Nat) (calls : List (StreamDirection × LinkCall))
    (hfits : (start ringCells cells bufferSize).Fits calls)
    (hcount : ∀ call ∈ calls, call.2.Countable) :
    let l := (start ringCells cells bufferSize).run calls
    ∀ d, (l.ends d).intake.frames <+: (l.ends d.other).sent.map Packet.frame ∧
      ((l.streams.rxBuffer d).contents = [] → ∀ now,
        ((l.ends d).intake.processData now).frames = (l.ends d.other).sent.map Packet.frame) := by
  intro l d
  obtain ⟨r, hr⟩ := carries_run calls (carries_start ringCells cells bufferSize) hfits hcount d
  refine ⟨hr.frames_prefix, fun hempty now => ?_⟩
  rw [hempty] at hr
  exact hr.frames_processed now

/-- Both ends send at once, and one of them reads before the other one is done. -/
def crossingCalls : List (StreamDirection × LinkCall) :=
  [(.directionA, .sendData (fun _ => 0) 0x01 [0x4D, 0xFF] true),
    (.directionB, .sendData (fun _ => 0) 0x02 [] false), (.directionA, .readData),
    (.directionA, .processData 0), (.directionA, .pop), (.directionB, .readData),
    (.directionA, .sendData (fun _ => 0) 0xFF [0xFF, 0x55] false), (.directionB, .processData 0),
    (.directionB, .pop)]

theorem run_delivers_crossing :
    let l := (start (fun _ _ => 0) (fun _ _ => 0) fun _ => defaultBufferSize).run crossingCalls
    ∀ d, (l.ends d).intake.frames <+: (l.ends d.other).sent.map Packet.frame ∧
      ((l.streams.rxBuffer d).contents = [] → ∀ now,
        ((l.ends d).intake.processData now).frames = (l.ends d.other).sent.map Packet.frame) :=
  run_delivers _ _ _ crossingCalls (by decide +kernel) (by decide +kernel)

end Link
end HaierProtocol
