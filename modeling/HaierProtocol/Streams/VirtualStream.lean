import HaierProtocol.Transport.Reading
import HaierProtocol.Utils.BoundedFifo

/-!
# Streams in memory

`VirtualStream` of `test/utils/virtual_stream.cpp`: two ring buffers between two users, each of whom
writes into one and reads from the other.  A ring buffer keeps the contract of a stream that has all
its bytes available.  A write takes what there is room for, and tells nobody about the rest.
-/

namespace HaierProtocol

/-- `BUFFER_SIZE`. -/
def virtualBufferSize : Nat := 4096

inductive StreamDirection where
  | directionA
  | directionB
deriving DecidableEq, Repr

def StreamDirection.other : StreamDirection → StreamDirection
  | .directionA => .directionB
  | .directionB => .directionA

@[simp] theorem StreamDirection.other_other (d : StreamDirection) : d.other.other = d := by
  cases d <;> rfl

theorem StreamDirection.other_ne (d : StreamDirection) : d.other ≠ d := by cases d <;> decide

/-- `available` and `read_array` of a stream that reads from a ring buffer. -/
def ProtocolStream.ofRing : ProtocolStream where
  State := Members UInt8
  available := Members.getSize
  readArray := fun ring len => ((ring.pop len).2.1, (ring.pop len).1)
  pending := Members.contents
  available_le := fun ring => Nat.le_of_eq ring.length_contents.symm
  reads := by
    intro ring len
    rw [ring.pop_eq, ← ring.length_contents, ← List.take_eq_take_min]
  consumes := by
    intro ring len
    rw [ring.pop_eq, ring.contents_drop, ← ring.length_contents]
    by_cases h : len ≤ ring.contents.length
    · rw [Nat.min_eq_left h]
    · rw [Nat.min_eq_right (Nat.le_of_not_le h), List.drop_length,
        List.drop_eq_nil_of_le (Nat.le_of_not_le h)]
  keeps := by
    intro ring len
    rw [ring.pop_eq, ring.getSize_drop]
    omega

/-- The two buffers, each under the direction of the stream that writes into it. -/
structure VirtualStreamHolder where
  txBuffer : StreamDirection → Members UInt8

namespace VirtualStreamHolder

def ofCells (cells : StreamDirection → Nat → UInt8) : VirtualStreamHolder where
  txBuffer := fun d => (CircularBuffer.ofCapacity (cells d) virtualBufferSize).toMembers

/-- `rx_buffer_` of a stream. -/
def rxBuffer (h : VirtualStreamHolder) (d : StreamDirection) : Members UInt8 := h.txBuffer d.other

def writeArray (h : VirtualStreamHolder) (d : StreamDirection) (data : List UInt8) :
    VirtualStreamHolder :=
  ⟨Function.update h.txBuffer d ((h.txBuffer d).push data).1⟩

/-- The holder with what is left after a read. -/
def setRxBuffer (h : VirtualStreamHolder) (d : StreamDirection) (ring : Members UInt8) :
    VirtualStreamHolder :=
  ⟨Function.update h.txBuffer d.other ring⟩

variable (h : VirtualStreamHolder) (d : StreamDirection)

/-- Whoever writes, the other one reads what fits, behind what is there already. -/
theorem contents_writeArray (data : List UInt8) :
    ((h.writeArray d data).rxBuffer d.other).contents =
      (h.rxBuffer d.other).contents ++ data.take (h.rxBuffer d.other).getSpace := by
  rw [rxBuffer, rxBuffer, StreamDirection.other_other]
  show (Function.update h.txBuffer d ((h.txBuffer d).push data).1 d).contents = _
  rw [Function.update_self, Members.contents_push, Members.push_snd, Nat.min_comm,
    ← List.take_eq_take_min]

/-- A stream that writes does not change what it reads itself. -/
theorem rxBuffer_writeArray (data : List UInt8) :
    (h.writeArray d data).rxBuffer d = h.rxBuffer d :=
  Function.update_of_ne d.other_ne ..

theorem rxBuffer_setRxBuffer (ring : Members UInt8) : (h.setRxBuffer d ring).rxBuffer d = ring :=
  Function.update_self ..

theorem rxBuffer_setRxBuffer_other (ring : Members UInt8) :
    (h.setRxBuffer d ring).rxBuffer d.other = h.rxBuffer d.other :=
  Function.update_of_ne (fun heq => d.other_ne (by rw [← heq, StreamDirection.other_other])) ..

end VirtualStreamHolder

/-! ## Streams that have all their bytes available -/

/-- Everything that is still to be read is available. -/
def ProtocolStream.Prompt (stream : ProtocolStream) : Prop :=
  ∀ s, stream.available s = (stream.pending s).length

theorem ProtocolStream.prompt_ofRing : Prompt ofRing := fun ring => ring.length_contents.symm

namespace TransportLevelHandler

variable {stream : ProtocolStream}

theorem fill_prompt (hprompt : stream.Prompt) (buffer : CircularBuffer UInt8) (s : stream.State)
    (size : Nat) :
    (fill stream buffer s size).1 = (fill .ofList buffer (stream.pending s) size).1 ∧
      stream.pending (fill stream buffer s size).2.1 =
        (fill .ofList buffer (stream.pending s) size).2.1 ∧
      (fill stream buffer s size).2.2 = (fill .ofList buffer (stream.pending s) size).2.2 := by
  have hbytes : ∀ len, (stream.readArray s len).1 = (readArray (stream.pending s) len).1 := by
    intro len
    rw [stream.reads, hprompt, readArray_eq]
  have hleft : ∀ len, stream.pending (stream.readArray s len).2 =
      (readArray (stream.pending s) len).2 := by
    intro len
    rw [stream.consumes, hprompt, readArray_eq]
  exact ⟨congrArg (CircularBuffer.store _ _) (hbytes _), hleft _,
    congrArg (Transfer.mk _ _) (hbytes _)⟩

/-- `read_data` on such a stream is `read_data` on the list of its bytes. -/
theorem readDataFrom_prompt (hprompt : stream.Prompt) (h : TransportLevelHandler)
    (s : stream.State) :
    (h.readDataFrom stream s).1 = (h.readData (stream.pending s)).1 ∧
      stream.pending (h.readDataFrom stream s).2.1 = (h.readData (stream.pending s)).2.1 := by
  have hcount :
      ProtocolStream.ofList.available (stream.pending s) = (stream.pending s).length := rfl
  rw [readData_eq]
  simp only [readDataFrom, hprompt s, hcount]
  generalize (if (stream.pending s).length ≥ h.buffer.capacity then h.buffer.capacity
    else (stream.pending s).length) = count
  obtain ⟨hbuffer, hstate, htransfer⟩ := fill_prompt hprompt (h.makeSpace count).buffer s count
  rw [hbuffer, htransfer]
  split
  · obtain ⟨hbuffer', hstate', _⟩ := fill_prompt hprompt
      (fill .ofList (h.makeSpace count).buffer (stream.pending s) count).1
      (fill stream (h.makeSpace count).buffer s count).2.1
      (count - (fill .ofList (h.makeSpace count).buffer (stream.pending s) count).2.2.bytes.length)
    rw [hstate] at hbuffer' hstate'
    refine ⟨?_, hstate'⟩
    rw [hbuffer']
  · exact ⟨rfl, hstate⟩

theorem readDataFrom_ofRing (h : TransportLevelHandler) (ring : Members UInt8) :
    (h.readDataFrom .ofRing ring).1 = (h.readData ring.contents).1 ∧
      Members.contents (h.readDataFrom .ofRing ring).2.1 = (h.readData ring.contents).2.1 :=
  readDataFrom_prompt ProtocolStream.prompt_ofRing h ring

end TransportLevelHandler
end HaierProtocol
