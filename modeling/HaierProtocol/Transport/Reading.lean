import Mathlib.Algebra.GroupWithZero.Nat
import HaierProtocol.Transport.ProtocolTransport

/-!
# Reading from a stream

`ProtocolStream` is the interface of `utils/protocol_stream.h` with what its comments promise.
`readDataFrom` is `read_data` on any such stream.  It fills up to two regions of the ring
buffer, and its record of them, the transfers, shows what was reserved beside what was read
into it.
`readData` is the case of a stream that has all its bytes available.
-/

namespace HaierProtocol

/-- A stream that keeps its contract.  More bytes may become available at any time. -/
structure ProtocolStream where
  State : Type
  available : State → Nat
  readArray : State → Nat → List UInt8 × State
  /-- The bytes that are still to be read, in order, whether or not they are available yet. -/
  pending : State → List UInt8
  available_le : ∀ s, available s ≤ (pending s).length
  reads : ∀ s len, (readArray s len).1 = (pending s).take (min len (available s))
  consumes : ∀ s len, pending (readArray s len).2 = (pending s).drop (min len (available s))
  keeps : ∀ s len, available s - min len (available s) ≤ available (readArray s len).2

namespace TransportLevelHandler

/-- A region of the ring buffer and what was read into it. -/
structure Transfer where
  first : Nat
  size : Nat
  bytes : List UInt8

/-- `reserve`, and `read_array` into the region. -/
def fill (stream : ProtocolStream) (buffer : CircularBuffer UInt8) (s : stream.State) (size : Nat) :
    CircularBuffer UInt8 × stream.State × Transfer :=
  let (buffer, first, size) := buffer.reserve size
  let (bytes, s) := stream.readArray s size
  (buffer.store first bytes, s, ⟨first, size, bytes⟩)

/-- `read_data`: the handler, the stream and the transfers.  The result is the number of bytes
in them. -/
def readDataFrom (stream : ProtocolStream) (h : TransportLevelHandler) (s : stream.State) :
    TransportLevelHandler × stream.State × List Transfer :=
  let count := stream.available s
  let count := if count ≥ h.buffer.capacity then h.buffer.capacity else count
  let h := h.makeSpace count
  let (buffer, s, transfer1) := fill stream h.buffer s count
  if count > transfer1.bytes.length then
    let (buffer, s, transfer2) := fill stream buffer s (count - transfer1.bytes.length)
    ({ h with buffer }, s, [transfer1, transfer2])
  else ({ h with buffer }, s, [transfer1])

/-! ## Room for the bytes -/

theorem capacity_makeSpace (h : TransportLevelHandler) (count : Nat) :
    (h.makeSpace count).buffer.capacity = h.buffer.capacity := by
  rw [makeSpace]
  dsimp only
  split
  · split <;> rfl
  · rfl

theorem contents_makeSpace (h : TransportLevelHandler) (count : Nat) :
    (h.makeSpace count).buffer.contents = h.buffer.contents.drop (count - h.buffer.getSpace) := by
  have hdrop := h.buffer.contents_drop (count - h.buffer.getSpace)
  rw [makeSpace]
  dsimp only
  by_cases hover : count > h.buffer.getSpace
  · rw [if_pos hover]
    split
    · exact hdrop
    · exact hdrop
  · rw [if_neg hover, Nat.sub_eq_zero_of_le (Nat.le_of_not_lt hover), List.drop_zero]

theorem le_getSpace_makeSpace (h : TransportLevelHandler) {count : Nat}
    (hcount : count ≤ h.buffer.capacity) : count ≤ (h.makeSpace count).buffer.getSpace := by
  have hlen := congrArg List.length (contents_makeSpace h count)
  rw [Members.length_contents, List.length_drop, Members.length_contents] at hlen
  have hle := h.buffer.getSize_le
  rw [Members.getSpace, capacity_makeSpace, hlen]
  unfold Members.getSpace
  omega

/-! ## A transfer -/

/-- What one transfer does, if the bytes are available and there is room for them. -/
structure Filled (stream : ProtocolStream) (buffer : CircularBuffer UInt8) (s : stream.State)
    (size : Nat) (buffer' : CircularBuffer UInt8) (s' : stream.State) (t : Transfer) : Prop where
  capacity : buffer'.capacity = buffer.capacity
  tail : buffer'.tail = (buffer.tail + t.size) % buffer.capacity
  contents : buffer'.contents = buffer.contents ++ t.bytes
  size : t.size = min size (buffer.capacity - buffer.tail)
  full : t.bytes.length = t.size
  bytes : t.bytes = (stream.pending s).take t.size
  pending : stream.pending s' = (stream.pending s).drop t.size
  available : stream.available s - t.size ≤ stream.available s'

theorem fill_filled (stream : ProtocolStream) {buffer : CircularBuffer UInt8} {s : stream.State}
    {size : Nat} (havailable : size ≤ stream.available s) (hspace : size ≤ buffer.getSpace) :
    ∃ buffer' s' t, fill stream buffer s size = (buffer', s', t) ∧
      Filled stream buffer s size buffer' s' t := by
  have hpending := stream.available_le s
  have hsize : (buffer.reserve size).2.2 = min size (buffer.capacity - buffer.tail) := by
    rw [CircularBuffer.reserve_snd]
  have hall : min (buffer.reserve size).2.2 (stream.available s) = (buffer.reserve size).2.2 := by
    omega
  have hbytes := stream.reads s (buffer.reserve size).2.2
  have hleft := stream.consumes s (buffer.reserve size).2.2
  have hkeeps := stream.keeps s (buffer.reserve size).2.2
  rw [hall] at hbytes hleft hkeeps
  have hfull : (stream.readArray s (buffer.reserve size).2.2).1.length =
      (buffer.reserve size).2.2 := by
    rw [hbytes, List.length_take]
    omega
  refine ⟨_, _, _, rfl, rfl, ?_, buffer.contents_store_reserve hspace hfull, hsize, hfull, hbytes,
    hleft, hkeeps⟩
  exact buffer.reserve_tail size

/-! ## All of a read -/

/-- With room made, one or two transfers store the bytes behind those already there.  The first
ends at the end of the block if there is a second, which then starts at its beginning. -/
theorem readDataFrom_spec (stream : ProtocolStream) (h : TransportLevelHandler) (s : stream.State) :
    let count := min (stream.available s) h.buffer.capacity
    ∃ buffer s' transfers,
      h.readDataFrom stream s = ({ h.makeSpace count with buffer }, s', transfers) ∧
        buffer.capacity = h.buffer.capacity ∧
        buffer.contents = (h.makeSpace count).buffer.contents ++ (stream.pending s).take count ∧
        stream.pending s' = (stream.pending s).drop count ∧
        (transfers.map fun t => t.bytes.length).sum = count ∧
        ∀ t ∈ transfers, t.bytes.length = t.size := by
  intro count
  have hcount : (if stream.available s ≥ h.buffer.capacity then h.buffer.capacity
      else stream.available s) = count := by
    show _ = min (stream.available s) h.buffer.capacity
    split <;> omega
  have havailable : count ≤ stream.available s := Nat.min_le_left _ _
  have hspace := le_getSpace_makeSpace h (Nat.min_le_right (stream.available s) h.buffer.capacity)
  have hcap := capacity_makeSpace h count
  rw [readDataFrom]
  simp only [hcount]
  generalize h.makeSpace count = g at hspace hcap ⊢
  obtain ⟨b1, s1, t1, hfill1, first⟩ := fill_filled stream havailable hspace
  rw [hfill1]
  have hsize1 := first.size
  by_cases hmore : count > t1.bytes.length
  · simp only [hmore, if_true]
    rw [first.full] at hmore ⊢
    have htail : b1.tail = 0 := by
      have hlt := g.buffer.tail_lt
      rw [first.tail, show t1.size = g.buffer.capacity - g.buffer.tail by omega,
        Nat.add_sub_cancel' (Nat.le_of_lt hlt), Nat.mod_self]
    have hspace1 : count - t1.size ≤ b1.getSpace := by
      have hlen := congrArg List.length first.contents
      rw [List.length_append, Members.length_contents, Members.length_contents,
        first.full] at hlen
      have hcap1 := first.capacity
      unfold Members.getSpace at hspace ⊢
      omega
    have havailable1 : count - t1.size ≤ stream.available s1 := by
      have := first.available
      omega
    obtain ⟨b2, s2, t2, hfill2, second⟩ := fill_filled stream havailable1 hspace1
    have hsize2 : t2.size = count - t1.size := by
      have := second.size
      unfold Members.getSpace at hspace1
      omega
    have hjoin : t1.bytes ++ t2.bytes = (stream.pending s).take count := by
      rw [second.bytes, first.pending, first.bytes, ← List.take_add, hsize2,
        Nat.add_sub_cancel' (Nat.le_of_lt hmore)]
    rw [hfill2]
    refine ⟨b2, s2, [t1, t2], rfl, ?_, ?_, ?_, ?_, ?_⟩
    · rw [second.capacity, first.capacity, hcap]
    · rw [second.contents, first.contents, List.append_assoc, hjoin]
    · rw [second.pending, first.pending, List.drop_drop, hsize2,
        Nat.add_sub_cancel' (Nat.le_of_lt hmore)]
    · simp only [List.map_cons, List.map_nil, List.sum_cons, List.sum_nil, first.full, second.full,
        hsize2]
      omega
    · simp only [List.forall_mem_cons, first.full, second.full, true_and]
      exact fun t ht => absurd ht List.not_mem_nil
  · have hall : t1.size = count := by
      have := first.full
      omega
    simp only [hmore, if_false]
    refine ⟨b1, s1, [t1], rfl, ?_, ?_, ?_, ?_, ?_⟩
    · rw [first.capacity, hcap]
    · rw [first.contents, first.bytes, hall]
    · rw [first.pending, hall]
    · simp only [List.map_cons, List.map_nil, List.sum_cons, List.sum_nil, first.full, hall,
        Nat.add_zero]
    · simp only [List.forall_mem_cons, first.full, true_and]
      exact fun t ht => absurd ht List.not_mem_nil

/-- `read_data` makes room at the old end and moves as many bytes as fit, in order. -/
theorem readDataFrom_faithful (stream : ProtocolStream) (h : TransportLevelHandler)
    (s : stream.State) :
    let c := min (stream.available s) h.buffer.capacity
    let (h', s', transfers) := h.readDataFrom stream s
    h'.buffer.contents =
        h.buffer.contents.drop (c - h.buffer.getSpace) ++ (stream.pending s).take c ∧
      stream.pending s' = (stream.pending s).drop c ∧
      (transfers.map fun t => t.bytes.length).sum = c ∧
      ∀ t ∈ transfers, t.bytes.length = t.size := by
  intro c
  obtain ⟨buffer, s', transfers, hread, _, hcontents, hpending, hsum, hfull⟩ :=
    readDataFrom_spec stream h s
  rw [hread]
  exact ⟨contents_makeSpace h c ▸ hcontents, hpending, hsum, hfull⟩

/-! ## Streams with all their bytes available -/

theorem readArray_eq (s : List UInt8) (len : Nat) :
    readArray s len = (s.take (min len s.length), s.drop (min len s.length)) := by
  rw [readArray]
  by_cases h : len ≤ s.length
  · rw [Nat.min_eq_left h]
  · have hle : s.length ≤ len := Nat.le_of_not_le h
    rw [Nat.min_eq_right hle, List.take_of_length_le hle, List.take_length, List.drop_length,
      List.drop_eq_nil_of_le hle]

theorem length_readArray (s : List UInt8) (len : Nat) :
    s.length - min len s.length ≤ (readArray s len).2.length := by
  refine Nat.le_of_eq ?_
  rw [readArray_eq, List.length_drop]

end TransportLevelHandler

/-- A stream that will deliver these bytes and no others. -/
def ProtocolStream.ofList : ProtocolStream where
  State := List UInt8
  available := List.length
  readArray := TransportLevelHandler.readArray
  pending := id
  available_le := fun _ => Nat.le_refl _
  reads := fun s len => congrArg Prod.fst (TransportLevelHandler.readArray_eq s len)
  consumes := fun s len => congrArg Prod.snd (TransportLevelHandler.readArray_eq s len)
  keeps := TransportLevelHandler.length_readArray

/-- `readData` is the case of such a stream. -/
theorem TransportLevelHandler.readData_eq (h : TransportLevelHandler) (input : List UInt8) :
    h.readData input = ((h.readDataFrom .ofList input).1, (h.readDataFrom .ofList input).2.1,
      ((h.readDataFrom .ofList input).2.2.map fun t => t.bytes.length).sum) := by
  have hcount : ProtocolStream.ofList.available input = input.length := rfl
  simp only [readDataFrom, readData, hcount]
  generalize (if input.length ≥ h.buffer.capacity then h.buffer.capacity else input.length) = count
  have hread : (fill .ofList (h.makeSpace count).buffer input count).2.2.bytes =
    (readArray input ((h.makeSpace count).buffer.reserve count).2.2).1 := rfl
  rw [hread]
  split
  · rfl
  · rfl

end HaierProtocol
