import HaierProtocol.Transport.Decoder
import HaierProtocol.Transport.Encoder

/-!
# The default capacity

A body stays in the ring buffer, escapes included, until it is complete.  A handler with the
default buffer therefore receives a packet byte by byte exactly when the stuffed body has at
most `defaultBufferSize` bytes.
-/

namespace HaierProtocol

open TransportLevelHandler

/-- Bytes that become available one at a time, the first of them at `now i`. -/
def oneByOne (now : Nat → TimePoint) : Nat → List UInt8 → List Chunk
  | _, [] => []
  | i, b :: rest => ⟨[b], now i⟩ :: oneByOne now (i + 1) rest

theorem oneByOne_append (now : Nat → TimePoint) (i : Nat) (xs ys : List UInt8) :
    oneByOne now i (xs ++ ys) = oneByOne now i xs ++ oneByOne now (i + xs.length) ys := by
  induction xs generalizing i with
  | nil => rfl
  | cons b rest ih =>
    rw [List.cons_append, oneByOne, oneByOne, ih, List.length_cons, List.cons_append,
      Nat.add_right_comm, Nat.add_assoc]

theorem stream_oneByOne (now : Nat → TimePoint) (i : Nat) (bytes : List UInt8) :
    Chunk.stream (oneByOne now i bytes) = bytes := by
  induction bytes generalizing i with
  | nil => rfl
  | cons b rest ih =>
    rw [oneByOne, Chunk.stream, List.flatMap_cons]
    show b :: Chunk.stream (oneByOne now (i + 1) rest) = _
    rw [ih]

theorem fits_append {h : TransportLevelHandler} {xs ys : List Chunk} :
    h.Fits (xs ++ ys) ↔ h.Fits xs ∧ (h.feed xs).Fits ys := by
  induction xs generalizing h with
  | nil => exact (and_iff_right trivial).symm
  | cons chunk rest ih =>
    rw [List.cons_append, Fits, Fits, ih, and_assoc]
    rfl

/-- The handler that `ProtocolHandler(stream)` creates. -/
def defaultHandler (cells : Nat → UInt8) : TransportLevelHandler :=
  .ofBufferSize cells defaultBufferSize

section

variable {cells : Nat → UInt8} {now : Nat → TimePoint} {p : Packet} {k : Nat}

/-- What is held of a packet of which `k` bytes have arrived. -/
theorem held_take (hk : k < p.wire.length) :
    (Receiver.fresh.push (p.wire.take k)).settle.held ≤ k ∧
      (p.headWire.length ≤ k →
        (Receiver.fresh.push (p.wire.take k)).settle.held = k - p.headWire.length) := by
  have hpush := Receiver.inv_push (p.wire.take k) Receiver.inv_fresh
  obtain ⟨hstream, hc, _⟩ := Collecting.of_take hk
  generalize hr : (Receiver.fresh.push (p.wire.take k)).settle = r at hstream hc
  have hinv : r.Inv := hr ▸ Receiver.inv_settle hpush
  have hsettled : r.ready = false := hr ▸ Receiver.settle_not_ready hpush
  have hlen : r.stream.length = k := by
    rw [hstream, List.length_take]
    exact Nat.min_eq_left (Nat.le_of_lt hk)
  have hcar : r.stream.drop 0 ++ p.wire.drop k = p.wire ++ [] := by
    rw [hstream, List.drop_zero, List.take_append_drop, List.append_nil]
  refine ⟨?_, fun hle => ?_⟩
  · rw [Receiver.held, hlen]
    exact Nat.sub_le _ _
  · have hfront := (hc.body_of_settled hinv hsettled hcar (by omega)).2.2
    rw [Receiver.held, hlen, hfront, Nat.zero_add]

/-- The room left for the next byte. -/
theorem getSpace_take (hfit : (defaultHandler cells).Fits (oneByOne now 0 (p.wire.take k))) :
    ((defaultHandler cells).feed (oneByOne now 0 (p.wire.take k))).buffer.getSpace =
      defaultBufferSize - (Receiver.fresh.push (p.wire.take k)).settle.held := by
  have ht := feed_fresh hfit
  rw [stream_oneByOne] at ht
  rw [defaultHandler, getSpace_eq ht, (fixed_feed _ _).1]
  rfl

theorem drop_eq_cons (hk : k < p.wire.length) : ∃ b rest, p.wire = p.wire.take k ++ b :: rest := by
  obtain ⟨b, rest, hdrop⟩ := List.exists_cons_of_ne_nil
    (show p.wire.drop k ≠ [] from fun h => by
      have := List.drop_eq_nil_iff.mp h
      omega)
  exact ⟨b, rest, by rw [← hdrop, List.take_append_drop]⟩

theorem fits_take (cells : Nat → UInt8) (now : Nat → TimePoint)
    (hbody : p.bodyWire.length ≤ defaultBufferSize) :
    ∀ k, k ≤ p.wire.length → (defaultHandler cells).Fits (oneByOne now 0 (p.wire.take k))
  | 0, _ => trivial
  | k + 1, hk => by
    have hfit := fits_take cells now hbody k (Nat.le_of_succ_le hk)
    obtain ⟨hle, heq⟩ := held_take (p := p) (k := k) hk
    have hlen := p.length_headWire
    have hwire := congrArg List.length p.wire_eq
    rw [List.length_append] at hwire
    have hdefault : defaultBufferSize = 251 := rfl
    rw [List.take_add_one, oneByOne_append, fits_append, List.getElem?_eq_getElem hk]
    refine ⟨hfit, ?_, trivial⟩
    show 1 ≤ _
    rw [getSpace_take hfit]
    by_cases hhead : p.headWire.length ≤ k
    · rw [heq hhead]
      omega
    · split at hlen <;> omega

/-- There is room for every byte exactly when the stuffed body fits the buffer. -/
theorem fits_oneByOne_iff (cells : Nat → UInt8) (now : Nat → TimePoint) (p : Packet) :
    (defaultHandler cells).Fits (oneByOne now 0 p.wire) ↔
      p.bodyWire.length ≤ defaultBufferSize := by
  constructor
  · intro hfit
    by_contra hlong
    have hwire := congrArg List.length p.wire_eq
    rw [List.length_append] at hwire
    have hk : p.headWire.length + defaultBufferSize < p.wire.length := by omega
    obtain ⟨b, rest, hsplit⟩ := drop_eq_cons hk
    rw [hsplit, oneByOne_append, fits_append] at hfit
    have hroom : 1 ≤ _ := hfit.2.1
    have hheld := (held_take hk).2 (Nat.le_add_right _ _)
    rw [getSpace_take hfit.1, hheld] at hroom
    omega
  · intro hbody
    have := fits_take cells now hbody p.wire.length (Nat.le_refl _)
    rwa [List.take_length] at this

end

theorem length_bodyWire (p : Packet) : p.bodyWire.length = p.body.length + p.body.count 0xFF :=
  Stuffing.length_stuff ..

/-- The default handler receives a packet byte by byte, without overflow, exactly when the
body, the trailer and an escape for each separator among them fit its buffer. -/
theorem defaultHandler_receives_iff (cells : Nat → UInt8) (now : Nat → TimePoint) (p : Packet) :
    ((defaultHandler cells).Fits (oneByOne now 0 p.wire) ∧
      p.frame ∈ ((defaultHandler cells).feed (oneByOne now 0 p.wire)).incomingQueue.map
        TimestampedFrame.frame) ↔
      p.body.length + p.body.count 0xFF ≤ 251 := by
  rw [← length_bodyWire]
  show _ ↔ p.bodyWire.length ≤ defaultBufferSize
  rw [fits_oneByOne_iff]
  refine ⟨fun h => h.1, fun hbody => ⟨hbody, ?_⟩⟩
  have hfit := (fits_oneByOne_iff cells now p).mpr hbody
  have hwires : wires [p] = p.wire := List.append_nil _
  have hlog := (settle_wires [p]).1
  rw [hwires] at hlog
  rw [defaultHandler, map_frame_feed hfit, stream_oneByOne, hlog]
  exact List.mem_singleton_self _

/-- A full payload of separators, whose stuffed body is almost twice as long as the buffer. -/
theorem defaultHandler_not_receives :
    ¬ ∀ (cells : Nat → UInt8) (now : Nat → TimePoint) (p : Packet),
    (defaultHandler cells).Fits (oneByOne now 0 p.wire) ∧
      p.frame ∈ ((defaultHandler cells).feed (oneByOne now 0 p.wire)).incomingQueue.map
        TimestampedFrame.frame := by
  intro hall
  have hfit := (hall (fun _ => 0) (fun _ => 0) separatorsPacket).1
  rw [fits_oneByOne_iff, length_bodyWire, Packet.body, List.length_append,
    List.count_append] at hfit
  have hlen : separatorsPacket.payload.length = 233 := List.length_replicate ..
  have hcount : separatorsPacket.payload.count 0xFF = 233 := List.count_replicate_self ..
  have hdefault : defaultBufferSize = 251 := rfl
  omega

end HaierProtocol
