import HaierProtocol.Transport.Refinement

/-!
# Feeding a handler in chunks

`feed` gives a handler its input chunk by chunk, each read and processed before the next
arrives, and `Fits` says that no chunk overflows the buffer.  Under `Fits` the handler ends up
tracking the receiver that has settled on the whole input at once (`feed_tracks`).
-/

namespace HaierProtocol

/-- Bytes that become available together, and the time at which they are processed. -/
structure Chunk where
  bytes : List UInt8
  now : TimePoint

/-- The stream that the chunks make up. -/
def Chunk.stream (chunks : List Chunk) : List UInt8 := chunks.flatMap Chunk.bytes

namespace TransportLevelHandler

/-- `read_data`, then `process_data`. -/
def receive (h : TransportLevelHandler) (chunk : Chunk) : TransportLevelHandler :=
  (h.readData chunk.bytes).1.processData chunk.now

def feed (h : TransportLevelHandler) (chunks : List Chunk) : TransportLevelHandler :=
  chunks.foldl receive h

/-- There is always room for what is available. -/
def Fits : TransportLevelHandler → List Chunk → Prop
  | _, [] => True
  | h, chunk :: rest => chunk.bytes.length ≤ h.buffer.getSpace ∧ Fits (h.receive chunk) rest

instance Fits.decidable : (h : TransportLevelHandler) → (chunks : List Chunk) →
    Decidable (h.Fits chunks)
  | _, [] => isTrue trivial
  | h, chunk :: rest =>
    have := Fits.decidable (h.receive chunk) rest
    inferInstanceAs (Decidable (_ ∧ _))

end TransportLevelHandler

open TransportLevelHandler

theorem receive_of_room {r : Receiver} {capacity : Nat} {input : List UInt8}
    (h : input.length ≤ capacity - r.held) : r.receive capacity input = r.push input := by
  have hcount : min input.length capacity = input.length := by omega
  have hexcess : ¬ input.length - (capacity - r.held) > 0 := by omega
  rw [Receiver.receive]
  simp only [hcount, hexcess, if_false, List.take_length]

theorem getSpace_eq {h : TransportLevelHandler} {r : Receiver} (ht : Tracks h 0 r) :
    h.buffer.getSpace = h.buffer.capacity - r.held := by
  have hheld := ht.getSize_sub
  rw [Members.getSpace, ← hheld, Nat.sub_zero]

theorem push_push (r : Receiver) (xs ys : List UInt8) :
    (r.push xs).push ys = r.push (xs ++ ys) := by
  show { r with stream := r.stream ++ xs ++ ys } =
    ({ r with stream := r.stream ++ (xs ++ ys) } : Receiver)
  rw [List.append_assoc]

/-- One chunk, with room for it. -/
theorem receive_tracks {h : TransportLevelHandler} {r : Receiver} {chunk : Chunk}
    (ht : Tracks h 0 r)
    (hinv : r.Inv) (hroom : chunk.bytes.length ≤ h.buffer.getSpace) :
    Tracks (h.receive chunk) 0 (r.push chunk.bytes).settle := by
  have hread := readData_tracks ht hinv chunk.bytes
  rw [getSpace_eq ht] at hroom
  rw [receive_of_room hroom] at hread
  exact processData_tracks hread (Receiver.inv_push _ hinv) chunk.now

/-- Chunk by chunk or all at once, the receiver settles in the same state. -/
theorem feed_tracks : ∀ (chunks : List Chunk) {h : TransportLevelHandler} {r : Receiver},
    Tracks h 0 r → r.Inv → r.ready = false → h.Fits chunks →
      Tracks (h.feed chunks) 0 (r.push (Chunk.stream chunks)).settle
  | [], h, r, ht, _, hr, _ => by
    have hnil : r.push (Chunk.stream []) = r := by
      rw [Receiver.push, Chunk.stream, List.flatMap_nil, List.append_nil]
    rw [hnil, Receiver.settle_of_not_ready hr]
    exact ht
  | chunk :: rest, h, r, ht, hinv, _, hfit => by
    have hpush := Receiver.inv_push chunk.bytes hinv
    have hrest := feed_tracks rest (receive_tracks ht hinv hfit.1) (Receiver.inv_settle hpush)
      (Receiver.settle_not_ready hpush) hfit.2
    rw [Receiver.settle_push _ hpush, push_push] at hrest
    exact hrest

/-- What a fresh handler becomes. -/
theorem feed_fresh {cells : Nat → UInt8} {bufferSize : Nat} {chunks : List Chunk}
    (h : (ofBufferSize cells bufferSize).Fits chunks) :
    Tracks ((ofBufferSize cells bufferSize).feed chunks) 0
      (Receiver.fresh.push (Chunk.stream chunks)).settle :=
  feed_tracks chunks (tracks_ofBufferSize cells bufferSize) Receiver.inv_fresh rfl h

/-- The queue of a handler that nothing was taken from, frame by frame. -/
theorem Tracks.map_frame {h : TransportLevelHandler} {r : Receiver} (ht : Tracks h 0 r)
    (htaken : r.taken = 0) :
    h.incomingQueue.map TimestampedFrame.frame = r.log.map Reception.frame := by
  rw [ht.queue, Receiver.queue, htaken, List.drop_zero, List.map_map]
  rfl

/-- The queue of a fresh handler that has been fed. -/
theorem map_frame_feed {cells : Nat → UInt8} {bufferSize : Nat} {chunks : List Chunk}
    (hfit : (ofBufferSize cells bufferSize).Fits chunks) :
    ((ofBufferSize cells bufferSize).feed chunks).incomingQueue.map TimestampedFrame.frame =
      (Receiver.fresh.push (Chunk.stream chunks)).settle.log.map Reception.frame :=
  (feed_fresh hfit).map_frame (Receiver.settle_taken (Receiver.inv_push _ Receiver.inv_fresh))

theorem fixed_feed (chunks : List Chunk) (h : TransportLevelHandler) : Fixed h (h.feed chunks) := by
  induction chunks generalizing h with
  | nil => exact ⟨rfl, rfl⟩
  | cons chunk rest ih =>
    have h1 := fixed_readData h chunk.bytes
    have h2 := fixed_processData (h.readData chunk.bytes).1 chunk.now
    have h3 := ih (h.receive chunk)
    exact ⟨h3.1.trans (h2.1.trans h1.1), h3.2.trans (h2.2.trans h1.2)⟩

end HaierProtocol
