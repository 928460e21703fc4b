import HaierProtocol.Transport.Collecting
import HaierProtocol.Transport.Feeding

/-!
# Decoding

A handler that is fed the encodings of a list of packets, however they are cut, queues the
frames of these packets in order.  `Aligned` is the invariant: the receiver has accepted some
of the packets and is collecting the next one.
-/

namespace HaierProtocol

/-- The packets on the wire, one after another. -/
def wires (packets : List Packet) : List UInt8 := packets.flatMap Packet.wire

theorem wires_append (xs ys : List Packet) : wires (xs ++ ys) = wires xs ++ wires ys :=
  List.flatMap_append ..

theorem wires_cons (p : Packet) (ps : List Packet) : wires (p :: ps) = p.wire ++ wires ps :=
  List.flatMap_cons ..

/-- Between two packets, or in the middle of one. -/
structure AlignedAt (done left : List Packet) (r : Receiver) : Prop where
  log : r.log.map Reception.frame = done.map Packet.frame
  next : ∀ p, left.head? = some p → Collecting p (wires done).length r
  last : left = [] → r.found = false ∧ r.front = (wires done).length

def Aligned (packets : List Packet) (r : Receiver) : Prop :=
  ∃ done left, packets = done ++ left ∧ AlignedAt done left r

namespace Aligned

variable {packets : List Packet} {r r' : Receiver}

/-- A receiver at the boundary is aligned with whatever comes next. -/
theorem of_boundary {done left : List Packet}
    (hlog : r.log.map Reception.frame = done.map Packet.frame)
    (hfound : r.found = false) (hfront : r.front = (wires done).length) : AlignedAt done left r :=
  ⟨hlog, fun _ _ => .marks hfound hfront, fun _ => ⟨hfound, hfront⟩⟩

theorem fresh (packets : List Packet) (bytes : List UInt8) :
    Aligned packets (Receiver.fresh.push bytes) :=
  ⟨[], packets, rfl, of_boundary rfl rfl rfl⟩

/-- The stream from the packet being collected on. -/
theorem drop_stream {done : List Packet} {p : Packet} {left : List Packet}
    (hstream : r.stream = wires (done ++ p :: left)) :
    r.stream.drop (wires done).length ++ [] = p.wire ++ wires left := by
  rw [hstream, wires_append, wires_cons, List.drop_left, List.append_nil]

theorem move (hinv : r.Inv) (hr : r.ready = true) (hm : r.Move r')
    (hstream : r.stream = wires packets) (ha : Aligned packets r) : Aligned packets r' := by
  obtain ⟨done, left, rfl, ha⟩ := ha
  cases left with
  | nil =>
    have hlt := Receiver.ready_iff.mp hr
    obtain ⟨_, hfront⟩ := ha.last rfl
    rw [List.append_nil] at hstream
    rw [hstream] at hlt
    omega
  | cons p left =>
    have hc := ha.next p rfl
    rcases hc.move hinv hr hm (drop_stream hstream) with ⟨hc', hlog⟩ | hfin
    · refine ⟨done, p :: left, rfl, ?_, ?_, ?_⟩
      · rw [hlog]
        exact ha.log
      · intro q hq
        rw [List.head?_cons, Option.some_inj] at hq
        exact hq ▸ hc'
      · intro h
        cases h
    · have hend : (wires done).length + p.wire.length = (wires (done ++ [p])).length := by
        rw [wires_append, List.length_append, wires_cons]
        show _ = _ + (p.wire ++ []).length
        rw [List.append_nil]
      refine ⟨done ++ [p], left, ?_, of_boundary ?_ ?_ ?_⟩
      · rw [List.append_assoc]
        rfl
      · rw [hfin]
        show (r.log ++ [_]).map Reception.frame = _
        rw [List.map_append, List.map_append, ha.log]
        rfl
      · rw [hfin]
        rfl
      · rw [hfin]
        exact hend

/-- With the whole stream looked at, every packet has been accepted. -/
theorem settled (hinv : r.Inv) (hr : r.ready = false) (hstream : r.stream = wires packets)
    (ha : Aligned packets r) :
    r.log.map Reception.frame = packets.map Packet.frame ∧ r.front = r.stream.length := by
  obtain ⟨done, left, rfl, ha⟩ := ha
  cases left with
  | nil =>
    rw [List.append_nil] at hstream ⊢
    rw [hstream]
    exact ⟨ha.log, (ha.last rfl).2⟩
  | cons p left =>
    have hlt := (ha.next p rfl).not_settled hinv hr (drop_stream hstream)
    rw [hstream, wires_append, wires_cons, List.length_append, List.length_append] at hlt
    omega

end Aligned

/-- What a receiver makes of the packets on the wire. -/
theorem settle_wires (packets : List Packet) :
    let r := (Receiver.fresh.push (wires packets)).settle
    r.log.map Reception.frame = packets.map Packet.frame ∧ r.front = r.stream.length := by
  have hinv := Receiver.inv_push (wires packets) Receiver.inv_fresh
  obtain ⟨hstream, ha⟩ := Receiver.settle_moves
    (P := fun r => r.stream = wires packets ∧ Aligned packets r)
    (fun hi hr hm hp => ⟨hm.stream_eq.trans hp.1, hp.2.move hi hr hm hp.1⟩)
    hinv ⟨List.nil_append _, Aligned.fresh packets _⟩
  exact ha.settled (Receiver.inv_settle hinv) (Receiver.settle_not_ready hinv) hstream

open TransportLevelHandler

/-- The handler queues the packets' frames, all of them and nothing else, and keeps no byte. -/
theorem feed_wires {cells : Nat → UInt8} {bufferSize : Nat} {packets : List Packet}
    {chunks : List Chunk} (hfit : (ofBufferSize cells bufferSize).Fits chunks)
    (hstream : Chunk.stream chunks = wires packets) :
    let h := (ofBufferSize cells bufferSize).feed chunks
    h.incomingQueue.map TimestampedFrame.frame = packets.map Packet.frame ∧
      h.buffer.contents = [] := by
  intro h
  obtain ⟨hlog, hfront⟩ := settle_wires packets
  have hcontents := (feed_fresh hfit).contents
  rw [hstream, hfront, List.drop_length, List.drop_zero] at hcontents
  refine ⟨?_, hcontents⟩
  rw [map_frame_feed hfit, hstream]
  exact hlog

/-- Two frames, the first cut between a separator and its escape. -/
theorem feed_wires_two :
    let p := Packet.mk 0x06 [0xFF, 0x01] true (by decide)
    let q := Packet.mk 0xFF [] false (by decide)
    ((ofBufferSize (fun _ => 0) 0).feed
      [⟨p.wire.take 11, 0⟩, ⟨p.wire.drop 11 ++ q.wire, 0⟩]).incomingQueue.map
        TimestampedFrame.frame = [p.frame, q.frame] :=
  (@feed_wires _ _ [_, _] _ (by decide +kernel) (by decide +kernel)).1

end HaierProtocol
