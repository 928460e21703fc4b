import HaierProtocol.Protocol.Calls
import HaierProtocol.Transport.Expecting

/-!
# An endpoint that has handled what came in

`Listens` holds of an endpoint whose queue of frames is empty, with the receiver behind its
transport level.  When it receives, it is given nothing and stays as it is, or it is given some
bytes of a packet that it expects: then it still expects the rest, or the packet's frame is the only
one in the queue and has left nothing else behind.
-/

namespace HaierProtocol

open Receiver

namespace Endpoint

structure Listens (capacity : Nat) (e : Endpoint) (r : Receiver) : Prop where
  matched : Matches e.history r
  line : Line e
  arrivals : e.arrivals = []
  capacity_eq : e.handler.transport.buffer.capacity = capacity

namespace Listens

variable {capacity : Nat} {e e' : Endpoint} {r : Receiver} {p : Packet} {line : List UInt8}

theorem start (cells : Nat → UInt8) (bufferSize : Nat) :
    Listens (CircularBuffer.ofCapacity cells bufferSize).capacity (.start cells bufferSize)
      .fresh :=
  ⟨Matches.start cells bufferSize, .start cells bufferSize, rfl, rfl⟩

theorem of_eq (h : Listens capacity e r) (hline : Line e')
    (htransport : e'.handler.transport = e.handler.transport)
    (hreceived : e'.received = e.received) (hpushed : e'.pushed = e.pushed)
    (harrivals : e'.arrivals = e.arrivals) : Listens capacity e' r := by
  have hm := h.matched
  refine ⟨⟨?_, hm.inv, hm.sound, ?_, ?_⟩, hline, harrivals.trans h.arrivals,
    htransport ▸ h.capacity_eq⟩
  · show Tracks e'.handler.transport 0 r
    rw [htransport]
    exact hm.tracks
  · show r.stream = e'.received
    rw [hreceived]
    exact hm.stream
  · show e'.pushed = r.log.map (Reception.placed e'.handler.transport.frameStart)
    rw [hpushed, htransport]
    exact hm.pushed

theorem sameLine (h : Listens capacity e r) (hsame : SameLine e e') : Listens capacity e' r :=
  h.of_eq (hsame.line h.line) hsame.transport hsame.received hsame.pushed hsame.arrivals

theorem arrive (h : Listens capacity e r) (bytes : List UInt8) :
    Listens capacity { e with input := e.input ++ bytes } r :=
  h.of_eq (h.line.arrive bytes) rfl rfl rfl rfl

/-- No frame is waiting. -/
theorem taken_eq (h : Listens capacity e r) : r.taken = r.log.length := by
  have hqueue := h.line.queue
  rw [h.arrivals, List.map_nil] at hqueue
  have htracks : e.handler.transport.incomingQueue = _ := h.matched.tracks.queue
  rw [← hqueue, Receiver.queue] at htracks
  have hlength := congrArg List.length htracks
  rw [List.length_nil, List.length_drop, List.length_map] at hlength
  have hle := h.matched.tracks.taken_le
  omega

theorem capacity_receive (env : Surroundings) (e : Endpoint) :
    (e.receive env).handler.transport.buffer.capacity = e.handler.transport.buffer.capacity :=
  (fixed_processData _ _).1.trans (fixed_readData e.handler.transport e.input).1

/-- What `receive` does where there is room for all bytes. -/
theorem receive_all (h : Listens capacity e r) (hroom : r.held + e.input.length ≤ capacity)
    (env : Surroundings) :
    (e.receive env).input = [] ∧ Matches (e.receive env).history (r.push e.input).settle ∧
      (e.receive env).arrivals.map Arrival.frame =
        (r.push e.input).settle.queue (e.receive env).handler.transport.frameStart := by
  have hheld : e.input.length ≤ e.handler.transport.buffer.capacity - r.held := by
    rw [h.capacity_eq]
    omega
  have hreceive : r.receive e.handler.transport.buffer.capacity e.input = r.push e.input :=
    receive_of_room hheld
  obtain ⟨_, hread, _⟩ := readData_spec e.handler.transport e.input
  have hmatched := (h.matched.readData).processData (env.clock e.ticks)
  rw [← history_receive env e, show r.receive e.history.handler.buffer.capacity e.history.input =
    r.push e.input from hreceive] at hmatched
  refine ⟨?_, hmatched, ?_⟩
  · show (e.handler.transport.readData e.input).2.1 = []
    rw [hread, List.drop_eq_nil_iff]
    omega
  · exact (h.line.receive env).queue.trans hmatched.tracks.queue

theorem receive_nothing (h : Listens capacity e r) (hboundary : r.AtBoundary)
    (hinput : e.input = []) (env : Surroundings) :
    (e.receive env).input = [] ∧ Listens capacity (e.receive env) r := by
  have hheld : r.held + e.input.length ≤ capacity := by
    rw [hinput, Receiver.held, hboundary.front, Nat.sub_self]
    exact Nat.zero_le _
  obtain ⟨hnil, hmatched, hqueue⟩ := h.receive_all hheld env
  rw [hinput, hboundary.settle_nil] at hmatched hqueue
  refine ⟨hnil, hmatched, h.line.receive env, ?_, (capacity_receive env e).trans h.capacity_eq⟩
  rw [Receiver.queue, h.taken_eq, List.drop_of_length_le (List.length_map _).le] at hqueue
  exact List.map_eq_nil_iff.mp hqueue

/-- With the only frame taken out of the queue. -/
theorem dropFrames {r' : Receiver} {a : Arrival} (hline : Line e) (hmatched : Matches e.history r')
    (harrivals : e.arrivals = [a])
    (hcapacity : e.handler.transport.buffer.capacity = capacity) :
    Listens capacity (e.dropFrames 1) (r'.take 1) := by
  refine ⟨hmatched.drop 1, hline.dropFrames 1, ?_, hcapacity⟩
  show e.arrivals.drop 1 = []
  rw [harrivals, List.drop_one, List.tail_cons]

/-- Some bytes of the packet that is expected are received. -/
theorem receive_packet (h : Listens capacity e r) (hexpecting : Expecting p (e.input ++ line) r)
    (hcapacity : p.wire.length ≤ capacity) (env : Surroundings) :
    (e.receive env).input = [] ∧
      (line ≠ [] ∧ (∃ r', Listens capacity (e.receive env) r' ∧ Expecting p line r') ∨
        line = [] ∧ ∃ a r', (e.receive env).arrivals = [a] ∧ a.frame.frame = p.frame ∧
          Listens capacity ((e.receive env).dropFrames 1) r' ∧ r'.AtBoundary) := by
  have hheld := hexpecting.held_le
  rw [List.length_append] at hheld
  obtain ⟨hnil, hmatched, hqueue⟩ := h.receive_all (by omega) env
  have hcap := (capacity_receive env e).trans h.capacity_eq
  refine ⟨hnil, ?_⟩
  rcases hexpecting.settle_push with ⟨hline, hrest, hlog, htaken⟩ | ⟨hline, hdone⟩
  · refine .inl ⟨hline, _, ⟨hmatched, h.line.receive env, ?_, hcap⟩, hrest⟩
    rw [Receiver.queue, htaken, h.taken_eq, hlog,
      List.drop_of_length_le (List.length_map _).le] at hqueue
    exact List.map_eq_nil_iff.mp hqueue
  · obtain ⟨stop, hlog⟩ := hdone.log
    rw [Receiver.queue, hdone.taken, h.taken_eq, hlog, List.map_append,
      List.drop_left' (List.length_map _)] at hqueue
    obtain ⟨a, harrivals, ha⟩ := List.map_eq_singleton_iff.mp hqueue
    refine .inr ⟨hline, a, _, harrivals, by rw [ha],
      dropFrames (h.line.receive env) hmatched harrivals hcap, ?_⟩
    exact ⟨hdone.boundary.found, hdone.boundary.front⟩

end Listens

/-- The only frame of the queue goes to the message handler. -/
theorem Line.handleIncoming_single {e : Endpoint} (h : Line e) {a : Arrival}
    (harrivals : e.arrivals = [a]) (env : Surroundings) (reply : Reply) :
    e.handleIncoming env reply = (e.dropFrames 1).processMessage env reply a := by
  have hlength : e.handler.transport.incomingQueue.length = 1 := by
    rw [← h.length_arrivals, harrivals]
    rfl
  rw [handleIncoming, hlength]
  dsimp only
  rw [if_neg (Nat.lt_irrefl 1), if_pos Nat.one_pos, h.popFrame_eq harrivals]

theorem handleIncoming_nil {e : Endpoint} (h : Line e) (harrivals : e.arrivals = [])
    (env : Surroundings) (reply : Reply) : e.handleIncoming env reply = e := by
  have hlength : e.handler.transport.incomingQueue.length = 0 := by
    rw [← h.length_arrivals, harrivals]
    rfl
  rw [handleIncoming, hlength]
  rfl

end Endpoint
end HaierProtocol
