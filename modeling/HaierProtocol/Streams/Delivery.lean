import HaierProtocol.Transport.Boundary

/-!
# Delivery

What a handler has received while the packets of a sender are on their way to it.  `Delivers` is the
invariant: a receiver that is given the bytes still to come will have received what was sent, and
stand at a boundary.  Sending, reading as much as there is room for, looking at what was read and
taking frames out of the queue keep it, in any order.
-/

namespace HaierProtocol

open TransportLevelHandler

/-- A handler, with a record of what was taken out of its queue. -/
structure Intake where
  transport : TransportLevelHandler
  taken : List TimestampedFrame

namespace Intake

def ofBufferSize (cells : Nat → UInt8) (bufferSize : Nat) : Intake :=
  ⟨.ofBufferSize cells bufferSize, []⟩

/-- The frames received so far. -/
def frames (e : Intake) : List HaierFrame :=
  (e.taken ++ e.transport.incomingQueue).map TimestampedFrame.frame

def processData (e : Intake) (now : TimePoint) : Intake :=
  { e with transport := e.transport.processData now }

def pop (e : Intake) : Intake :=
  ⟨e.transport.pop.1, e.taken ++ e.transport.pop.2.toList⟩

def drop (e : Intake) (framesCount : Nat) : Intake :=
  ⟨e.transport.drop framesCount, e.taken ++ e.transport.incomingQueue.take framesCount⟩

/-- There is room for as much as is read of so many bytes. -/
def Room (e : Intake) (available : Nat) : Prop :=
  min available e.transport.buffer.capacity ≤ e.transport.buffer.getSpace

instance (e : Intake) (available : Nat) : Decidable (e.Room available) :=
  inferInstanceAs (Decidable (_ ≤ _))

theorem pop_eq_drop (e : Intake) : e.pop = e.drop 1 := by
  rw [pop, drop, HaierProtocol.pop_eq_drop, TransportLevelHandler.pop]
  cases e.transport.incomingQueue <;> rfl

end Intake

theorem receive_of_min_le {r : Receiver} {capacity : Nat} {input : List UInt8}
    (h : min input.length capacity ≤ capacity - r.held) :
    r.receive capacity input = r.push (input.take (min input.length capacity)) := by
  have hexcess : ¬min input.length capacity - (capacity - r.held) > 0 := by omega
  rw [Receiver.receive]
  simp only [hexcess, if_false]

/-- The receiver of a handler, with the bytes that are on their way. -/
structure Delivers (e : Intake) (line : List UInt8) (sent : List Packet) (r : Receiver) :
    Prop where
  tracks : Tracks e.transport 0 r
  inv : r.Inv
  boundary : (r.push line).settle.AtBoundary
  log : (r.push line).settle.log.map Reception.frame = sent.map Packet.frame
  taken : e.taken.map TimestampedFrame.frame = (r.log.map Reception.frame).take r.taken

namespace Delivers

variable {e : Intake} {line : List UInt8} {sent : List Packet} {r : Receiver}

theorem start (cells : Nat → UInt8) (bufferSize : Nat) :
    Delivers (.ofBufferSize cells bufferSize) [] [] .fresh := by
  have hsettle : (Receiver.fresh.push []).settle = .fresh :=
    Receiver.settle_of_not_ready Receiver.atBoundary_fresh.not_ready
  exact ⟨tracks_ofBufferSize cells bufferSize, Receiver.inv_fresh,
    hsettle ▸ Receiver.atBoundary_fresh, by rw [hsettle]; rfl, rfl⟩

theorem map_queue (ht : Tracks e.transport 0 r) :
    e.transport.incomingQueue.map TimestampedFrame.frame =
      (r.log.map Reception.frame).drop r.taken := by
  rw [ht.queue, Receiver.queue, List.map_drop, List.map_map]
  rfl

theorem frames_eq (h : Delivers e line sent r) : e.frames = r.log.map Reception.frame := by
  rw [Intake.frames, List.map_append, h.taken, map_queue h.tracks, List.take_append_drop]

theorem log_settle (hinv : r.Inv) : r.log <+: r.settle.log := by
  refine Receiver.settle_moves (P := fun s => r.log <+: s.log) ?_ hinv (List.prefix_refl _)
  intro s s' _ _ hm hs
  refine hs.trans ?_
  obtain ⟨_, hm⟩ | ⟨_, _, hm⟩ | ⟨_, _, hm⟩ := hm <;> cases hm <;>
    first | exact List.prefix_refl _ | exact List.prefix_append _ _

/-- Nothing is delivered that was not sent, nothing out of order, nothing twice. -/
theorem frames_prefix (h : Delivers e line sent r) : e.frames <+: sent.map Packet.frame := by
  rw [h.frames_eq, ← h.log]
  exact (log_settle (Receiver.inv_push line h.inv)).map _

/-- A packet joins the others on their way. -/
theorem send (h : Delivers e line sent r) (p : Packet) :
    Delivers e (line ++ p.wire) (sent ++ [p]) r := by
  have hpush := Receiver.inv_push line h.inv
  have hsettle : (r.push (line ++ p.wire)).settle = (r.push line).settle.withPacket p := by
    rw [← push_push, ← Receiver.settle_push _ hpush,
      h.boundary.settle_wire (Receiver.inv_settle hpush)]
  refine ⟨h.tracks, h.inv, hsettle ▸ Receiver.atBoundary_withPacket _ p, ?_, h.taken⟩
  rw [hsettle, List.map_append, ← h.log]
  exact List.map_append

theorem sendAll (h : Delivers e line sent r) : ∀ packets : List Packet,
    Delivers e (line ++ wires packets) (sent ++ packets) r := by
  intro packets
  induction packets generalizing line sent with
  | nil => rwa [wires, List.flatMap_nil, List.append_nil, List.append_nil]
  | cons p rest ih =>
    have hrest := ih (h.send p)
    rwa [List.append_assoc, List.append_assoc, List.singleton_append, ← wires_cons] at hrest

/-- `read_data`, when some of the bytes have become available. -/
theorem read {input rest : List UInt8} (h : Delivers e (input ++ rest) sent r)
    (hroom : e.Room input.length) :
    ∃ r', Delivers { e with transport := (e.transport.readData input).1 }
      ((e.transport.readData input).2.1 ++ rest) sent r' := by
  obtain ⟨_, hread, _⟩ := readData_spec e.transport input
  have htracks := readData_tracks h.tracks h.inv input
  rw [Intake.Room, getSpace_eq h.tracks] at hroom
  rw [receive_of_min_le hroom] at htracks
  have hjoin : (r.push (input.take (min input.length e.transport.buffer.capacity))).push
      ((e.transport.readData input).2.1 ++ rest) = r.push (input ++ rest) := by
    rw [hread, push_push, ← List.append_assoc, List.take_append_drop]
  exact ⟨_, htracks, Receiver.inv_push _ h.inv, hjoin ▸ h.boundary, hjoin ▸ h.log, h.taken⟩

theorem process (h : Delivers e line sent r) (now : TimePoint) :
    Delivers (e.processData now) line sent r.settle := by
  refine ⟨processData_tracks h.tracks h.inv now, Receiver.inv_settle h.inv, ?_, ?_, ?_⟩
  · rw [Receiver.settle_push _ h.inv]
    exact h.boundary
  · rw [Receiver.settle_push _ h.inv]
    exact h.log
  · obtain ⟨more, hmore⟩ := log_settle h.inv
    rw [Receiver.settle_taken h.inv, ← hmore, List.map_append, List.take_append_of_le_length]
    · exact h.taken
    · rw [List.length_map]
      exact h.tracks.taken_le

theorem drop (h : Delivers e line sent r) (n : Nat) : Delivers (e.drop n) line sent (r.take n) := by
  have hsettle : ((r.take n).push line).settle =
      (r.push line).settle.withTaken (min (r.taken + n) r.log.length) :=
    Receiver.settle_withTaken (r := r.push line) _
  refine ⟨drop_tracks h.tracks n, inv_take h.inv n, hsettle ▸ ⟨h.boundary.found, h.boundary.front⟩,
    hsettle ▸ h.log, ?_⟩
  have hlen : (r.log.map Reception.frame).length = r.log.length := List.length_map _
  show (e.taken ++ e.transport.incomingQueue.take n).map TimestampedFrame.frame =
    (r.log.map Reception.frame).take (min (r.taken + n) r.log.length)
  rw [List.map_append, h.taken, List.map_take, map_queue h.tracks, ← List.take_add, ← hlen,
    ← List.take_eq_take_min]

theorem pop (h : Delivers e line sent r) : Delivers e.pop line sent (r.take 1) :=
  e.pop_eq_drop ▸ h.drop 1

/-- Once all bytes have been read and looked at, all has been delivered. -/
theorem frames_processed (h : Delivers e [] sent r) (now : TimePoint) :
    (e.processData now).frames = sent.map Packet.frame := by
  have hnil : r.push [] = r := by rw [Receiver.push, List.append_nil]
  rw [(h.process now).frames_eq, ← h.log, hnil]

end Delivers
end HaierProtocol
