import HaierProtocol.Protocol.Endpoint

/-!
# The line to an endpoint

An endpoint's transport level goes through a `History`, so what holds of histories holds of
what an endpoint receives.  `Line` is the invariant: behind the transport level there is a
receiver, and the records in `arrivals` are those of the frames in the incoming queue, which
are the last that were pushed.
-/

namespace HaierProtocol

open TransportLevelHandler

/-- What `process_data` adds to the queue. -/
theorem incomingQueue_processData {h : TransportLevelHandler} {r : Receiver} (ht : Tracks h 0 r)
    (hinv : r.Inv) (now : TimePoint) :
    (h.processData now).incomingQueue = h.incomingQueue ++ (h.pushes now).map Prod.fst := by
  have hqueue := (processData_tracks ht hinv now).queue
  rw [(fixed_processData h now).2, Receiver.queue, Receiver.settle_taken hinv] at hqueue
  have hpush := congrArg (List.map Prod.fst) (pushes_tracks ht hinv now)
  rw [List.map_append, List.map_map, List.map_map] at hpush
  have hlog : ∀ l : List Reception,
      l.map (Prod.fst ∘ Reception.observed h.frameStart r.stream.length) =
        l.map fun x => (⟨x.frame, h.frameStart⟩ : TimestampedFrame) :=
    fun l => List.map_congr_left fun _ _ => rfl
  rw [hlog, hlog] at hpush
  have htaken : r.taken ≤ (r.log.map fun x =>
      (⟨x.frame, h.frameStart⟩ : TimestampedFrame)).length := by
    rw [List.length_map]
    exact ht.taken_le
  rw [hqueue, hpush, List.drop_append_of_le_length htaken, ht.queue, Receiver.queue]

theorem incomingQueue_readData (h : TransportLevelHandler) (input : List UInt8) :
    (h.readData input).1.incomingQueue = h.incomingQueue := by
  obtain ⟨buffer, hread, _, _⟩ := readData_spec h input
  rw [hread]
  show (h.makeSpace _).incomingQueue = _
  rw [makeSpace]
  dsimp only
  split
  · split <;> rfl
  · rfl

namespace Arrival

/-- How the frame stands in the history. -/
def placed (a : Arrival) : TimestampedFrame × Nat := (a.frame, a.stop)

end Arrival

namespace Endpoint

def history (e : Endpoint) : History := ⟨e.handler.transport, e.input, e.received, e.pushed⟩

theorem history_receive (env : Surroundings) (e : Endpoint) :
    (e.receive env).history =
      (e.history.after .readData).after (.processData (env.clock e.ticks)) := rfl

structure Line (e : Endpoint) : Prop where
  matched : ∃ r, Matches e.history r
  queue : e.arrivals.map Arrival.frame = e.handler.transport.incomingQueue
  last : e.arrivals.map Arrival.placed <:+ e.pushed
  loop_le : ∀ a ∈ e.arrivals, a.loop ≤ e.loops

namespace Line

variable {e e' : Endpoint}

theorem start (cells : Nat → UInt8) (bufferSize : Nat) : Line (.start cells bufferSize) :=
  ⟨⟨_, Matches.start cells bufferSize⟩, rfl, List.suffix_refl _,
    fun _ h => absurd h List.not_mem_nil⟩

/-- What concerns neither the transport level nor its record. -/
theorem of_eq (h : Line e) (htransport : e'.handler.transport = e.handler.transport)
    (hinput : e'.input = e.input) (hreceived : e'.received = e.received)
    (hpushed : e'.pushed = e.pushed) (harrivals : e'.arrivals = e.arrivals)
    (hloops : e'.loops = e.loops) : Line e' := by
  have hhistory : e'.history = e.history := by
    rw [history, history, htransport, hinput, hreceived, hpushed]
  refine ⟨hhistory ▸ h.matched, ?_, ?_, ?_⟩
  · rw [harrivals, htransport]
    exact h.queue
  · rw [harrivals, hpushed]
    exact h.last
  · rw [harrivals, hloops]
    exact h.loop_le

theorem length_arrivals (h : Line e) :
    e.arrivals.length = e.handler.transport.incomingQueue.length := by
  rw [← h.queue, List.length_map]

theorem arrive (h : Line e) (bytes : List UInt8) : Line { e with input := e.input ++ bytes } := by
  obtain ⟨r, hr⟩ := h.matched
  exact ⟨⟨r, hr.tracks, hr.inv, hr.sound, hr.stream, hr.pushed⟩, h.queue, h.last, h.loop_le⟩

/-- The records that `receive` adds. -/
theorem receive_arrivals (env : Surroundings) (e : Endpoint) :
    ∃ new : List Arrival, (e.receive env).arrivals = e.arrivals ++ new ∧
      (e.receive env).pushed = e.pushed ++ new.map Arrival.placed ∧
      new.map Arrival.frame =
        ((e.handler.transport.readData e.input).1.pushes (env.clock e.ticks)).map Prod.fst ∧
      ∀ a ∈ new, a.loop = e.loops + 1 := by
  refine ⟨_, rfl, ?_, ?_, ?_⟩
  · rw [List.map_map]
    exact congrArg (e.pushed ++ ·) (List.map_id _).symm
  · rw [List.map_map, List.map_map]
    exact List.map_congr_left fun _ _ => rfl
  · intro a ha
    obtain ⟨x, _, rfl⟩ := List.mem_map.mp ha
    rfl

theorem receive (h : Line e) (env : Surroundings) : Line (e.receive env) := by
  obtain ⟨r, hr⟩ := h.matched
  obtain ⟨new, harrivals, hpushed, hframes, hloop⟩ := receive_arrivals env e
  have hread := hr.readData
  refine ⟨⟨_, history_receive env e ▸ hread.processData _⟩, ?_, ?_, ?_⟩
  · have hqueue := incomingQueue_processData hread.tracks hread.inv (env.clock e.ticks)
    rw [harrivals, List.map_append, h.queue, hframes, ← incomingQueue_readData _ e.input]
    exact hqueue.symm
  · rw [harrivals, hpushed, List.map_append]
    obtain ⟨before, hbefore⟩ := h.last
    exact ⟨before, by rw [← hbefore, List.append_assoc]⟩
  · intro a ha
    rw [harrivals] at ha
    rcases List.mem_append.mp ha with hold | hnew
    · exact Nat.le_succ_of_le (h.loop_le a hold)
    · exact Nat.le_of_eq (hloop a hnew)

theorem dropFrames (h : Line e) (framesCount : Nat) : Line (e.dropFrames framesCount) := by
  obtain ⟨r, hr⟩ := h.matched
  refine ⟨⟨_, hr.drop framesCount⟩, ?_, ?_, fun a ha => h.loop_le a (List.mem_of_mem_drop ha)⟩
  · show (e.arrivals.drop framesCount).map Arrival.frame =
      (e.handler.transport.drop framesCount).incomingQueue
    rw [List.map_drop, h.queue, TransportLevelHandler.drop]
    split
    · rfl
    · rw [List.drop_length, List.drop_eq_nil_iff]
      omega
  · show (e.arrivals.drop framesCount).map Arrival.placed <:+ e.pushed
    rw [List.map_drop]
    exact (List.drop_suffix _ _).trans h.last

/-- The frame that is popped and its record. -/
theorem popFrame_eq (h : Line e) {a : Arrival} {rest : List Arrival}
    (harrivals : e.arrivals = a :: rest) : e.popFrame = (e.dropFrames 1, a) := by
  have hqueue := h.queue
  rw [harrivals, List.map_cons] at hqueue
  have hpop : e.handler.transport.pop =
      (e.handler.transport.drop 1, some a.frame) := by
    rw [← pop_eq_drop, TransportLevelHandler.pop, ← hqueue]
  rw [popFrame, hpop, harrivals, Endpoint.dropFrames, harrivals]
  rfl

end Line

/-- The endpoint with another transport level and these frames in the queue. -/
def withFrames (e : Endpoint) (transport : TransportLevelHandler) (arrivals : List Arrival) :
    Endpoint :=
  { e with handler := { e.handler with transport }, arrivals }

namespace Line

variable {e : Endpoint}

theorem popFrame_cons (h : Line e) {a : Arrival} {rest : List Arrival}
    (harrivals : e.arrivals = a :: rest) :
    ∃ transport, e.popFrame = (e.withFrames transport rest, a) ∧
      Line (e.withFrames transport rest) := by
  have hrest : e.dropFrames 1 = e.withFrames (e.handler.transport.drop 1) rest := by
    rw [Endpoint.dropFrames, withFrames, harrivals, List.drop_one, List.tail_cons]
  exact ⟨_, hrest ▸ h.popFrame_eq harrivals, hrest ▸ h.dropFrames 1⟩

/-- Of the frames in the queue the message handler sees the last, and none stays. -/
theorem handleIncoming_cases (h : Line e) (env : Surroundings) (reply : Reply) :
    e.arrivals = [] ∧ e.handleIncoming env reply = e ∨
      ∃ before a transport, e.arrivals = before ++ [a] ∧ Line (e.withFrames transport []) ∧
        e.handleIncoming env reply = (e.withFrames transport []).processMessage env reply a := by
  have hlength := h.length_arrivals
  rcases List.eq_nil_or_concat e.arrivals with hnil | ⟨before, a, hlast⟩
  · refine .inl ⟨hnil, ?_⟩
    rw [hnil, List.length_nil] at hlength
    rw [handleIncoming, ← hlength]
    rfl
  · rw [List.concat_eq_append] at hlast
    rw [hlast, List.length_append, List.length_singleton] at hlength
    -- Whether or not frames are dropped, one is left.
    have hdrop : (if e.handler.transport.incomingQueue.length > 1 then
        e.dropFrames (e.handler.transport.incomingQueue.length - 1) else e) =
          e.dropFrames before.length := by
      rw [← hlength, Nat.add_sub_cancel]
      split
      · rfl
      · have hzero : before.length = 0 := by omega
        have hpos : 0 < e.handler.transport.incomingQueue.length := by omega
        rw [hzero, Endpoint.dropFrames, List.drop_zero, TransportLevelHandler.drop, if_pos hpos]
        rfl
    have hone : (e.dropFrames before.length).arrivals = [a] := by
      show e.arrivals.drop before.length = [a]
      rw [hlast, List.drop_left]
    obtain ⟨transport, hpop, hline⟩ := (h.dropFrames before.length).popFrame_cons hone
    refine .inr ⟨before, a, transport, hlast, hline, ?_⟩
    rw [handleIncoming]
    simp only [hdrop, hpop]
    rw [if_pos (by omega)]
    rfl

end Line
end Endpoint
end HaierProtocol
