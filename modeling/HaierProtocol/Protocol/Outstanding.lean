import HaierProtocol.Protocol.Ledger

/-!
# The outstanding request

While an answer is awaited the head of the queue is the request that was written last, and
nothing is written.  A frame handed to an answer handler came in later than the request was
written, because the queue of frames is empty whenever the idle state has been left.
-/

namespace HaierProtocol

open ProtocolHandler

namespace Endpoint

/-- The head of the queue is a request that has gone out, and its answer is awaited. -/
structure Awaits (e : Endpoint) (msg : OutgoingQueueItem) (w : Write) : Prop where
  head : e.handler.outgoingMessages.head? = some msg
  kind : msg.noAnswer = false
  last : (writes e.trace).getLast? = some w
  origin : w.origin = .request msg.id
  message : w.message = msg.message
  sent : ∃ bytes, w.bytes = some bytes ∧ bytes <:+ e.output
  type : msg.message.frameType = e.handler.lastMessageType
  retries : 0 ≤ msg.numberOfRetries ∧ msg.numberOfRetries ≤ 9
  later : ∀ a ∈ e.arrivals, w.loop < a.loop

/-! ## Silence -/

variable {e : Endpoint}

/-- Without a frame to process, calls write nothing. -/
theorem writes_calls (env : Surroundings) (hprocessing : e.handler.processingMessage = false)
    (apiCalls : List ApiCall) : writes (e.calls env apiCalls).trace = writes e.trace := by
  have hall := calls_induction env
    (motive := fun e' => e'.handler.processingMessage = false ∧ writes e'.trace = writes e.trace)
    ?_ apiCalls ⟨hprocessing, rfl⟩
  · exact hall.2
  · rintro e₁ e₂ ⟨hfalse, hwrites⟩ hcalled
    refine ⟨hcalled.undisturbed.processing.trans hfalse, ?_⟩
    cases hcalled with
    | queued item => exact (writes_snoc_none _ rfl).trans hwrites
    | answered answer useCrc htrue => exact absurd (hfalse.symm.trans htrue) Bool.false_ne_true
    | set handler => exact hwrites

theorem writes_invoke (env : Surroundings) (reply : Reply)
    (hprocessing : e.handler.processingMessage = false) (invocation : Invocation) :
    writes (e.invoke env reply invocation).trace = writes e.trace :=
  (writes_calls env (e := e.emit (.invoked invocation)) hprocessing _).trans
    (writes_snoc_none _ rfl)

theorem writes_popOutgoing (e : Endpoint) : writes e.popOutgoing.trace = writes e.trace := by
  rw [popOutgoing]
  split <;> exact writes_snoc_none _ rfl

theorem writes_answerTimeout (env : Surroundings) (reply : Reply)
    (hprocessing : e.handler.processingMessage = false) (now : TimePoint) :
    writes (e.answerTimeout env reply now).trace = writes e.trace := by
  have hstate : ∀ e' : Endpoint, writes (e'.setState .idle).trace = writes e'.trace :=
    fun _ => writes_snoc_none _ rfl
  rw [answerTimeout]
  split
  · exact writes_snoc_none _ rfl
  · rename_i msg _ _
    have haccess : writes (e.access msg.id).trace = writes e.trace := writes_snoc_none _ rfl
    dsimp only
    rw [hstate]
    split
    · have hsame := ((SameLine.access e msg.id).popOutgoing).setRetryTimePoint now
      rw [writes_invoke env reply (hsame.processing.trans hprocessing)]
      exact (writes_popOutgoing _).trans haccess
    · exact haccess

theorem writes_answerReceived (env : Surroundings) (reply : Reply)
    (hprocessing : e.handler.processingMessage = false) (now : TimePoint) :
    writes (e.answerReceived env reply now).trace = writes e.trace := by
  rw [answerReceived]
  have hlast : ∀ e' : Endpoint,
      writes ((e'.popOutgoing.setRetryTimePoint now).setState .idle).trace = writes e'.trace :=
    fun e' => (writes_snoc_none _ rfl).trans (writes_popOutgoing e')
  have hpop : e.popFrame.1.handler.processingMessage = false := hprocessing
  rw [hlast, writes_invoke env reply hpop]
  rfl

/-- While an answer is awaited nothing is written. -/
theorem writes_step (env : Surroundings) (hprocessing : e.handler.processingMessage = false)
    (hstate : e.handler.state = .waitingForAnswer) (s : Step) :
    writes (e.step env s).trace = writes e.trace := by
  cases s with
  | arrive bytes => rfl
  | call c => exact writes_calls env hprocessing [c]
  | loop reply =>
    have hlook : writes ((e.receive env).look env).trace = writes e.trace := writes_snoc_none _ rfl
    have hfalse : ((e.receive env).look env).handler.processingMessage = false := hprocessing
    have hwaiting : ((e.receive env).look env).handler.state = .waitingForAnswer := hstate
    show writes (((e.receive env).look env).turn env reply _).trace = writes e.trace
    rw [turn, hwaiting]
    dsimp only
    split
    · exact (writes_answerTimeout env reply hfalse _).trans hlook
    · split
      · exact (writes_answerReceived env reply hfalse _).trans hlook
      · exact hlook

end Endpoint

/-! ## The result -/

open Endpoint

theorem phase_idle {e : Endpoint} {d : Desk}
    (h : Service.Serves e d) (hidle : e.handler.state = .idle) : d.phase = .idle := by
  have hphase := h.phase
  cases hd : d.phase with
  | idle => rfl
  | waiting w =>
    rw [hd] at hphase
    exact absurd (hidle.symm.trans hphase.1) ProtocolState.noConfusion
  | _ =>
    rw [hd] at hphase
    exact hphase.elim

theorem phase_waiting {e : Endpoint} {d : Desk} (h : Service.Serves e d)
    (hwaiting : e.handler.state = .waitingForAnswer) : ∃ w, d.phase = .waiting w := by
  have hphase := h.phase
  cases hd : d.phase with
  | idle =>
    rw [hd] at hphase
    exact absurd (hwaiting.symm.trans hphase) ProtocolState.noConfusion
  | waiting w => exact ⟨w, rfl⟩
  | _ =>
    rw [hd] at hphase
    exact hphase.elim

/-- From the idle state the queue of frames is emptied. -/
theorem incomingQueue_loop {e : Endpoint} {d : Desk}
    (h : Service.Serves e d) (hidle : e.handler.state = .idle) (env : Surroundings)
    (reply : Reply) :
    (e.loop env reply).handler.transport.incomingQueue = [] := by
  have hlook := (h.receive env).look env
  obtain ⟨d₁, h₁, _, harrivals⟩ := hlook.handleIncoming env reply (phase_idle h hidle)
  have hsame := sendNext_sameLine env (((e.receive env).look env).handleIncoming env reply)
    (env.clock (e.receive env).ticks)
  have hloop : e.loop env reply = (((e.receive env).look env).handleIncoming env reply).sendNext env
      (env.clock (e.receive env).ticks) := by
    have hstate : ((e.receive env).look env).handler.state = .idle := hidle
    rw [loop, turn, hstate]
  rw [hloop, ← List.length_eq_zero_iff, ← (hsame.line h₁.line).length_arrivals, hsame.arrivals,
    harrivals, List.length_nil]

/-- The bytes of the last write end the output. -/
theorem sent_suffix {e : Endpoint} (h : Ledger e) {w : Write}
    (hlast : (writes e.trace).getLast? = some w) : w.sent <:+ e.output := by
  obtain ⟨before, hbefore⟩ := List.getLast?_eq_some_iff.mp hlast
  rw [h.output, hbefore, List.flatMap_append, List.flatMap_singleton]
  exact List.suffix_append _ _

theorem awaits_of_serves {e : Endpoint} {d : Desk}
    (h : Service.Serves e d) (hledger : Ledger e)
    (hstate : e.handler.state = .waitingForAnswer) : ∃ msg w, Awaits e msg w := by
  obtain ⟨queue, n, phase⟩ := d
  have hphase := h.phase
  cases phase with
  | idle => exact absurd (hstate.symm.trans hphase) ProtocolState.noConfusion
  | waiting w =>
    obtain ⟨msg, rest, hqueue, hout, hkind⟩ := h.engaged
    obtain ⟨_, htype, _, hlater⟩ := hphase
    obtain rfl : queue = msg :: rest := hqueue
    have hmem : w ∈ writes e.trace := List.mem_of_getLast? hout.last
    obtain ⟨block, hbytes, _⟩ := hledger.bytes w hmem
    have hsent : countsAsSent w.message w.useCrc = true := by
      rw [hout.transmits.message, hout.transmits.useCrc, ← hout.transmits.isSuccess, hout.isSuccess]
    obtain ⟨bytes, hsome⟩ := Option.isSome_iff_exists.mp (isSome_of_countsAsSent hsent block)
    refine ⟨msg, w, ?_, hkind, hout.last, hout.transmits.origin, hout.transmits.message, ?_, ?_,
      ⟨(h.order.retries msg List.mem_cons_self).1, hout.retries_le⟩, hlater⟩
    · rw [h.queue]
      rfl
    · have hsuffix := sent_suffix hledger hout.last
      rw [Write.sent, hbytes, hsome] at hsuffix
      exact ⟨bytes, hbytes.trans hsome, hsuffix⟩
    · rw [htype, hout.transmits.message]
  | _ => exact hphase.elim

/-- An answer handler is called for the request that was written last, with a frame that came
in later. -/
theorem answered_later {trace before after : List Event} {d : Desk}
    (h : Replay.Replays Desk.Step Desk.start trace d) {handler : HandlerRef}
    {requestType : FrameType} {request : Option Nat} {arrival : Arrival}
    (htrace : trace = before ++ .invoked (.answer handler requestType request arrival) :: after) :
    ∃ w id, request = some id ∧ (writes before).getLast? = some w ∧ w.origin = .request id ∧
      w.message.frameType = requestType ∧ w.loop < arrival.loop := by
  subst htrace
  obtain ⟨d₁, d₂, hbefore, hstep, _⟩ := Replay.replays_split h
  have hengaged := (Desk.order_of_replays hbefore).2
  cases hstep with
  | answered _ hlater =>
    obtain ⟨msg', rest', hqueue, hout, _⟩ := hengaged
    cases hqueue
    exact ⟨_, _, rfl, hout.last, hout.transmits.origin, by rw [hout.transmits.message], hlater⟩

theorem not_emptyQueue {trace : List Event} {d : Desk}
    (h : Replay.Replays Desk.Step Desk.start trace d) : .emptyQueue ∉ trace := by
  intro hmem
  obtain ⟨before, after, rfl⟩ := List.append_of_mem hmem
  obtain ⟨_, _, _, hstep, _⟩ := Replay.replays_split h
  cases hstep

/-- In every reachable state: the answer that is awaited is that of the head of the queue, which
has been written last, and no step writes anything then.  Every frame that an answer handler
was given came in after the request was written, since the queue of frames is empty when the
idle state is left.  Nothing is ever taken from an empty queue of messages. -/
theorem run_awaits (cells : Nat → UInt8) (bufferSize : Nat) (env : Surroundings)
    (steps : List Step) :
    let e := (Endpoint.start cells bufferSize).run env steps
    (e.handler.state = .waitingForAnswer → (∃ msg w, Awaits e msg w) ∧
      ∀ s, writes (e.step env s).trace = writes e.trace) ∧
    (∀ before after handler requestType request arrival,
      e.trace = before ++ .invoked (.answer handler requestType request arrival) :: after →
        ∃ w id, request = some id ∧ (writes before).getLast? = some w ∧ w.origin = .request id ∧
          w.message.frameType = requestType ∧ w.loop < arrival.loop) ∧
    (e.handler.state = .idle → ∀ reply,
      (e.loop env reply).handler.transport.incomingQueue = []) ∧
    .emptyQueue ∉ e.trace := by
  intro e
  obtain ⟨d, h⟩ := Service.serves_run cells bufferSize env steps
  have hledger := ledger_run cells bufferSize env steps
  refine ⟨fun hstate => ⟨awaits_of_serves h hledger hstate, writes_step env h.processing hstate⟩,
    ?_, fun hidle reply => incomingQueue_loop h hidle env reply,
    not_emptyQueue h.replays⟩
  intro before after handler requestType request arrival htrace
  exact answered_later h.replays htrace

end HaierProtocol
