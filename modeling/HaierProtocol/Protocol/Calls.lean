import HaierProtocol.Protocol.Line

/-!
# What calls do

A call either queues an item, or sends an answer from a message handler, or sets something
that the loop only reads.  `Undisturbed` is what all of them leave alone, and `call_cases` is
the distinction.
-/

namespace HaierProtocol

open ProtocolHandler

namespace Endpoint

/-- What nothing changes but receiving and the taking of frames. -/
structure SameLine (e e' : Endpoint) : Prop where
  transport : e'.handler.transport = e.handler.transport
  processing : e'.handler.processingMessage = e.handler.processingMessage
  input : e'.input = e.input
  received : e'.received = e.received
  pushed : e'.pushed = e.pushed
  arrivals : e'.arrivals = e.arrivals
  current : e'.current = e.current
  loops : e'.loops = e.loops

/-- What no call changes. -/
structure Undisturbed (e e' : Endpoint) : Prop extends SameLine e e' where
  state : e'.handler.state = e.handler.state
  lastMessageType : e'.handler.lastMessageType = e.handler.lastMessageType
  answerTimePoint : e'.handler.answerTimePoint = e.handler.answerTimePoint
  retryTimePoint : e'.handler.retryTimePoint = e.handler.retryTimePoint

variable {e e' e'' : Endpoint}

theorem SameLine.refl (e : Endpoint) : SameLine e e := ⟨rfl, rfl, rfl, rfl, rfl, rfl, rfl, rfl⟩

theorem SameLine.trans (h : SameLine e e') (h' : SameLine e' e'') : SameLine e e'' :=
  ⟨h'.transport.trans h.transport, h'.processing.trans h.processing, h'.input.trans h.input,
    h'.received.trans h.received, h'.pushed.trans h.pushed, h'.arrivals.trans h.arrivals,
    h'.current.trans h.current, h'.loops.trans h.loops⟩

theorem SameLine.line (h : SameLine e e') (hline : Line e) : Line e' :=
  hline.of_eq h.transport h.input h.received h.pushed h.arrivals h.loops

theorem SameLine.access (e : Endpoint) (id : Nat) : SameLine e (e.access id) :=
  ⟨rfl, rfl, rfl, rfl, rfl, rfl, rfl, rfl⟩

theorem SameLine.setRetryTimePoint (h : SameLine e e') (now : TimePoint) :
    SameLine e (e'.setRetryTimePoint now) :=
  ⟨h.transport, h.processing, h.input, h.received, h.pushed, h.arrivals, h.current, h.loops⟩

theorem SameLine.setState (h : SameLine e e') (state : ProtocolState) :
    SameLine e (e'.setState state) :=
  ⟨h.transport, h.processing, h.input, h.received, h.pushed, h.arrivals, h.current, h.loops⟩

theorem SameLine.popOutgoing (h : SameLine e e') : SameLine e e'.popOutgoing := by
  rw [Endpoint.popOutgoing]
  split <;>
    exact ⟨h.transport, h.processing, h.input, h.received, h.pushed, h.arrivals, h.current, h.loops⟩

theorem Undisturbed.refl (e : Endpoint) : Undisturbed e e := ⟨.refl e, rfl, rfl, rfl, rfl⟩

theorem Undisturbed.trans (h : Undisturbed e e') (h' : Undisturbed e' e'') : Undisturbed e e'' :=
  ⟨h.toSameLine.trans h'.toSameLine, h'.state.trans h.state,
    h'.lastMessageType.trans h.lastMessageType, h'.answerTimePoint.trans h.answerTimePoint,
    h'.retryTimePoint.trans h.retryTimePoint⟩

/-! ## Writing -/

/-- The record of a write. -/
def writeOf (env : Surroundings) (e : Endpoint) (origin : Origin) (message : HaierMessage)
    (useCrc : Bool) : Write where
  origin := origin
  message := message
  useCrc := useCrc
  bytes := bytesFor (env.frameBlock e.ticks) message useCrc
  isSuccess := countsAsSent message useCrc
  loop := e.loops
  now := env.clock e.ticks

/-- The endpoint when the write is done. -/
def wrote (e : Endpoint) (w : Write) : Endpoint :=
  { e with
    handler := { e.handler with
      cooldownTimePoint := addMilliseconds w.now e.handler.cooldownInterval }
    output := e.output ++ w.bytes.getD []
    ticks := e.ticks + 1 }.emit (.wrote w)

theorem write_eq (env : Surroundings) (e : Endpoint) (origin : Origin) (message : HaierMessage)
    (useCrc : Bool) :
    e.write env origin message useCrc =
      (e.wrote (e.writeOf env origin message useCrc), countsAsSent message useCrc) := by
  rw [write, writeMessage_eq]
  rfl

theorem sendAnswer_eq (env : Surroundings) (e : Endpoint) (answer : HaierMessage) (useCrc : Bool)
    (h : e.handler.processingMessage = true) :
    e.sendAnswer env answer useCrc =
      (let e' := e.wrote (e.writeOf env (.answer e.current) answer useCrc)
       { e' with handler :=
          { e'.handler with answerSent := countsAsSent answer useCrc } }) := by
  rw [sendAnswer, if_pos h, write_eq]

theorem popOutgoing_cons (msg : OutgoingQueueItem) (rest : List OutgoingQueueItem) {e : Endpoint}
    (h : e.handler.outgoingMessages = msg :: rest) :
    e.popOutgoing =
      { e with handler := { e.handler with outgoingMessages := rest } }.emit (.removed msg.id) := by
  rw [popOutgoing, h]

theorem state_popOutgoing (e : Endpoint) : e.popOutgoing.handler.state = e.handler.state := by
  rw [popOutgoing]
  split <;> rfl

/-- Writing the head of the queue leaves the incoming side alone. -/
theorem sendHead_sameLine (env : Surroundings) (e : Endpoint) (msg : OutgoingQueueItem)
    (now : TimePoint) : SameLine e (e.sendHead env msg now) := by
  have hlast : ∀ e' : Endpoint, SameLine e e' → SameLine e
      { e'.access msg.id with handler := (e'.access msg.id).handler.decrementRetries msg.id } :=
    fun _ h => ⟨h.transport, h.processing, h.input, h.received, h.pushed, h.arrivals, h.current,
      h.loops⟩
  rw [sendHead, write_eq]
  dsimp only
  apply hlast
  split
  · split
    · apply SameLine.setRetryTimePoint
      apply SameLine.popOutgoing
      exact ⟨rfl, rfl, rfl, rfl, rfl, rfl, rfl, rfl⟩
    · exact ⟨rfl, rfl, rfl, rfl, rfl, rfl, rfl, rfl⟩
  · exact ⟨rfl, rfl, rfl, rfl, rfl, rfl, rfl, rfl⟩

theorem sendNext_sameLine (env : Surroundings) (e : Endpoint) (now : TimePoint) :
    SameLine e (e.sendNext env now) := by
  rw [sendNext]
  split
  · exact .refl e
  · rename_i msg rest _
    split
    · dsimp only
      split
      · exact (SameLine.access e msg.id).trans (sendHead_sameLine env _ msg now)
      · exact (SameLine.access e msg.id).popOutgoing.setRetryTimePoint now
    · exact .refl e

/-! ## The distinction -/

/-- What a call can do. -/
inductive Called (env : Surroundings) (e : Endpoint) :
    Endpoint → Prop where
  | queued (item : OutgoingQueueItem) (hid : item.id = e.nextId)
      (hretries : 1 ≤ item.numberOfRetries ∧ item.numberOfRetries ≤ 10) :
      Called env e (e.enqueue item)
  | answered (answer : HaierMessage) (useCrc : Bool)
      (hprocessing : e.handler.processingMessage = true) :
      Called env e (e.sendAnswer env answer useCrc)
  | set (handler : ProtocolHandler)
      (hqueue : handler.outgoingMessages = e.handler.outgoingMessages)
      (hrest : Undisturbed e { e with handler }) : Called env e { e with handler }

theorem request_retries (id : Nat) (message : HaierMessage) (useCrc : Bool) (numRepeats : UInt8)
    (interval : Int) :
    let item := OutgoingQueueItem.request id message useCrc numRepeats interval
    1 ≤ item.numberOfRetries ∧ item.numberOfRetries ≤ 10 := by
  have hle : (min numRepeats maxPacketRetries).toNat ≤ 9 := by
    rw [show min numRepeats maxPacketRetries =
      if numRepeats ≤ maxPacketRetries then numRepeats else maxPacketRetries from rfl]
    split
    · rename_i h
      exact UInt8.le_iff_toNat_le.mp h
    · exact Nat.le_refl 9
  show 1 ≤ ((min numRepeats maxPacketRetries).toNat : Int) + 1 ∧
    ((min numRepeats maxPacketRetries).toNat : Int) + 1 ≤ 10
  omega

theorem call_cases (env : Surroundings) (e : Endpoint) (c : ApiCall) :
    Called env e (e.call env c) := by
  have hset : ∀ handler : ProtocolHandler,
      handler.outgoingMessages = e.handler.outgoingMessages →
      Undisturbed e { e with handler } → Called env e { e with handler } := fun h => .set h
  cases c with
  | sendMessage message useCrc numRepeats interval =>
    exact .queued _ rfl (request_retries _ message useCrc numRepeats interval)
  | sendMessageWithoutAnswer message useCrc =>
    refine .queued _ rfl ⟨Int.le_refl 1, ?_⟩
    show (1 : Int) ≤ 10
    omega
  | sendAnswer answer useCrc =>
    by_cases h : e.handler.processingMessage = true
    · exact .answered answer _ h
    · rw [call, sendAnswer, if_neg h]
      exact hset e.handler rfl (.refl e)
  | noAnswer =>
    refine hset e.handler.noAnswer ?_ ?_
    · rw [ProtocolHandler.noAnswer]
      split <;> rfl
    · rw [ProtocolHandler.noAnswer]
      split <;> exact ⟨⟨rfl, rfl, rfl, rfl, rfl, rfl, rfl, rfl⟩, rfl, rfl, rfl, rfl⟩
  | _ => exact hset _ rfl ⟨⟨rfl, rfl, rfl, rfl, rfl, rfl, rfl, rfl⟩, rfl, rfl, rfl, rfl⟩

theorem Called.undisturbed {env : Surroundings} {e e' : Endpoint} (h : Called env e e') :
    Undisturbed e e' := by
  cases h with
  | queued item => exact ⟨⟨rfl, rfl, rfl, rfl, rfl, rfl, rfl, rfl⟩, rfl, rfl, rfl, rfl⟩
  | answered answer useCrc hprocessing =>
    rw [sendAnswer_eq env e answer useCrc hprocessing]
    exact ⟨⟨rfl, rfl, rfl, rfl, rfl, rfl, rfl, rfl⟩, rfl, rfl, rfl, rfl⟩
  | set handler hqueue hrest => exact hrest

/-- What holds before some calls and is kept by each holds after them. -/
theorem calls_induction {motive : Endpoint → Prop} (env : Surroundings)
    (hstep : ∀ e e', motive e → Called env e e' → motive e') :
    ∀ (apiCalls : List ApiCall) {e : Endpoint}, motive e → motive (e.calls env apiCalls)
  | [], _, h => h
  | c :: rest, e, h => calls_induction env hstep rest (hstep e _ h (call_cases env e c))

theorem calls_undisturbed (env : Surroundings) (e : Endpoint) (apiCalls : List ApiCall) :
    Undisturbed e (e.calls env apiCalls) := by
  exact calls_induction env (fun _ _ h hc => h.trans hc.undisturbed) apiCalls (.refl e)

theorem invoke_undisturbed (env : Surroundings) (reply : Reply) (e : Endpoint)
    (invocation : Invocation) : Undisturbed e (e.invoke env reply invocation) :=
  have hemit : Undisturbed e (e.emit (.invoked invocation)) :=
    ⟨⟨rfl, rfl, rfl, rfl, rfl, rfl, rfl, rfl⟩, rfl, rfl, rfl, rfl⟩
  hemit.trans (calls_undisturbed env _ _)

end Endpoint
end HaierProtocol
