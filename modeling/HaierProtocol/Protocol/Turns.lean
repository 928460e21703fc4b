import HaierProtocol.Protocol.Listening
import HaierProtocol.Protocol.Service

/-!
# Turns of a conversation

What one call of `loop` does to an endpoint that only answers, and to one that only asks, while
packets come in one at a time.  The one that answers handles a packet once it is complete
(`serve_packet`).  The one that asks writes the head of its queue (`loop_ask`), waits
(`loop_wait`), and hands the answer over (`loop_answer`).
-/

namespace HaierProtocol

open ProtocolHandler

/-! ## What the record says -/

def Event.item? : Event → Option OutgoingQueueItem
  | .queued item => some item
  | _ => none

def Event.heard? : Event → Option HaierFrame
  | .invoked (.message _ arrival) => some arrival.frame.frame
  | _ => none

def Event.answered? : Event → Option (Nat × HaierFrame)
  | .invoked (.answer _ _ (some id) arrival) => some (id, arrival.frame.frame)
  | _ => none

/-- What was queued, in order. -/
def requestsOf (trace : List Event) : List OutgoingQueueItem := trace.filterMap Event.item?

/-- The frames that message handlers were given. -/
def heardOf (trace : List Event) : List HaierFrame := trace.filterMap Event.heard?

/-- The frames that answer handlers were given, each with the request. -/
def answersOf (trace : List Event) : List (Nat × HaierFrame) := trace.filterMap Event.answered?

theorem requestsOf_append (trace more : List Event) :
    requestsOf (trace ++ more) = requestsOf trace ++ requestsOf more := List.filterMap_append ..

theorem heardOf_append (trace more : List Event) :
    heardOf (trace ++ more) = heardOf trace ++ heardOf more := List.filterMap_append ..

theorem answersOf_append (trace more : List Event) :
    answersOf (trace ++ more) = answersOf trace ++ answersOf more := List.filterMap_append ..

theorem requestsOf_queued (items : List OutgoingQueueItem) :
    requestsOf (items.map .queued) = items := by
  rw [requestsOf, List.filterMap_map]
  exact List.filterMap_some

theorem answersOf_queued (items : List OutgoingQueueItem) : answersOf (items.map .queued) = [] := by
  rw [answersOf, List.filterMap_map]
  exact List.filterMap_eq_nil_iff.mpr fun _ _ => rfl

/-! ## Packets -/

theorem HaierMessage.packet_of_le {message : HaierMessage} (h : message.payload.length ≤ 233)
    (useCrc : Bool) :
    ∃ p, message.packet useCrc = some p ∧ p.wire.length ≤ 2 * message.payload.length + 24 := by
  rw [packet, dif_pos h]
  exact ⟨_, rfl, Packet.length_wire_le _⟩

namespace ProtocolHandler

variable {message : HaierMessage} {useCrc : Bool} {p : Packet}

theorem bytesFor_eq (hpacket : message.packet useCrc = some p) (hlength : p.wire.length ≤ 256)
    (frameBlock : Nat → UInt8) : bytesFor frameBlock message useCrc = some p.wire := by
  have hlen : ((List.range p.wire.length).map frameBlock).length = p.wire.length := by
    rw [List.length_map, List.length_range]
  rw [bytesFor, hpacket, Option.map_some, HaierFrame.putBytes_whole hlength hlen.ge,
    List.drop_of_length_le hlen.le, List.append_nil]

theorem countsAsSent_eq (hpacket : message.packet useCrc = some p)
    (hlength : p.wire.length ≤ 255) : countsAsSent message useCrc = true := by
  have hle := p.le_length_wire
  rw [countsAsSent, hpacket]
  dsimp only
  rw [bne_iff_ne, Nat.mod_eq_of_lt (Nat.lt_succ_of_le hlength)]
  omega

end ProtocolHandler

/-! ## Calls that ask -/

/-- The call may queue a request with `Q`, and no notice. -/
def ApiCall.Asks (Q : HaierMessage → Bool → Prop) : ApiCall → Prop
  | .sendMessage message useCrc _ _ => Q message useCrc
  | .sendMessageWithoutAnswer _ _ => False
  | _ => True

/-- A request with `Q` that may be written. -/
structure OutgoingQueueItem.Asks (Q : HaierMessage → Bool → Prop) (item : OutgoingQueueItem) :
    Prop where
  holds : Q item.message item.useCrc
  kind : item.noAnswer = false
  retries : 0 < item.numberOfRetries

namespace Endpoint

/-- Some requests have been queued, and nothing else has changed that the loop writes. -/
structure Queues (Q : HaierMessage → Bool → Prop) (e e' : Endpoint)
    (items : List OutgoingQueueItem) : Prop where
  same : Undisturbed e e'
  asks : ∀ item ∈ items, item.Asks Q
  trace : e'.trace = e.trace ++ items.map .queued
  queue : e'.handler.outgoingMessages = e.handler.outgoingMessages ++ items
  output : e'.output = e.output

variable {Q : HaierMessage → Bool → Prop} {env : Surroundings} {reply : Reply}
  {e e' e'' : Endpoint}

namespace Queues

theorem nil (hsame : Undisturbed e e') (htrace : e'.trace = e.trace)
    (hqueue : e'.handler.outgoingMessages = e.handler.outgoingMessages)
    (houtput : e'.output = e.output) : Queues Q e e' [] :=
  ⟨hsame, fun _ h => absurd h List.not_mem_nil, by rw [htrace, List.map_nil, List.append_nil],
    by rw [hqueue, List.append_nil], houtput⟩

theorem append {items more : List OutgoingQueueItem} (h : Queues Q e e' items)
    (h' : Queues Q e' e'' more) : Queues Q e e'' (items ++ more) := by
  refine ⟨h.same.trans h'.same, ?_, ?_, ?_, h'.output.trans h.output⟩
  · intro item hitem
    rcases List.mem_append.mp hitem with hitem | hitem
    · exact h.asks item hitem
    · exact h'.asks item hitem
  · rw [h'.trace, h.trace, List.map_append, List.append_assoc]
  · rw [h'.queue, h.queue, List.append_assoc]

theorem call (env : Surroundings) (hprocessing : e.handler.processingMessage = false) {c : ApiCall}
    (hc : c.Asks Q) :
    ∃ items, Queues Q e (e.call env c) items := by
  cases c with
  | sendMessage message useCrc numRepeats interval =>
    have hretries := request_retries e.nextId message useCrc numRepeats interval
    refine ⟨[.request e.nextId message useCrc numRepeats interval],
      (call_cases env e _).undisturbed, ?_, rfl, rfl, rfl⟩
    intro item hitem
    rw [List.mem_singleton.mp hitem]
    exact ⟨hc, rfl, Int.lt_of_lt_of_le Int.zero_lt_one hretries.1⟩
  | sendMessageWithoutAnswer => exact hc.elim
  | sendAnswer answer useCrc =>
    have hfalse : ¬e.handler.processingMessage = true := by rw [hprocessing]; decide
    rw [Endpoint.call, sendAnswer, if_neg hfalse]
    exact ⟨[], nil (.refl e) rfl rfl rfl⟩
  | noAnswer =>
    have hsame := (call_cases env e .noAnswer).undisturbed
    refine ⟨[], nil hsame rfl ?_ rfl⟩
    show e.handler.noAnswer.outgoingMessages = _
    rw [ProtocolHandler.noAnswer]
    split <;> rfl
  | _ => exact ⟨[], nil (call_cases env e _).undisturbed rfl rfl rfl⟩

theorem calls (env : Surroundings) : ∀ (apiCalls : List ApiCall) {e : Endpoint},
    e.handler.processingMessage = false → (∀ c ∈ apiCalls, c.Asks Q) →
      ∃ items, Queues Q e (e.calls env apiCalls) items
  | [], e, _, _ => ⟨[], nil (.refl e) rfl rfl rfl⟩
  | c :: rest, e, hprocessing, hall => by
    obtain ⟨items, h⟩ := call env hprocessing (hall c List.mem_cons_self)
    obtain ⟨more, h'⟩ := calls env rest (h.same.processing.trans hprocessing)
      fun c hc => hall c (List.mem_cons_of_mem _ hc)
    exact ⟨items ++ more, h.append h'⟩

end Queues

/-! ## Turns of the side that answers -/

section Serving

variable {d : Desk} {capacity : Nat} {r : Receiver} {p q : Packet} {line : List UInt8}

/-- The tables for messages are as they were. -/
structure SameTables (e e' : Endpoint) : Prop where
  map : e'.handler.messageHandlersMap = e.handler.messageHandlersMap
  default : e'.handler.defaultMessageHandler = e.handler.defaultMessageHandler

/-- With nothing to handle and nothing to write, `loop` only receives. -/
theorem loop_quiet (env : Surroundings) (reply : Reply) (hidle : e.handler.state = .idle)
    (hline : Line (e.receive env)) (hnone : e.handler.outgoingMessages = [])
    (harrivals : (e.receive env).arrivals = []) :
    e.loop env reply = (e.receive env).look env := by
  have hlook : Line ((e.receive env).look env) := hline.of_eq rfl rfl rfl rfl rfl rfl
  rw [loop, turn, show ((e.receive env).look env).handler.state = .idle from hidle]
  dsimp only
  rw [handleIncoming_nil hlook harrivals, sendNext,
    show ((e.receive env).look env).handler.outgoingMessages = [] from hnone]

/-- A handler that answers once. -/
theorem processMessage_answer (env : Surroundings) (reply : Reply) {a : Arrival}
    {answer : HaierMessage} {useCrc : Option Bool}
    (hhandler : e.handler.messageHandler a.frame.frame.frameType ≠ .builtIn)
    (hreply : reply (.message (e.handler.messageHandler a.frame.frame.frameType) a) =
      [.sendAnswer answer useCrc]) :
    ∃ w : Write, w.bytes =
        bytesFor (env.frameBlock e.ticks) answer (useCrc.getD a.frame.frame.useCrc) ∧
      let e' := e.processMessage env reply a
      e'.output = e.output ++ w.bytes.getD [] ∧
      e'.trace = e.trace ++
        [.invoked (.message (e.handler.messageHandler a.frame.frame.frameType) a), .wrote w] ∧
      e'.handler.transport = e.handler.transport ∧ e'.input = e.input ∧
      e'.received = e.received ∧ e'.pushed = e.pushed ∧ e'.arrivals = e.arrivals ∧
      e'.loops = e.loops ∧ e'.handler.state = e.handler.state ∧
      e'.handler.outgoingMessages = e.handler.outgoingMessages ∧ SameTables e e' := by
  let e₁ : Endpoint := { e with
    handler := { e.handler with
      incomingMessageCrcStatus := a.frame.frame.useCrc
      processingMessage := true
      answerSent := false }
    current := some a }
  let e₂ := e₁.emit (.invoked (.message (e.handler.messageHandler a.frame.frame.frameType) a))
  have hinvoke : e₁.invoke env reply
      (.message (e.handler.messageHandler a.frame.frame.frameType) a) =
        e₂.sendAnswer env answer (useCrc.getD a.frame.frame.useCrc) := by
    rw [invoke, show Invocation.handler (.message (e.handler.messageHandler
      a.frame.frame.frameType) a) = e.handler.messageHandler a.frame.frame.frameType from rfl,
      if_neg hhandler, hreply]
    rfl
  have hprocess : e.processMessage env reply a =
      (let e₃ := e₂.sendAnswer env answer (useCrc.getD a.frame.frame.useCrc)
       { e₃ with handler := { e₃.handler with processingMessage := false }, current := none }) := by
    rw [← hinvoke]
    rfl
  refine ⟨e₂.writeOf env (.answer e₂.current) answer (useCrc.getD a.frame.frame.useCrc), rfl, ?_⟩
  dsimp only
  rw [hprocess, sendAnswer_eq env e₂ answer _ rfl]
  refine ⟨rfl, ?_, rfl, rfl, rfl, rfl, rfl, rfl, rfl, rfl, rfl, rfl⟩
  exact List.append_assoc e.trace [_] [_]

/-- What a call of `loop` has done with a part of a packet: it still expects the rest, or it has
answered. -/
inductive Served (capacity : Nat) (p q : Packet) (line : List UInt8) (e e' : Endpoint) : Prop where
  | waits (hline : line ≠ []) (hlisten : ∃ r, Listens capacity e' r ∧ Expecting p line r)
      (houtput : e'.output = e.output)
      (hheard : heardOf e'.trace = heardOf e.trace)
  | answers (hline : line = []) (hlisten : ∃ r, Listens capacity e' r ∧ r.AtBoundary)
      (houtput : e'.output = e.output ++ q.wire)
      (hheard : heardOf e'.trace = heardOf e.trace ++ [p.frame])

/-- The side that answers between two calls of `loop`. -/
structure OnDuty (e : Endpoint) : Prop where
  state : e.handler.state = .idle
  queue : e.handler.outgoingMessages = []

theorem SameTables.messageHandler (h : SameTables e e') (type : FrameType) :
    e'.handler.messageHandler type = e.handler.messageHandler type := by
  rw [ProtocolHandler.messageHandler, h.map, h.default]
  rfl

theorem serve_packet (env : Surroundings) (h : Listens capacity e r) (hduty : OnDuty e)
    (hexpecting : Expecting p (e.input ++ line) r) (hcapacity : p.wire.length ≤ capacity)
    (hhandler : e.handler.messageHandler p.frame.frameType ≠ .builtIn)
    {answer : HaierMessage} {useCrc : Option Bool}
    (hreply : ∀ a : Arrival, a.frame.frame = p.frame →
      reply (.message (e.handler.messageHandler p.frame.frameType) a) =
        [.sendAnswer answer useCrc])
    (hanswer : answer.packet (useCrc.getD p.frame.useCrc) = some q)
    (hlength : q.wire.length ≤ 256) :
    let e' := e.loop env reply
    e'.input = [] ∧ OnDuty e' ∧ SameTables e e' ∧ Served capacity p q line e e' := by
  obtain ⟨hinput, hcases⟩ := h.receive_packet hexpecting hcapacity env
  have hline := h.line.receive env
  rcases hcases with ⟨hrest, r', hlisten, hexpecting'⟩ |
    ⟨hrest, a, r', harrivals, hframe, hlisten, hboundary⟩
  · intro e'
    have hloop : e' = (e.receive env).look env :=
      loop_quiet env reply hduty.state hline hduty.queue hlisten.arrivals
    have hlook : Listens capacity e' r' := by
      rw [hloop]
      exact hlisten.of_eq (hline.of_eq rfl rfl rfl rfl rfl rfl) rfl rfl rfl rfl
    have htrace : e'.trace = e.trace ++ [.began (env.clock e.ticks)] := by
      rw [hloop]
      rfl
    refine ⟨?_, ?_, ?_, .waits hrest ⟨r', hlook, hexpecting'⟩ ?_ ?_⟩
    · rw [hloop]
      exact hinput
    · rw [hloop]
      exact ⟨hduty.state, hduty.queue⟩
    · rw [hloop]
      exact ⟨rfl, rfl⟩
    · rw [hloop]
      rfl
    · rw [htrace, heardOf_append]
      exact List.append_nil _
  · intro e'
    have hlook : Line ((e.receive env).look env) := hline.of_eq rfl rfl rfl rfl rfl rfl
    let e₁ := ((e.receive env).look env).dropFrames 1
    have hhandler₁ : e₁.handler.messageHandler a.frame.frame.frameType =
        e.handler.messageHandler p.frame.frameType := by
      rw [hframe]
      rfl
    obtain ⟨w, hbytes, houtput, htrace, htransport, hin, hreceived, hpushed, harr, hloops, hstate,
      hqueue, htables⟩ := processMessage_answer env reply (e := e₁) (a := a)
        (by rw [hhandler₁]; exact hhandler) (by rw [hhandler₁]; exact hreply a hframe)
    have hnone : (e₁.processMessage env reply a).handler.outgoingMessages = [] :=
      hqueue.trans hduty.queue
    have hloop : e' = e₁.processMessage env reply a := by
      show e.loop env reply = _
      rw [loop, turn, show ((e.receive env).look env).handler.state = .idle from hduty.state]
      dsimp only
      rw [hlook.handleIncoming_single harrivals, sendNext, hnone]
    have hwire : w.bytes.getD [] = q.wire := by
      rw [hbytes, hframe, bytesFor_eq hanswer hlength]
      rfl
    have hlisten' : Listens capacity e' r' := by
      have hline' : Line e' := hloop ▸
        (hlook.dropFrames 1).of_eq htransport hin hreceived hpushed harr hloops
      exact hlisten.of_eq hline' (hloop ▸ htransport) (hloop ▸ hreceived) (hloop ▸ hpushed)
        (hloop ▸ harr)
    have htrace' : e'.trace = e.trace ++ [.began (env.clock e.ticks)] ++
        [.invoked (.message (e₁.handler.messageHandler a.frame.frame.frameType) a), .wrote w] :=
      hloop ▸ htrace
    refine ⟨?_, ?_, ?_, .answers hrest ⟨r', hlisten', hboundary⟩ ?_ ?_⟩
    · exact hloop ▸ hin.trans hinput
    · exact hloop ▸ ⟨hstate.trans hduty.state, hnone⟩
    · exact hloop ▸ ⟨htables.map, htables.default⟩
    · rw [hloop, houtput, hwire]
      rfl
    · rw [htrace', heardOf_append, heardOf_append, ← hframe]
      exact congrArg (· ++ _) (List.append_nil _)

end Serving

/-! ## Turns of the side that asks -/

section Asking

variable {d : Desk} {msg : OutgoingQueueItem} {rest : List OutgoingQueueItem} {p : Packet}

/-- What is the same after a call of `loop` that has handled no frame. -/
structure Waited (e e' : Endpoint) : Prop where
  queue : e'.handler.outgoingMessages = e.handler.outgoingMessages
  state : e'.handler.state = e.handler.state
  output : e'.output = e.output
  asked : requestsOf e'.trace = requestsOf e.trace
  answered : answersOf e'.trace = answersOf e.trace

theorem waited_look (env : Surroundings) (e : Endpoint) : Waited e ((e.receive env).look env) := by
  have htrace : ((e.receive env).look env).trace = e.trace ++ [.began (env.clock e.ticks)] := rfl
  refine ⟨rfl, rfl, rfl, ?_, ?_⟩
  · rw [htrace, requestsOf_append]
    exact List.append_nil _
  · rw [htrace, answersOf_append]
    exact List.append_nil _

theorem receive_sameLine_look (env : Surroundings) (e : Endpoint) : SameLine e (e.look env) :=
  ⟨rfl, rfl, rfl, rfl, rfl, rfl, rfl, rfl⟩

/-- No answer has come in yet. -/
theorem loop_wait (env : Surroundings) (reply : Reply)
    (hwaiting : e.handler.state = .waitingForAnswer) (hline : Line (e.receive env))
    (harrivals : (e.receive env).arrivals = [])
    (hnow : env.clock e.ticks ≤ e.handler.answerTimePoint) :
    e.loop env reply = (e.receive env).look env := by
  have hintime : ¬env.clock e.ticks > e.handler.answerTimePoint := Int.not_lt.mpr hnow
  have hnone : ¬(e.receive env).handler.transport.incomingQueue.length > 0 := by
    rw [← hline.length_arrivals, harrivals]
    exact Nat.lt_irrefl 0
  rw [loop, turn, show ((e.receive env).look env).handler.state = .waitingForAnswer from hwaiting]
  dsimp only
  rw [if_neg (show ¬env.clock (e.receive env).ticks >
    ((e.receive env).look env).handler.answerTimePoint from hintime), if_neg (show
    ¬((e.receive env).look env).handler.transport.incomingQueue.length > 0 from hnone)]

/-- Nothing may be written yet. -/
theorem loop_hold (env : Surroundings) (reply : Reply) (hidle : e.handler.state = .idle)
    (hline : Line (e.receive env))
    (harrivals : (e.receive env).arrivals = [])
    (hnow : ¬(env.clock e.ticks ≥ e.handler.cooldownTimePoint ∧
      env.clock e.ticks ≥ e.handler.retryTimePoint)) :
    e.loop env reply = (e.receive env).look env := by
  have hlook : Line ((e.receive env).look env) := hline.of_eq rfl rfl rfl rfl rfl rfl
  rw [loop, turn, show ((e.receive env).look env).handler.state = .idle from hidle]
  dsimp only
  rw [handleIncoming_nil hlook harrivals, sendNext]
  split
  · rfl
  · exact if_neg hnow

/-- The head of the queue has been written, and its answer is awaited. -/
structure Written (p : Packet) (msg : OutgoingQueueItem) (rest : List OutgoingQueueItem)
    (e e' : Endpoint) : Prop where
  queue : e'.handler.outgoingMessages = msg.retried :: rest
  state : e'.handler.state = .waitingForAnswer
  output : e'.output = e.output ++ p.wire
  asked : requestsOf e'.trace = requestsOf e.trace
  answered : answersOf e'.trace = answersOf e.trace

theorem loop_ask (env : Surroundings) (reply : Reply) (h : Service.Serves e d)
    (hidle : e.handler.state = .idle)
    (hqueue : e.handler.outgoingMessages = msg :: rest) {Q : HaierMessage → Bool → Prop}
    (hasks : msg.Asks Q) (harrivals : (e.receive env).arrivals = [])
    (hnow : env.clock e.ticks ≥ e.handler.cooldownTimePoint ∧
      env.clock e.ticks ≥ e.handler.retryTimePoint)
    (hpacket : msg.message.packet msg.useCrc = some p) (hlength : p.wire.length ≤ 255) :
    SameLine (e.receive env) (e.loop env reply) ∧ Written p msg rest e (e.loop env reply) := by
  have hserves := (h.receive env).look env
  have hsent := countsAsSent_eq hpacket hlength
  let e₁ := (e.receive env).look env
  have hloop : e.loop env reply = (e₁.access msg.id).sendHead env msg (env.clock e.ticks) := by
    rw [loop, turn, show ((e.receive env).look env).handler.state = .idle from hidle]
    dsimp only
    rw [handleIncoming_nil hserves.line harrivals, sendNext,
      show ((e.receive env).look env).handler.outgoingMessages = msg :: rest from hqueue]
    dsimp only
    rw [if_pos (show env.clock (e.receive env).ticks ≥
        ((e.receive env).look env).handler.cooldownTimePoint ∧ env.clock (e.receive env).ticks ≥
          ((e.receive env).look env).handler.retryTimePoint from hnow), if_pos hasks.retries]
    rfl
  have hsame := sendHead_sameLine env (e₁.access msg.id) msg (env.clock e.ticks)
  refine ⟨hloop ▸ (receive_sameLine_look env _).trans ((SameLine.access e₁ msg.id).trans hsame), ?_⟩
  have hdecremented :
      (e.handler.decrementRetries msg.id).outgoingMessages = msg.retried :: rest := by
    obtain ⟨queue, n, phase⟩ := d
    obtain rfl : msg :: rest = queue := hqueue.symm.trans h.queue
    exact h.toFollows.decremented
  have hbytes := bytesFor_eq hpacket (Nat.le_succ_of_le hlength)
  rw [hloop, sendHead, write_eq]
  simp only [hsent, hasks.kind, if_true, Bool.false_eq_true, if_false]
  refine ⟨hdecremented, rfl, ?_, ?_, ?_⟩
  · show e.output ++ (bytesFor _ msg.message msg.useCrc).getD [] = _
    rw [hbytes]
    rfl
  · show requestsOf (e.trace ++ [_] ++ [_] ++ [_] ++ [_] ++ [_] ++ [_] ++ [_]) = _
    simp only [List.append_assoc, requestsOf_append]
    exact List.append_nil _
  · show answersOf (e.trace ++ [_] ++ [_] ++ [_] ++ [_] ++ [_] ++ [_] ++ [_]) = _
    simp only [List.append_assoc, answersOf_append]
    exact List.append_nil _

/-- The answer has been handed over, and the handler has queued `items`. -/
structure Resolved (Q : HaierMessage → Bool → Prop) (q : Packet) (msg : OutgoingQueueItem)
    (rest items : List OutgoingQueueItem) (e e' : Endpoint) : Prop where
  asks : ∀ item ∈ items, item.Asks Q
  queue : e'.handler.outgoingMessages = rest ++ items
  state : e'.handler.state = .idle
  output : e'.output = e.output
  asked : requestsOf e'.trace = requestsOf e.trace ++ items
  answered : answersOf e'.trace = answersOf e.trace ++ [(msg.id, q.frame)]

theorem loop_answer (env : Surroundings) (reply : Reply) {Q : HaierMessage → Bool → Prop}
    {q : Packet} {a : Arrival}
    (h : Service.Serves e d) (hwaiting : e.handler.state = .waitingForAnswer)
    (hqueue : e.handler.outgoingMessages = msg :: rest)
    (hasks : ∀ invocation, ∀ c ∈ reply invocation, c.Asks Q)
    (harrivals : (e.receive env).arrivals = [a]) (hframe : a.frame.frame = q.frame)
    (hnow : env.clock e.ticks ≤ e.handler.answerTimePoint) :
    SameLine ((e.receive env).dropFrames 1) (e.loop env reply) ∧
      ∃ items, Resolved Q q msg rest items e (e.loop env reply) := by
  let e₁ := ((e.receive env).look env).dropFrames 1
  have hline : Line ((e.receive env).look env) := ((h.receive env).look env).line
  let invocation := Invocation.answer (e.handler.answerHandler e.handler.lastMessageType)
    e.handler.lastMessageType (some msg.id) a
  let e₂ := e₁.invoke env reply invocation
  -- The handler may only ask.
  obtain ⟨items, hitems⟩ := Queues.calls (Q := Q) env
    (if invocation.handler = .builtIn then [] else reply invocation)
    (e := e₁.emit (.invoked invocation)) h.processing (by
      split
      · exact fun c hc => absurd hc List.not_mem_nil
      · exact hasks invocation)
  have hqueue₂ : e₂.handler.outgoingMessages = msg :: (rest ++ items) :=
    hitems.queue.trans (congrArg (· ++ items) hqueue)
  have hany : (e.receive env).handler.transport.incomingQueue.length > 0 := by
    rw [← (h.receive env).line.length_arrivals, harrivals]
    exact Nat.one_pos
  have hintime : ¬env.clock e.ticks > e.handler.answerTimePoint := Int.not_lt.mpr hnow
  have hloop : e.loop env reply =
      (e₂.popOutgoing.setRetryTimePoint (env.clock e.ticks)).setState .idle := by
    rw [loop, turn, show ((e.receive env).look env).handler.state = .waitingForAnswer from hwaiting]
    dsimp only
    rw [if_neg (show ¬env.clock (e.receive env).ticks >
        ((e.receive env).look env).handler.answerTimePoint from hintime),
      if_pos (show ((e.receive env).look env).handler.transport.incomingQueue.length > 0 from hany),
      answerReceived, hline.popFrame_eq harrivals]
    show ((e₁.invoke env reply (.answer (e.handler.answerHandler e.handler.lastMessageType)
      e.handler.lastMessageType (e.handler.outgoingMessages.head?.map (·.id)) a)).popOutgoing
        |>.setRetryTimePoint _).setState .idle = _
    rw [hqueue]
    rfl
  have hsame₁ : SameLine ((e.receive env).dropFrames 1) e₁ :=
    ⟨rfl, rfl, rfl, rfl, rfl, rfl, rfl, rfl⟩
  have hsame₂ : SameLine e₁ e₂ := (invoke_undisturbed env reply e₁ invocation).toSameLine
  have htrace : e₂.trace = e.trace ++ [.began (env.clock e.ticks)] ++ [.invoked invocation] ++
      items.map .queued := hitems.trace
  have hlast : (e.loop env reply).trace = e₂.trace ++ [.removed msg.id] ++ [.entered .idle] := by
    rw [hloop, popOutgoing_cons msg _ hqueue₂]
    rfl
  refine ⟨?_, items, hitems.asks, ?_, ?_, ?_, ?_, ?_⟩
  · rw [hloop]
    exact hsame₁.trans (((hsame₂.popOutgoing).setRetryTimePoint _).setState .idle)
  · rw [hloop, popOutgoing_cons msg _ hqueue₂]
    rfl
  · rw [hloop]
    rfl
  · rw [hloop, popOutgoing_cons msg _ hqueue₂]
    exact hitems.output
  · rw [hlast, htrace]
    simp only [requestsOf_append, requestsOf_queued]
    show requestsOf e.trace ++ [] ++ [] ++ items ++ [] ++ [] = _
    simp only [List.append_nil]
  · rw [hlast, htrace]
    simp only [answersOf_append, answersOf_queued]
    show answersOf e.trace ++ [] ++ [(msg.id, a.frame.frame)] ++ [] ++ [] ++ [] = _
    simp only [List.append_nil, hframe]

end Asking
end Endpoint
end HaierProtocol
