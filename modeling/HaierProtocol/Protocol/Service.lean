import HaierProtocol.Protocol.Calls
import HaierProtocol.Protocol.Desk

/-!
# An endpoint serves its desk

The simulation.  `Follows` says that the record of an endpoint can be replayed on a desk and
that the queues agree.  It holds at every moment, also while a handler runs.  `Serves` holds
between the steps of a run and adds that the states agree.  Every step keeps it (`step`), so
every run of an endpoint is one of a desk (`serves_run`).
-/

namespace HaierProtocol

open Replay ProtocolHandler

namespace Service

variable {env : Surroundings} {reply : Endpoint.Reply}
  {e e' : Endpoint} {d d' : Desk}

structure Follows (e : Endpoint) (d : Desk) : Prop where
  replays : Replays Desk.Step Desk.start e.trace d
  queue : e.handler.outgoingMessages = d.queue
  nextId : e.nextId = d.nextId

namespace Follows

theorem order (h : Follows e d) : d.Order := (Desk.order_of_replays h.replays).1

theorem engaged (h : Follows e d) : d.Engaged e.trace :=
  (Desk.order_of_replays h.replays).2

theorem of_eq (h : Follows e d) (htrace : e'.trace = e.trace)
    (hqueue : e'.handler.outgoingMessages = e.handler.outgoingMessages)
    (hnext : e'.nextId = e.nextId) : Follows e' d :=
  ⟨htrace ▸ h.replays, hqueue.trans h.queue, hnext.trans h.nextId⟩

/-- An event that leaves the queue as it is. -/
theorem emit {event : Event} (h : Follows e d) (hstep : Desk.Step d event d')
    (hqueue : d'.queue = d.queue) (hnext : d'.nextId = d.nextId) : Follows (e.emit event) d' :=
  ⟨replays_snoc h.replays hstep, h.queue.trans hqueue.symm, h.nextId.trans hnext.symm⟩

theorem access (h : Follows e d) (id : Nat) : Follows (e.access id) d :=
  h.emit (.accessed id _) rfl rfl

/-- The head of the queue is removed. -/
theorem popOutgoing {msg : OutgoingQueueItem} {rest : List OutgoingQueueItem} {n : Nat}
    {phase phase' : Phase} (h : Follows e ⟨msg :: rest, n, phase⟩)
    (hstep : Desk.Step ⟨msg :: rest, n, phase⟩ (.removed msg.id) ⟨rest, n, phase'⟩) :
    Follows e.popOutgoing ⟨rest, n, phase'⟩ := by
  have hqueue := h.queue
  rw [Endpoint.popOutgoing, hqueue]
  exact ⟨replays_snoc h.replays hstep, rfl, h.nextId⟩

/-- Handlers may only add to the queue and send answers. -/
theorem calls (env : Surroundings) (h : Follows e d)
    (hidle : e.handler.processingMessage = true → d.phase = .idle) (apiCalls : List ApiCall) :
    ∃ more n, Follows (e.calls env apiCalls) ⟨d.queue ++ more, n, d.phase⟩ := by
  have hall := Endpoint.calls_induction env
    (motive := fun e' => e'.handler.processingMessage = e.handler.processingMessage ∧
      ∃ more n, Follows e' ⟨d.queue ++ more, n, d.phase⟩) ?_ apiCalls
    ⟨rfl, [], d.nextId, by rw [List.append_nil]; exact h⟩
  · exact hall.2
  · rintro e₁ e₂ ⟨hprocessing, more, n, h₁⟩ hcalled
    refine ⟨hcalled.undisturbed.processing.trans hprocessing, ?_⟩
    cases hcalled with
    | queued item hid hretries =>
      refine ⟨more ++ [item], n + 1, ?_⟩
      rw [← List.append_assoc]
      refine ⟨replays_snoc h₁.replays (.queued (hid.trans h₁.nextId) hretries), ?_, ?_⟩
      · show e₁.handler.outgoingMessages ++ [item] = _
        rw [h₁.queue]
      · exact congrArg (· + 1) h₁.nextId
    | answered answer useCrc hrunning =>
      refine ⟨more, n, ?_⟩
      have hphase := hidle (hprocessing ▸ hrunning)
      rw [Endpoint.sendAnswer_eq env e₁ answer useCrc hrunning]
      rw [hphase] at h₁ ⊢
      exact ⟨replays_snoc h₁.replays (.replied rfl), h₁.queue, h₁.nextId⟩
    | set handler hqueue =>
      exact ⟨more, n, h₁.of_eq rfl hqueue rfl⟩

theorem invoke {invocation : Invocation} (env : Surroundings) (reply : Endpoint.Reply)
    (h : Follows e d)
    (hstep : Desk.Step d (.invoked invocation) d') (hqueue : d'.queue = d.queue)
    (hnext : d'.nextId = d.nextId)
    (hidle : e.handler.processingMessage = true → d'.phase = .idle) :
    ∃ more n, Follows (e.invoke env reply invocation) ⟨d.queue ++ more, n, d'.phase⟩ := by
  have hemit := h.emit hstep hqueue hnext
  rw [← hqueue]
  exact hemit.calls env hidle _

/-- The queue after `number_of_retries--`. -/
theorem decremented {msg : OutgoingQueueItem} {rest : List OutgoingQueueItem} {n : Nat}
    {phase : Phase} (h : Follows e ⟨msg :: rest, n, phase⟩) :
    (e.handler.decrementRetries msg.id).outgoingMessages = msg.retried :: rest := by
  rw [decrementRetries, h.queue, List.map_cons, if_pos rfl, h.order.map_rest]
  rfl

end Follows

/-- What the phase of the desk says about the endpoint. -/
def InPhase (e : Endpoint) : Phase → Prop
  | .idle => e.handler.state = .idle
  | .waiting w =>
    e.handler.state = .waitingForAnswer ∧ e.handler.lastMessageType = w.message.frameType ∧
      w.loop ≤ e.loops ∧ ∀ a ∈ e.arrivals, w.loop < a.loop
  | _ => False

structure Serves (e : Endpoint) (d : Desk) : Prop
    extends Follows e d where
  line : e.Line
  processing : e.handler.processingMessage = false
  current : e.current = none
  phase : InPhase e d.phase

/-! ## Sending -/

section SendHead

variable {msg : OutgoingQueueItem} {rest : List OutgoingQueueItem} {n : Nat}

theorem sendHead_failed (env : Surroundings) (now : TimePoint)
    (h : Follows e ⟨msg :: rest, n, .idle⟩)
    (hretries : 0 < msg.numberOfRetries) (hsent : countsAsSent msg.message msg.useCrc = false) :
    Follows (e.sendHead env msg now) ⟨msg.retried :: rest, n, .idle⟩ ∧
      (e.sendHead env msg now).handler.state = e.handler.state := by
  let w := (e.access msg.id).writeOf env (.request msg.id) msg.message msg.useCrc
  have hw : w.Transmits msg := ⟨rfl, rfl, rfl, rfl⟩
  have hwrite := replays_snoc (h.access msg.id).replays (.failed hw hretries hsent)
  have hrecord := replays_snoc hwrite
    (.accessed msg.id (e.handler.outgoingMessages.any (·.id == msg.id)))
  rw [Endpoint.sendHead, Endpoint.write_eq]
  simp only [hsent, Bool.false_eq_true, if_false]
  exact ⟨⟨hrecord, h.decremented, h.nextId⟩, rfl⟩

theorem sendHead_notice (env : Surroundings) (now : TimePoint)
    (h : Follows e ⟨msg :: rest, n, .idle⟩)
    (hretries : 0 < msg.numberOfRetries) (hsent : countsAsSent msg.message msg.useCrc = true)
    (hkind : msg.noAnswer = true) :
    Follows (e.sendHead env msg now) ⟨rest, n, .idle⟩ ∧
      (e.sendHead env msg now).handler.state = e.handler.state := by
  let w := (e.access msg.id).writeOf env (.request msg.id) msg.message msg.useCrc
  have hw : w.Transmits msg := ⟨rfl, rfl, rfl, rfl⟩
  have hwrite := replays_snoc (h.access msg.id).replays (.transmitted hw hretries hsent)
  have haccess := replays_snoc hwrite
    (.accessed msg.id (e.handler.outgoingMessages.any (·.id == msg.id)))
  have hremove := replays_snoc haccess (.delivered hkind)
  have hrecord := replays_snoc hremove (.accessed msg.id (rest.any (·.id == msg.id)))
  rw [Endpoint.sendHead, Endpoint.write_eq]
  simp only [hsent, hkind, if_true]
  rw [Endpoint.popOutgoing_cons msg rest]
  · exact ⟨⟨hrecord, h.order.map_rest, h.nextId⟩, rfl⟩
  · exact h.queue

theorem sendHead_request (env : Surroundings) (now : TimePoint)
    (h : Follows e ⟨msg :: rest, n, .idle⟩)
    (hretries : 0 < msg.numberOfRetries) (hsent : countsAsSent msg.message msg.useCrc = true)
    (hkind : msg.noAnswer = false) :
    ∃ w : Write, w.message = msg.message ∧ w.loop = e.loops ∧
      Follows (e.sendHead env msg now) ⟨msg.retried :: rest, n, .waiting w⟩ ∧
      (e.sendHead env msg now).handler.state = .waitingForAnswer ∧
      (e.sendHead env msg now).handler.lastMessageType = msg.message.frameType := by
  let w := (e.access msg.id).writeOf env (.request msg.id) msg.message msg.useCrc
  have hw : w.Transmits msg := ⟨rfl, rfl, rfl, rfl⟩
  have hwrite := replays_snoc (h.access msg.id).replays (.transmitted hw hretries hsent)
  have haccess := replays_snoc hwrite
    (.accessed msg.id (e.handler.outgoingMessages.any (·.id == msg.id)))
  have hwait := replays_snoc haccess (.awaits hkind)
  have hrecord := replays_snoc hwait
    (.accessed msg.id (e.handler.outgoingMessages.any (·.id == msg.id)))
  rw [Endpoint.sendHead, Endpoint.write_eq]
  simp only [hsent, hkind, if_true, Bool.false_eq_true, if_false]
  exact ⟨w, rfl, rfl, ⟨hrecord, h.decremented, h.nextId⟩, rfl, rfl⟩

end SendHead

namespace Serves

/-- Nothing is left outstanding. -/
theorem of_sameLine (h : Serves e d) (hf : Follows e' d') (hidle : d'.phase = .idle)
    (hline : Endpoint.SameLine e e') (hstate : e'.handler.state = .idle) : Serves e' d' :=
  ⟨hf, hline.line h.line, hline.processing.trans h.processing, hline.current.trans h.current, by
    rw [hidle]
    exact hstate⟩

theorem sendHead {msg : OutgoingQueueItem} {rest : List OutgoingQueueItem} {n : Nat}
    {now : TimePoint} (h : Serves e ⟨msg :: rest, n, .idle⟩) (hretries : 0 < msg.numberOfRetries)
    (harrivals : e.arrivals = []) : ∃ d', Serves (e.sendHead env msg now) d' := by
  have hstate := h.phase
  have hline := Endpoint.sendHead_sameLine env e msg now
  cases hsent : countsAsSent msg.message msg.useCrc with
  | false =>
    obtain ⟨hf, hs⟩ := sendHead_failed env now h.toFollows hretries hsent
    exact ⟨_, h.of_sameLine hf rfl hline (hs.trans hstate)⟩
  | true =>
    cases hkind : msg.noAnswer with
    | true =>
      obtain ⟨hf, hs⟩ :=
        sendHead_notice env now h.toFollows hretries hsent hkind
      exact ⟨_, h.of_sameLine hf rfl hline (hs.trans hstate)⟩
    | false =>
      obtain ⟨w, hmessage, hloop, hf, hs, htype⟩ :=
        sendHead_request env now h.toFollows hretries hsent hkind
      refine ⟨_, hf, hline.line h.line, hline.processing.trans h.processing,
        hline.current.trans h.current, hs, ?_, ?_, ?_⟩
      · rw [htype, hmessage]
      · rw [hloop, hline.loops]
      · intro a ha
        rw [hline.arrivals, harrivals] at ha
        exact absurd ha List.not_mem_nil

/-- The second block of the idle state. -/
theorem sendNext (h : Serves e d) (hidle : d.phase = .idle) (harrivals : e.arrivals = [])
    (now : TimePoint) : ∃ d', Serves (e.sendNext env now) d' := by
  obtain ⟨queue, n, phase⟩ := d
  obtain rfl : phase = .idle := hidle
  have hqueue := h.queue
  have hstate : e.handler.state = .idle := h.phase
  rw [Endpoint.sendNext, hqueue]
  cases queue with
  | nil => exact ⟨_, h⟩
  | cons msg rest =>
    dsimp only
    have haccess := h.of_sameLine (h.toFollows.access msg.id) rfl (.access e msg.id) hstate
    by_cases hready : now ≥ e.handler.cooldownTimePoint ∧ now ≥ e.handler.retryTimePoint
    · rw [if_pos hready]
      by_cases hretries : msg.numberOfRetries > 0
      · rw [if_pos hretries]
        exact haccess.sendHead hretries harrivals
      · rw [if_neg hretries]
        have hf := haccess.toFollows.popOutgoing (.exhausted (Int.not_lt.mp hretries))
        exact ⟨_, haccess.of_sameLine (hf.of_eq rfl rfl rfl) rfl
          ((Endpoint.SameLine.refl _).popOutgoing.setRetryTimePoint now)
          ((Endpoint.state_popOutgoing _).trans hstate)⟩
    · rw [if_neg hready]
      exact ⟨_, h⟩

/-- The first block of the idle state. -/
theorem handleIncoming (env : Surroundings) (reply : Endpoint.Reply) (h : Serves e d)
    (hidle : d.phase = .idle) :
    ∃ d', Serves (e.handleIncoming env reply) d' ∧ d'.phase = .idle ∧
      (e.handleIncoming env reply).arrivals = [] := by
  obtain ⟨queue, n, phase⟩ := d
  obtain rfl : phase = .idle := hidle
  have hstate : e.handler.state = .idle := h.phase
  rcases h.line.handleIncoming_cases env reply with ⟨harrivals, heq⟩ |
    ⟨_, a, transport, _, hline, heq⟩
  · rw [heq]
    exact ⟨_, h, rfl, harrivals⟩
  · rw [heq, Endpoint.processMessage]
    -- The endpoint while the handler runs.
    let e₁ : Endpoint := { e.withFrames transport [] with
      handler := { (e.withFrames transport []).handler with
        incomingMessageCrcStatus := a.frame.frame.useCrc
        processingMessage := true
        answerSent := false }
      current := some a }
    have h₁ : Follows e₁ ⟨queue, n, .idle⟩ := h.toFollows.of_eq rfl rfl rfl
    have hline₁ : e₁.Line := hline.of_eq rfl rfl rfl rfl rfl rfl
    let invocation := Invocation.message (e₁.handler.messageHandler a.frame.frame.frameType) a
    obtain ⟨more, n', hf⟩ := h₁.invoke env reply (.heard _ a) rfl rfl (fun _ => rfl)
    have hcalls := Endpoint.invoke_undisturbed env reply e₁ invocation
    have hlast := hcalls.line hline₁
    exact ⟨_, ⟨hf.of_eq rfl rfl rfl, hlast.of_eq rfl rfl rfl rfl rfl rfl, rfl, rfl,
      hcalls.state.trans hstate⟩, rfl, hcalls.arrivals⟩

/-- Back to the idle state. -/
theorem setState_idle {queue : List OutgoingQueueItem} {n : Nat} (hserves : Serves e d)
    (h : Follows e' ⟨queue, n, .closing⟩) (hline : Endpoint.SameLine e e') :
    Serves (e'.setState .idle) ⟨queue, n, .idle⟩ :=
  hserves.of_sameLine ((h.emit .closed rfl rfl).of_eq rfl rfl rfl) rfl
    (hline.setState .idle) rfl

/-- The head of the queue while its answer is awaited. -/
theorem waiting_head {queue : List OutgoingQueueItem} {n : Nat} {w : Write}
    (h : Serves e ⟨queue, n, .waiting w⟩) :
    ∃ msg rest, queue = msg :: rest ∧ e.handler.lastMessageType = msg.message.frameType := by
  obtain ⟨msg, rest, hqueue, hout, _⟩ := h.engaged
  exact ⟨msg, rest, hqueue, h.phase.2.1.trans (by rw [hout.transmits.message])⟩

theorem not_processing (h : Serves e d) {p : Prop}
    (hprocessing : e.handler.processingMessage = true) :
    p := absurd (h.processing.symm.trans hprocessing) Bool.false_ne_true

theorem answerTimeout {queue : List OutgoingQueueItem} {n : Nat} {w : Write}
    (h : Serves e ⟨queue, n, .waiting w⟩) (now : TimePoint) :
    ∃ d', Serves (e.answerTimeout env reply now) d' := by
  obtain ⟨msg, rest, rfl, htype⟩ := h.waiting_head
  have haccess := h.toFollows.access msg.id
  rw [Endpoint.answerTimeout, h.queue]
  dsimp only
  by_cases hretries : msg.numberOfRetries = 0
  · rw [if_pos hretries]
    have hpop := haccess.popOutgoing (.expires hretries)
    rw [Endpoint.popOutgoing_cons msg rest haccess.queue] at hpop ⊢
    let e₂ := Endpoint.setRetryTimePoint ({ e.access msg.id with
      handler := { (e.access msg.id).handler with outgoingMessages := rest } }.emit
        (.removed msg.id)) now
    have hline : Endpoint.SameLine e e₂ := ⟨rfl, rfl, rfl, rfl, rfl, rfl, rfl, rfl⟩
    have h₂ : Follows e₂ ⟨rest, n, .expired msg⟩ := hpop.of_eq rfl rfl rfl
    let handler := e₂.handler.timeoutHandler e₂.handler.lastMessageType
    have hstep : Desk.Step ⟨rest, n, .expired msg⟩
        (.invoked (.timeout handler e₂.handler.lastMessageType msg.id)) ⟨rest, n, .closing⟩ := by
      rw [show e₂.handler.lastMessageType = msg.message.frameType from htype]
      exact .timedOut handler
    obtain ⟨more, n', hf⟩ := h₂.invoke env reply hstep rfl rfl h.not_processing
    have hcalls := (Endpoint.invoke_undisturbed env reply e₂
      (.timeout handler e₂.handler.lastMessageType msg.id)).toSameLine
    exact ⟨_, h.setState_idle hf (hline.trans hcalls)⟩
  · rw [if_neg hretries]
    have hf := haccess.emit (.retries hretries) rfl rfl
    exact ⟨_, h.of_sameLine (hf.of_eq rfl rfl rfl) rfl
      ((Endpoint.SameLine.access e msg.id).setState .idle) rfl⟩

/-- The endpoint when the answer handler has run. -/
theorem answering {queue : List OutgoingQueueItem} {n : Nat} {w : Write} {a : Arrival}
    {arrivals : List Arrival} (env : Surroundings) (reply : Endpoint.Reply)
    (h : Serves e ⟨queue, n, .waiting w⟩) (harrivals : e.arrivals = a :: arrivals) :
    ∃ msg rest transport more n', queue = msg :: rest ∧
      e.popFrame = (e.withFrames transport arrivals, a) ∧
      Serves (e.withFrames transport arrivals) ⟨queue, n, .waiting w⟩ ∧
      let e₁ := e.withFrames transport arrivals
      Follows (e₁.invoke env reply (.answer (e₁.handler.answerHandler e₁.handler.lastMessageType)
        e₁.handler.lastMessageType (e₁.handler.outgoingMessages.head?.map (·.id)) a))
        ⟨msg :: (rest ++ more), n', .answered a⟩ := by
  obtain ⟨msg, rest, rfl, htype⟩ := h.waiting_head
  obtain ⟨_, _, hlast⟩ := h.phase.2
  obtain ⟨transport, hpop, hline⟩ := h.line.popFrame_cons harrivals
  let e₁ := e.withFrames transport arrivals
  have h₁ : Follows e₁ ⟨msg :: rest, n, .waiting w⟩ := h.toFollows.of_eq rfl rfl rfl
  let handler := e₁.handler.answerHandler e₁.handler.lastMessageType
  have hrequest : e₁.handler.outgoingMessages.head?.map (·.id) = some msg.id := by
    rw [h₁.queue]
    rfl
  have hstep : Desk.Step ⟨msg :: rest, n, .waiting w⟩ (.invoked (.answer handler
      e₁.handler.lastMessageType (e₁.handler.outgoingMessages.head?.map (·.id)) a))
      ⟨msg :: rest, n, .answered a⟩ := by
    rw [hrequest, show e₁.handler.lastMessageType = msg.message.frameType from htype]
    exact .answered handler (hlast a (harrivals ▸ List.mem_cons_self))
  obtain ⟨more, n', hf⟩ := h₁.invoke env reply hstep rfl rfl h.not_processing
  refine ⟨msg, rest, transport, more, n', rfl, hpop, ⟨h₁, hline, h.processing, h.current, h.phase.1,
    h.phase.2.1, h.phase.2.2.1, ?_⟩, hf⟩
  intro b hb
  exact hlast b (harrivals ▸ List.mem_cons_of_mem a hb)

theorem answerReceived {queue : List OutgoingQueueItem} {n : Nat} {w : Write} {a : Arrival}
    {arrivals : List Arrival} (h : Serves e ⟨queue, n, .waiting w⟩)
    (harrivals : e.arrivals = a :: arrivals) (now : TimePoint) :
    ∃ d', Serves (e.answerReceived env reply now) d' := by
  obtain ⟨msg, rest, transport, more, n', rfl, hpop, hserves, hf⟩ :=
    h.answering env reply harrivals
  rw [Endpoint.answerReceived, hpop]
  dsimp only
  let e₁ := e.withFrames transport arrivals
  let e₂ := e₁.invoke env reply (.answer (e₁.handler.answerHandler e₁.handler.lastMessageType)
    e₁.handler.lastMessageType (e₁.handler.outgoingMessages.head?.map (·.id)) a)
  have hcalls : Endpoint.SameLine e₁ e₂ := (Endpoint.invoke_undisturbed env reply e₁ _).toSameLine
  have hremove : Follows (e₂.popOutgoing.setRetryTimePoint now) ⟨rest ++ more, n', .closing⟩ :=
    (hf.popOutgoing .resolved).of_eq rfl rfl rfl
  exact ⟨_, hserves.setState_idle hremove (hcalls.popOutgoing.setRetryTimePoint now)⟩

/-! ## The loop -/

theorem receive (h : Serves e d) (env : Surroundings) : Serves (e.receive env) d := by
  refine ⟨h.toFollows.of_eq rfl rfl rfl, h.line.receive env, h.processing, h.current, ?_⟩
  obtain ⟨queue, n, phase⟩ := d
  have hphase := h.phase
  cases phase with
  | idle => exact hphase
  | waiting w =>
    obtain ⟨hstate, htype, hloop, hlater⟩ := hphase
    obtain ⟨new, harrivals, _, _, hnew⟩ := Endpoint.Line.receive_arrivals env e
    refine ⟨hstate, htype, Nat.le_succ_of_le hloop, ?_⟩
    intro a ha
    rw [harrivals] at ha
    rcases List.mem_append.mp ha with hold | ha
    · exact hlater a hold
    · rw [hnew a ha]
      exact Nat.lt_succ_of_le hloop
  | _ => exact hphase

theorem look (h : Serves e d) (env : Surroundings) : Serves (e.look env) d := by
  have hf := h.toFollows.emit (.began (env.clock e.ticks)) rfl rfl
  refine ⟨hf.of_eq rfl rfl rfl, h.line.of_eq rfl rfl rfl rfl rfl rfl, h.processing, h.current, ?_⟩
  obtain ⟨queue, n, phase⟩ := d
  cases phase <;> exact h.phase

theorem turn (h : Serves e d) (now : TimePoint) :
    ∃ d', Serves (e.turn env reply now) d' := by
  obtain ⟨queue, n, phase⟩ := d
  cases phase with
  | idle =>
    obtain ⟨d₁, h₁, hidle, harrivals⟩ := h.handleIncoming env reply rfl
    rw [Endpoint.turn, show e.handler.state = .idle from h.phase]
    exact h₁.sendNext hidle harrivals now
  | waiting w =>
    rw [Endpoint.turn, h.phase.1]
    dsimp only
    by_cases htimeout : now > e.handler.answerTimePoint
    · rw [if_pos htimeout]
      exact h.answerTimeout now
    · rw [if_neg htimeout]
      by_cases hany : e.handler.transport.incomingQueue.length > 0
      · rw [if_pos hany]
        rw [← h.line.length_arrivals] at hany
        obtain ⟨a, arrivals, harrivals⟩ := List.exists_cons_of_length_pos hany
        exact h.answerReceived harrivals now
      · rw [if_neg hany]
        exact ⟨_, h⟩
  | _ => exact h.phase.elim

theorem loop (h : Serves e d) : ∃ d', Serves (e.loop env reply) d' :=
  ((h.receive env).look env).turn _

theorem call (h : Serves e d) (c : ApiCall) : ∃ d', Serves (e.call env c) d' := by
  obtain ⟨more, n, hf⟩ := h.toFollows.calls env h.not_processing [c]
  have hcall := (Endpoint.call_cases env e c).undisturbed
  refine ⟨_, hf, hcall.line h.line, hcall.processing.trans h.processing,
    hcall.current.trans h.current, ?_⟩
  obtain ⟨queue, n, phase⟩ := d
  have hphase := h.phase
  cases phase with
  | idle => exact hcall.state.trans hphase
  | waiting w =>
    refine ⟨hcall.state.trans hphase.1, hcall.lastMessageType.trans hphase.2.1, ?_, ?_⟩
    · show w.loop ≤ (e.call env c).loops
      rw [hcall.loops]
      exact hphase.2.2.1
    · show ∀ a ∈ (e.call env c).arrivals, w.loop < a.loop
      rw [hcall.arrivals]
      exact hphase.2.2.2
  | _ => exact hphase

theorem step (env : Surroundings) (h : Serves e d) (s : Endpoint.Step) :
    ∃ d', Serves (e.step env s) d' := by
  cases s with
  | arrive bytes =>
    refine ⟨d, h.toFollows.of_eq rfl rfl rfl, h.line.arrive bytes, h.processing, h.current, ?_⟩
    obtain ⟨queue, n, phase⟩ := d
    cases phase <;> exact h.phase
  | call c => exact h.call c
  | loop reply => exact h.loop

theorem start (cells : Nat → UInt8) (bufferSize : Nat) :
    Serves (.start cells bufferSize) .start :=
  ⟨⟨rfl, rfl, rfl⟩, .start cells bufferSize, rfl, rfl, rfl⟩

theorem run : ∀ (steps : List Endpoint.Step) {e : Endpoint} {d : Desk}, Serves e d →
    ∃ d', Serves (e.run env steps) d'
  | [], _, d, h => ⟨d, h⟩
  | s :: rest, _, _, h => by
    obtain ⟨_, h'⟩ := h.step env s
    exact run rest h'

end Serves

/-- Every run of an endpoint is one of a desk. -/
theorem serves_run (cells : Nat → UInt8) (bufferSize : Nat) (env : Surroundings)
    (steps : List Endpoint.Step) :
    ∃ d, Serves ((Endpoint.start cells bufferSize).run env steps) d :=
  Serves.run steps (.start cells bufferSize)

end Service
end HaierProtocol
