import HaierProtocol.Protocol.Outstanding
import HaierProtocol.Protocol.Resolution

/-!
# The deadline of an answer

While an answer is awaited, `loop` looks at the deadline before it looks at the frames that have
come in.  Up to the deadline the first frame goes to the answer handler and the request is done
with.  Past it the request has timed out, whatever has come in: the frames stay in the queue, and
the request waits for another try or leaves with its timeout handler.
-/

namespace HaierProtocol

namespace Endpoint

variable {env : Surroundings} {reply : Reply} {e : Endpoint} {d : Desk} {msg : OutgoingQueueItem}
  {rest : List OutgoingQueueItem}

/-! ## Handlers -/

/-- Handlers that send no answers only queue items. -/
theorem calls_queue (env : Surroundings) (hprocessing : e.handler.processingMessage = false)
    (apiCalls : List ApiCall) :
    ∃ items, (e.calls env apiCalls).trace = e.trace ++ items.map .queued ∧
      (e.calls env apiCalls).handler.outgoingMessages = e.handler.outgoingMessages ++ items := by
  have hall := calls_induction env (motive := fun e' => e'.handler.processingMessage = false ∧
    ∃ items, e'.trace = e.trace ++ items.map .queued ∧
      e'.handler.outgoingMessages = e.handler.outgoingMessages ++ items) ?_ apiCalls
    ⟨hprocessing, [], (List.append_nil _).symm, (List.append_nil _).symm⟩
  · exact hall.2
  · rintro e₁ e₂ ⟨hfalse, items, htrace, hqueue⟩ hcalled
    refine ⟨hcalled.undisturbed.processing.trans hfalse, ?_⟩
    cases hcalled with
    | queued item =>
      refine ⟨items ++ [item], ?_, ?_⟩
      · show e₁.trace ++ [.queued item] = _
        rw [htrace, List.map_append, List.append_assoc]
        rfl
      · show e₁.handler.outgoingMessages ++ [item] = _
        rw [hqueue, List.append_assoc]
    | answered answer useCrc htrue => exact absurd (hfalse.symm.trans htrue) Bool.false_ne_true
    | set handler hsame => exact ⟨items, htrace, hsame.trans hqueue⟩

theorem invoke_queue (env : Surroundings) (reply : Reply)
    (hprocessing : e.handler.processingMessage = false) (invocation : Invocation) :
    ∃ items, (e.invoke env reply invocation).trace =
        e.trace ++ .invoked invocation :: items.map .queued ∧
      (e.invoke env reply invocation).handler.outgoingMessages =
        e.handler.outgoingMessages ++ items := by
  obtain ⟨items, htrace, hqueue⟩ := calls_queue (e := e.emit (.invoked invocation)) env hprocessing
    (if invocation.handler = .builtIn then [] else reply invocation)
  exact ⟨items, htrace.trans (List.append_assoc _ _ _), hqueue⟩

/-! ## The two outcomes -/

/-- The frame goes to the answer handler of the request, which is removed. -/
structure Dispatches (env : Surroundings) (reply : Reply) (e : Endpoint) (msg : OutgoingQueueItem)
    (a : Arrival) : Prop where
  handled : ∃ items, (e.loop env reply).trace = e.trace ++ .began (env.clock e.ticks) ::
      .invoked (.answer (e.handler.answerHandler msg.message.frameType) msg.message.frameType
        (some msg.id) a) :: items.map .queued ++ [.removed msg.id, .entered .idle] ∧
    (e.loop env reply).handler.outgoingMessages = e.handler.outgoingMessages.tail ++ items
  arrivals : (e.loop env reply).arrivals = (e.receive env).arrivals.tail
  state : (e.loop env reply).handler.state = .idle

/-- The frames stay where they are.  The request stays if it may be tried again. -/
structure TimesOut (env : Surroundings) (reply : Reply) (e : Endpoint) (msg : OutgoingQueueItem) :
    Prop where
  retried : msg.numberOfRetries ≠ 0 →
    (e.loop env reply).trace = e.trace ++
      [.began (env.clock e.ticks), .accessed msg.id true, .entered .idle] ∧
    (e.loop env reply).handler.outgoingMessages = e.handler.outgoingMessages
  expired : msg.numberOfRetries = 0 → ∃ items,
    (e.loop env reply).trace = e.trace ++ .began (env.clock e.ticks) :: .accessed msg.id true ::
      .removed msg.id :: .invoked (.timeout (e.handler.timeoutHandler msg.message.frameType)
        msg.message.frameType msg.id) :: items.map .queued ++ [.entered .idle] ∧
    (e.loop env reply).handler.outgoingMessages = e.handler.outgoingMessages.tail ++ items
  arrivals : (e.loop env reply).arrivals = (e.receive env).arrivals
  state : (e.loop env reply).handler.state = .idle

/-- The state when the clock has been looked at. -/
theorem loop_waiting (hwaiting : e.handler.state = .waitingForAnswer) :
    e.loop env reply =
      if env.clock e.ticks > e.handler.answerTimePoint then
        ((e.receive env).look env).answerTimeout env reply (env.clock e.ticks)
      else if (e.receive env).handler.transport.incomingQueue.length > 0 then
        ((e.receive env).look env).answerReceived env reply (env.clock e.ticks)
      else (e.receive env).look env := by
  have hstate : ((e.receive env).look env).handler.state = .waitingForAnswer := hwaiting
  rw [loop, turn, hstate]
  rfl

theorem dispatches (h : Service.Serves e d) (hwaiting : e.handler.state = .waitingForAnswer)
    (hqueue : e.handler.outgoingMessages = msg :: rest)
    (htype : e.handler.lastMessageType = msg.message.frameType) {a : Arrival}
    {arrivals : List Arrival} (harrivals : (e.receive env).arrivals = a :: arrivals)
    (hnow : env.clock e.ticks ≤ e.handler.answerTimePoint) : Dispatches env reply e msg a := by
  let e₀ := (e.receive env).look env
  have hline : Line e₀ := ((h.receive env).look env).line
  obtain ⟨transport, hpop, _⟩ := hline.popFrame_cons harrivals
  let e₁ := e₀.withFrames transport arrivals
  let invocation := Invocation.answer (e₁.handler.answerHandler e₁.handler.lastMessageType)
    e₁.handler.lastMessageType (e₁.handler.outgoingMessages.head?.map (·.id)) a
  have hinvocation : invocation = .answer (e.handler.answerHandler msg.message.frameType)
      msg.message.frameType (some msg.id) a := by
    show Invocation.answer (e.handler.answerHandler e.handler.lastMessageType)
      e.handler.lastMessageType (e.handler.outgoingMessages.head?.map (·.id)) a = _
    rw [htype, hqueue]
    rfl
  obtain ⟨items, htrace, hitems⟩ := invoke_queue (e := e₁) env reply h.processing invocation
  have hcalls := invoke_undisturbed env reply e₁ invocation
  have hitems' : (e₁.invoke env reply invocation).handler.outgoingMessages =
      msg :: (rest ++ items) := hitems.trans (congrArg (· ++ items) hqueue)
  have hany : (e.receive env).handler.transport.incomingQueue.length > 0 := by
    rw [← (h.receive env).line.length_arrivals, harrivals]
    exact Nat.succ_pos _
  have hloop : e.loop env reply =
      (((e₁.invoke env reply invocation).popOutgoing.setRetryTimePoint
        (env.clock e.ticks)).setState .idle) := by
    have hintime : ¬env.clock e.ticks > e.handler.answerTimePoint :=
      Int.not_lt.mpr hnow
    rw [loop_waiting hwaiting, if_neg hintime, if_pos hany, answerReceived, hpop]
  rw [popOutgoing_cons msg _ hitems'] at hloop
  refine ⟨⟨items, ?_, ?_⟩, ?_, ?_⟩
  · rw [hloop]
    show (e₁.invoke env reply invocation).trace ++ [.removed msg.id] ++ [.entered .idle] = _
    rw [htrace, hinvocation]
    show (e.trace ++ [_]) ++ _ ++ _ ++ _ = _
    simp only [List.append_assoc, List.cons_append, List.nil_append]
    rfl
  · rw [hloop, hqueue]
    rfl
  · rw [hloop, harrivals]
    generalize e₁.invoke env reply invocation = e₂ at hcalls ⊢
    exact hcalls.arrivals
  · rw [hloop]
    rfl

theorem timesOut (h : Service.Serves e d) (hwaiting : e.handler.state = .waitingForAnswer)
    (hqueue : e.handler.outgoingMessages = msg :: rest)
    (htype : e.handler.lastMessageType = msg.message.frameType)
    (hnow : e.handler.answerTimePoint < env.clock e.ticks) : TimesOut env reply e msg := by
  let e₁ := ((e.receive env).look env).emit (.accessed msg.id true)
  have haccess : ((e.receive env).look env).access msg.id = e₁ := by
    have hpresent : e.handler.outgoingMessages.any (·.id == msg.id) = true := by simp [hqueue]
    show ((e.receive env).look env).emit
      (.accessed msg.id (e.handler.outgoingMessages.any (·.id == msg.id))) = e₁
    rw [hpresent]
  have hloop : e.loop env reply =
      ((e.receive env).look env).answerTimeout env reply (env.clock e.ticks) := by
    rw [loop_waiting hwaiting, if_pos hnow]
  rw [answerTimeout, show ((e.receive env).look env).handler.outgoingMessages = msg :: rest from
    hqueue] at hloop
  dsimp only at hloop
  rw [haccess] at hloop
  by_cases hretries : msg.numberOfRetries = 0
  · let e₂ := ({ e₁ with handler := { e₁.handler with outgoingMessages := rest } }.emit
      (.removed msg.id)).setRetryTimePoint (env.clock e.ticks)
    let invocation := Invocation.timeout (e.handler.timeoutHandler e.handler.lastMessageType)
      e.handler.lastMessageType msg.id
    obtain ⟨items, htrace, hitems⟩ := invoke_queue (e := e₂) env reply h.processing invocation
    have hcalls := invoke_undisturbed env reply e₂ invocation
    rw [if_pos hretries, popOutgoing_cons msg rest (e := e₁) hqueue] at hloop
    have hlast : e.loop env reply = (e₂.invoke env reply invocation).setState .idle := hloop
    refine ⟨fun hne => absurd hretries hne, fun _ => ⟨items, ?_, ?_⟩, ?_, ?_⟩
    · rw [hlast]
      show (e₂.invoke env reply invocation).trace ++ [.entered .idle] = _
      rw [htrace, ← htype]
      show (e.trace ++ [_] ++ [_] ++ [_]) ++ _ ++ _ = _
      simp only [List.append_assoc, List.cons_append, List.nil_append]
      rfl
    · rw [hlast, hqueue]
      exact hitems
    · rw [hlast]
      exact hcalls.arrivals
    · rw [hlast]
      rfl
  · rw [if_neg hretries] at hloop
    refine ⟨fun _ => ⟨?_, ?_⟩, fun heq => absurd heq hretries, ?_, ?_⟩
    · rw [hloop]
      show (e.trace ++ [_] ++ [_]) ++ [_] = _
      simp only [List.append_assoc, List.cons_append, List.nil_append]
      rfl
    · rw [hloop]
      rfl
    · rw [hloop]
      rfl
    · rw [hloop]
      rfl

end Endpoint

open Endpoint

/-- In every run: when `loop` is called while an answer is awaited and finds a frame, the first
frame is dispatched as the answer to the pending request if the deadline has not passed.  If it
has, the request times out. -/
theorem run_deadline (cells : Nat → UInt8) (bufferSize : Nat) (env : Surroundings)
    (steps : List Step) (reply : Reply) :
    let e := (start cells bufferSize).run env steps
    e.handler.state = .waitingForAnswer → (e.receive env).handler.transport.incomingQueue ≠ [] →
      ∃ msg a, e.handler.outgoingMessages.head? = some msg ∧
        (e.receive env).handler.transport.incomingQueue.head? = some a.frame ∧
        (env.clock e.ticks ≤ e.handler.answerTimePoint → Dispatches env reply e msg a) ∧
        (e.handler.answerTimePoint < env.clock e.ticks → TimesOut env reply e msg) := by
  intro e hwaiting hframes
  obtain ⟨d, h⟩ := Service.serves_run cells bufferSize env steps
  obtain ⟨msg, w, hawaits⟩ := awaits_of_serves h (ledger_run cells bufferSize env steps) hwaiting
  obtain ⟨rest, hqueue⟩ : ∃ rest, e.handler.outgoingMessages = msg :: rest :=
    List.head?_eq_some_iff.mp hawaits.head
  have hmatch : (e.receive env).arrivals.map Arrival.frame =
      (e.receive env).handler.transport.incomingQueue := (h.receive env).line.queue
  cases harrivals : (e.receive env).arrivals with
  | nil =>
    rw [harrivals] at hmatch
    exact absurd hmatch.symm hframes
  | cons a arrivals =>
    rw [harrivals] at hmatch
    exact ⟨msg, a, hawaits.head, by rw [← hmatch]; rfl,
      dispatches h hwaiting hqueue hawaits.type.symm harrivals,
      timesOut h hwaiting hqueue hawaits.type.symm⟩

/-! ## A late call of the loop -/

theorem noPayload_le : ([] : List UInt8).length ≤ 233 := Nat.zero_le _

/-- A request is written, and its answer comes in before `loop` is called again. -/
def answeredRequest : List Step :=
  [.call (.sendMessage ⟨0x61, noSubcommand, []⟩ true 0 0), .loop fun _ => [],
    .arrive (Packet.wire ⟨0x05, [], true, noPayload_le⟩)]

/-- With a clock that stands still, `loop` is never late. -/
theorem run_deadline_prompt :
    let env : Surroundings := ⟨fun _ => 0, fun _ _ => 0, fun _ _ => 0⟩
    let reply : Reply := fun _ => []
    let e := (start (fun _ => 0) 251).run env answeredRequest
    ∃ msg a, e.handler.outgoingMessages.head? = some msg ∧
      (e.receive env).handler.transport.incomingQueue.head? = some a.frame ∧
      (env.clock e.ticks ≤ e.handler.answerTimePoint → Dispatches env reply e msg a) ∧
      (e.handler.answerTimePoint < env.clock e.ticks → TimesOut env reply e msg) :=
  run_deadline (fun _ => 0) 251 _ answeredRequest _ (by decide +kernel) (by decide +kernel)

/-- A second later the answer is there, and the request times out. -/
theorem answeredRequest_not_dispatched :
    ¬∀ steps reply, let e := (start (fun _ => 0) 251).run everySecond steps
      e.handler.state = .waitingForAnswer →
        (e.receive everySecond).handler.transport.incomingQueue ≠ [] →
          ∃ msg a, Dispatches everySecond reply e msg a := by
  intro h
  obtain ⟨msg, a, hdispatches⟩ :=
    h answeredRequest (fun _ => []) (by decide +kernel) (by decide +kernel)
  have hleft := congrArg List.length hdispatches.arrivals
  revert hleft
  decide +kernel

end HaierProtocol
