import HaierProtocol.Protocol.Answering
import HaierProtocol.Protocol.Draining
import HaierProtocol.Protocol.Pacing

/-!
# A dead line

When nothing comes in any more, the protocol handler gives up on its messages one after another.
With `limit` as a bound for all intervals, calls of `loop` that are further apart than that find
every time point in the past, so each of them is ripe.
-/

namespace HaierProtocol

/-! ## Time points -/

/-- The interval is not negative and no longer than `limit`, which is in nanoseconds. -/
def IntervalWithin (limit interval : Int) : Prop :=
  0 ≤ milliseconds interval ∧ milliseconds interval ≤ limit

/-- The end of an interval, which may have overflowed, is not too far ahead. -/
theorem addMilliseconds_within {limit time later : TimePoint} {interval : Int} (htime : 0 ≤ time)
    (hlater : time ≤ later) (h : IntervalWithin limit interval) :
    addMilliseconds time interval ≤ later + limit := by
  have hsum : 0 ≤ time + milliseconds interval := Int.add_nonneg htime h.1
  have hearlier : addMilliseconds time interval ≤ time + milliseconds interval :=
    addMilliseconds_le (Int.le_trans (by decide) hsum)
  exact hearlier.trans (Int.add_le_add hlater h.2)

def ApiCall.Within (limit : Int) : ApiCall → Prop
  | .sendMessage _ _ _ interval => IntervalWithin limit interval
  | .setAnswerTimeout interval => IntervalWithin limit interval
  | .setCooldownInterval interval => IntervalWithin limit interval
  | _ => True

def Invocation.IsTimeout : Invocation → Prop
  | .timeout _ _ _ => True
  | _ => False

def Endpoint.Step.Within (limit : Int) : Endpoint.Step → Prop
  | .arrive _ => True
  | .call c => c.Within limit
  | .loop reply => ∀ invocation, ∀ c ∈ reply invocation, c.Within limit

namespace Endpoint

variable {env : Surroundings} {reply : Reply} {e e' : Endpoint} {d : Desk} {limit : Int}
  {now now' : TimePoint}

/-- When the clock was read last. -/
def lastRead (env : Surroundings) (e : Endpoint) : TimePoint := env.clock (e.ticks - 1)

/-- The clock has been read at `now` or later, and nothing is further ahead of the last time than
`limit`. -/
structure Within (env : Surroundings) (limit : Int) (now : TimePoint) (e : Endpoint) : Prop where
  cooldownInterval : IntervalWithin limit e.handler.cooldownInterval
  answerTimeoutInterval : IntervalWithin limit e.handler.answerTimeoutInterval
  retryInterval : ∀ item ∈ e.handler.outgoingMessages, IntervalWithin limit item.retryInterval
  cooldown : e.handler.cooldownTimePoint ≤ e.lastRead env + limit
  answer : e.handler.answerTimePoint ≤ e.lastRead env + limit
  retry : e.handler.retryTimePoint ≤ e.lastRead env + limit
  past : now ≤ e.lastRead env
  begun : 0 ≤ now

namespace Within

theorem lastRead_le (hclock : Monotone env.clock) (e : Endpoint) :
    e.lastRead env ≤ env.clock e.ticks := hclock (Nat.sub_le _ _)

/-- The clock is read once more. -/
theorem read (hclock : Monotone env.clock) (h : Within env limit now e)
    (hhandler : e'.handler = e.handler) (hticks : e'.ticks = e.ticks + 1)
    (hpast : now' ≤ env.clock e.ticks) (hbegun : 0 ≤ now') : Within env limit now' e' := by
  have hlast : e'.lastRead env = env.clock e.ticks := by
    rw [lastRead, hticks]
    rfl
  have hle := lastRead_le hclock e
  refine ⟨hhandler ▸ h.cooldownInterval, hhandler ▸ h.answerTimeoutInterval,
    hhandler ▸ h.retryInterval, ?_, ?_, ?_, hlast ▸ hpast, hbegun⟩
  · rw [hhandler, hlast]
    exact h.cooldown.trans (Int.add_le_add_right hle _)
  · rw [hhandler, hlast]
    exact h.answer.trans (Int.add_le_add_right hle _)
  · rw [hhandler, hlast]
    exact h.retry.trans (Int.add_le_add_right hle _)

theorem wrote (hclock : Monotone env.clock) (h : Within env limit now e) {w : Write}
    (hnow : w.now = env.clock e.ticks) : Within env limit now (e.wrote w) := by
  have hpast : now ≤ env.clock e.ticks := h.past.trans (lastRead_le hclock e)
  have hread : Within env limit now { e with ticks := e.ticks + 1 } :=
    h.read hclock rfl rfl hpast h.begun
  obtain ⟨hcooldown, hanswer, hretry, _, ha, hr, hp, hbegun⟩ := hread
  refine ⟨hcooldown, hanswer, hretry, ?_, ha, hr, hp, hbegun⟩
  show addMilliseconds w.now _ ≤ env.clock e.ticks + limit
  rw [hnow]
  exact addMilliseconds_within (hbegun.trans hpast) (Int.le_refl _) h.cooldownInterval

theorem emit (h : Within env limit now e) (event : Event) : Within env limit now (e.emit event) :=
  ⟨h.cooldownInterval, h.answerTimeoutInterval, h.retryInterval, h.cooldown, h.answer, h.retry,
    h.past, h.begun⟩

theorem enqueue (h : Within env limit now e) {item : OutgoingQueueItem}
    (hitem : IntervalWithin limit item.retryInterval) : Within env limit now (e.enqueue item) := by
  refine ⟨h.cooldownInterval, h.answerTimeoutInterval, ?_, h.cooldown, h.answer, h.retry, h.past,
    h.begun⟩
  intro other hother
  rcases List.mem_append.mp hother with hold | hnew
  · exact h.retryInterval other hold
  · rw [List.mem_singleton.mp hnew]
    exact hitem

theorem call (hclock : Monotone env.clock) (hlimit : 0 ≤ limit) (h : Within env limit now e)
    {c : ApiCall} (hc : c.Within limit) : Within env limit now (e.call env c) := by
  have hsame : Within env limit now e := h
  obtain ⟨hcooldown, hanswer, hretry, h₁, h₂, h₃, hpast, hbegun⟩ := h
  cases c with
  | sendMessage message useCrc numRepeats interval => exact hsame.enqueue hc
  | sendMessageWithoutAnswer message useCrc => exact hsame.enqueue ⟨Int.le_refl _, hlimit⟩
  | sendAnswer answer useCrc =>
    rw [Endpoint.call, sendAnswer]
    split
    · rw [write_eq]
      obtain ⟨hcooldown, hanswer, hretry, h₁, h₂, h₃, hpast, hbegun⟩ := hsame.wrote hclock
        (w := e.writeOf env (.answer e.current) answer
          (useCrc.getD e.handler.incomingMessageCrcStatus)) rfl
      exact ⟨hcooldown, hanswer, hretry, h₁, h₂, h₃, hpast, hbegun⟩
    · exact hsame
  | noAnswer =>
    show Within env limit now { e with handler := e.handler.noAnswer }
    rw [ProtocolHandler.noAnswer]
    split
    · exact ⟨hcooldown, hanswer, hretry, h₁, h₂, h₃, hpast, hbegun⟩
    · exact hsame
  | setAnswerTimeout interval => exact ⟨hcooldown, hc, hretry, h₁, h₂, h₃, hpast, hbegun⟩
  | setCooldownInterval interval => exact ⟨hc, hanswer, hretry, h₁, h₂, h₃, hpast, hbegun⟩
  | _ => exact ⟨hcooldown, hanswer, hretry, h₁, h₂, h₃, hpast, hbegun⟩

theorem calls (hclock : Monotone env.clock) (hlimit : 0 ≤ limit) :
    ∀ (apiCalls : List ApiCall) {e : Endpoint}, Within env limit now e →
      (∀ c ∈ apiCalls, c.Within limit) → Within env limit now (e.calls env apiCalls)
  | [], _, h, _ => h
  | c :: rest, _, h, hall =>
    calls hclock hlimit rest (h.call hclock hlimit (hall c List.mem_cons_self))
      fun c' hc' => hall c' (List.mem_cons_of_mem c hc')

theorem invoke (hclock : Monotone env.clock) (hlimit : 0 ≤ limit) (h : Within env limit now e)
    (hreply : ∀ invocation, ∀ c ∈ reply invocation, c.Within limit) (invocation : Invocation) :
    Within env limit now (e.invoke env reply invocation) := by
  refine (h.emit (.invoked invocation)).calls hclock hlimit _ ?_
  split
  · exact fun c hc => absurd hc List.not_mem_nil
  · exact hreply invocation

theorem setRetryTimePoint (hlimit : 0 ≤ limit) (h : Within env limit now e) :
    Within env limit now (e.setRetryTimePoint now) :=
  ⟨h.cooldownInterval, h.answerTimeoutInterval, h.retryInterval, h.cooldown, h.answer,
    h.past.trans (Int.le_add_of_nonneg_right hlimit), h.past, h.begun⟩

theorem popOutgoing (h : Within env limit now e) : Within env limit now e.popOutgoing := by
  have hretry := h.retryInterval
  rw [Endpoint.popOutgoing]
  split
  · exact h.emit .emptyQueue
  · next msg rest hqueue =>
    rw [hqueue] at hretry
    exact ⟨h.cooldownInterval, h.answerTimeoutInterval,
      fun item hitem => hretry item (List.mem_cons_of_mem msg hitem), h.cooldown, h.answer,
      h.retry, h.past, h.begun⟩

theorem decrement (h : Within env limit now e) (id : Nat) :
    Within env limit now { e with handler := e.handler.decrementRetries id } := by
  refine ⟨h.cooldownInterval, h.answerTimeoutInterval, ?_, h.cooldown, h.answer, h.retry, h.past,
    h.begun⟩
  intro item hitem
  obtain ⟨other, hother, rfl⟩ := List.mem_map.mp hitem
  have hsame := h.retryInterval other hother
  split
  · exact hsame
  · exact hsame

theorem sendHead (hclock : Monotone env.clock) (hlimit : 0 ≤ limit) (h : Within env limit now e)
    {msg : OutgoingQueueItem} (hmsg : msg ∈ e.handler.outgoingMessages) :
    Within env limit now (e.sendHead env msg now) := by
  have hinterval := h.retryInterval msg hmsg
  have hwrote := ((h.emit (.accessed msg.id _)).wrote hclock
    (w := (e.access msg.id).writeOf env (.request msg.id) msg.message msg.useCrc) rfl).emit
      (.accessed msg.id (e.handler.outgoingMessages.any (·.id == msg.id)))
  have hlast : ∀ e' : Endpoint, Within env limit now e' → Within env limit now
      { e'.access msg.id with handler := (e'.access msg.id).handler.decrementRetries msg.id } :=
    fun e' he => (he.emit _).decrement msg.id
  obtain ⟨hcooldown, hanswer, hretry, h₁, h₂, h₃, hpast, hbegun⟩ := hwrote
  rw [Endpoint.sendHead, write_eq]
  dsimp only
  split
  · split
    · refine hlast _ (setRetryTimePoint hlimit (popOutgoing ?_))
      exact ⟨hcooldown, hanswer, hretry, h₁, h₂, h₃, hpast, hbegun⟩
    · refine hlast _ ⟨hcooldown, hanswer, hretry, h₁, ?_, ?_, hpast, hbegun⟩
      · exact addMilliseconds_within hbegun hpast hanswer
      · exact addMilliseconds_within hbegun hpast hinterval
  · refine hlast _ ⟨hcooldown, hanswer, hretry, h₁, h₂, h₃, hpast, hbegun⟩

theorem sendNext (hclock : Monotone env.clock) (hlimit : 0 ≤ limit) (h : Within env limit now e) :
    Within env limit now (e.sendNext env now) := by
  rw [Endpoint.sendNext]
  split
  · exact h
  · next msg rest hqueue =>
    have haccess := h.emit (.accessed msg.id (e.handler.outgoingMessages.any (·.id == msg.id)))
    split
    · dsimp only
      split
      · exact haccess.sendHead hclock hlimit (hqueue ▸ List.mem_cons_self)
      · exact setRetryTimePoint hlimit (popOutgoing haccess)
    · exact h

theorem popFrame (h : Within env limit now e) : Within env limit now e.popFrame.1 :=
  ⟨h.cooldownInterval, h.answerTimeoutInterval, h.retryInterval, h.cooldown, h.answer, h.retry,
    h.past, h.begun⟩

theorem handleIncoming (hclock : Monotone env.clock) (hlimit : 0 ≤ limit)
    (h : Within env limit now e)
    (hreply : ∀ invocation, ∀ c ∈ reply invocation, c.Within limit) :
    Within env limit now (e.handleIncoming env reply) := by
  have hprocess : ∀ (e' : Endpoint) (a : Arrival), Within env limit now e' →
      Within env limit now (e'.processMessage env reply a) := by
    intro e' a h'
    have hbegun : Within env limit now { e' with
        handler := { e'.handler with
          incomingMessageCrcStatus := a.frame.frame.useCrc
          processingMessage := true
          answerSent := false }
        current := some a } :=
      ⟨h'.cooldownInterval, h'.answerTimeoutInterval, h'.retryInterval, h'.cooldown, h'.answer,
        h'.retry, h'.past, h'.begun⟩
    obtain ⟨hcooldown, hanswer, hretry, h₁, h₂, h₃, hpast, hbegun⟩ :=
      hbegun.invoke hclock hlimit hreply (.message (e'.handler.messageHandler
        a.frame.frame.frameType) a)
    exact ⟨hcooldown, hanswer, hretry, h₁, h₂, h₃, hpast, hbegun⟩
  have hdrop : Within env limit now
      (e.dropFrames (e.handler.transport.incomingQueue.length - 1)) :=
    ⟨h.cooldownInterval, h.answerTimeoutInterval, h.retryInterval, h.cooldown, h.answer, h.retry,
      h.past, h.begun⟩
  rw [Endpoint.handleIncoming]
  dsimp only
  split
  · split
    · exact hprocess _ _ hdrop.popFrame
    · exact hprocess _ _ h.popFrame
  · split
    · exact hdrop
    · exact h

theorem answerTimeout (hclock : Monotone env.clock) (hlimit : 0 ≤ limit)
    (h : Within env limit now e)
    (hreply : ∀ invocation, ∀ c ∈ reply invocation, c.Within limit) :
    Within env limit now (e.answerTimeout env reply now) := by
  have hidle : ∀ e' : Endpoint, Within env limit now e' →
      Within env limit now (e'.setState .idle) := fun e' h' =>
    ⟨h'.cooldownInterval, h'.answerTimeoutInterval, h'.retryInterval, h'.cooldown, h'.answer,
      h'.retry, h'.past, h'.begun⟩
  rw [Endpoint.answerTimeout]
  split
  · exact h.emit .emptyQueue
  · next msg rest hqueue =>
    have haccess := h.emit (.accessed msg.id (e.handler.outgoingMessages.any (·.id == msg.id)))
    dsimp only
    split
    · exact hidle _ ((setRetryTimePoint hlimit (popOutgoing haccess)).invoke hclock hlimit hreply _)
    · exact hidle _ haccess

theorem answerReceived (hclock : Monotone env.clock) (hlimit : 0 ≤ limit)
    (h : Within env limit now e)
    (hreply : ∀ invocation, ∀ c ∈ reply invocation, c.Within limit) :
    Within env limit now (e.answerReceived env reply now) := by
  have hinvoked := h.popFrame.invoke hclock hlimit hreply (.answer
    (e.handler.answerHandler e.handler.lastMessageType) e.handler.lastMessageType
    (e.handler.outgoingMessages.head?.map (·.id)) e.popFrame.2)
  obtain ⟨hcooldown, hanswer, hretry, h₁, h₂, h₃, hpast, hbegun⟩ :=
    setRetryTimePoint hlimit (popOutgoing hinvoked)
  exact ⟨hcooldown, hanswer, hretry, h₁, h₂, h₃, hpast, hbegun⟩

theorem loop (hclock : Monotone env.clock) (hlimit : 0 ≤ limit) (h : Within env limit now e)
    (hreply : ∀ invocation, ∀ c ∈ reply invocation, c.Within limit) :
    Within env limit (env.clock e.ticks) (e.loop env reply) := by
  have hreceived : Within env limit now (e.receive env) :=
    ⟨h.cooldownInterval, h.answerTimeoutInterval, h.retryInterval, h.cooldown, h.answer, h.retry,
      h.past, h.begun⟩
  have hlook : Within env limit (env.clock e.ticks) ((e.receive env).look env) :=
    hreceived.read hclock rfl rfl (Int.le_refl _)
      (h.begun.trans (h.past.trans (lastRead_le hclock e)))
  rw [Endpoint.loop, turn]
  split
  · exact (hlook.handleIncoming hclock hlimit hreply).sendNext hclock hlimit
  · split
    · exact hlook.answerTimeout hclock hlimit hreply
    · split
      · exact hlook.answerReceived hclock hlimit hreply
      · exact hlook

end Within

theorem within_start (hlimit : milliseconds defaultCooldownInterval ≤ limit)
    (hstart : 0 ≤ env.clock 0) (cells : Nat → UInt8) (bufferSize : Nat) :
    Within env limit (env.clock 0) (start cells bufferSize) := by
  have hanswer : milliseconds defaultAnswerTimeout ≤ milliseconds defaultCooldownInterval := by
    decide
  have hnonneg : 0 ≤ limit := Int.le_trans (by decide) hlimit
  have hcooldown : IntervalWithin limit defaultCooldownInterval := ⟨by decide, hlimit⟩
  have htimeout : IntervalWithin limit defaultAnswerTimeout := ⟨by decide, hanswer.trans hlimit⟩
  have hahead : 0 ≤ env.clock 0 + limit := Int.add_nonneg hstart hnonneg
  exact ⟨hcooldown, htimeout,
    fun _ hitem => absurd hitem List.not_mem_nil, hahead, hahead, hahead, Int.le_refl _, hstart⟩

theorem within_run (hclock : Monotone env.clock)
    (hlimit : milliseconds defaultCooldownInterval ≤ limit) (hstart : 0 ≤ env.clock 0)
    (cells : Nat → UInt8) (bufferSize : Nat) (steps : List Step)
    (hsteps : ∀ s ∈ steps, s.Within limit) :
    ∃ now, Within env limit now ((start cells bufferSize).run env steps) := by
  have hnonneg : 0 ≤ limit := Int.le_trans (by decide) hlimit
  induction steps using List.reverseRecOn with
  | nil => exact ⟨_, within_start hlimit hstart cells bufferSize⟩
  | append_singleton steps s ih =>
    obtain ⟨now, h⟩ := ih fun s' hs' => hsteps s' (List.mem_append_left _ hs')
    have hs := hsteps s (List.mem_append_right _ List.mem_cons_self)
    rw [run_snoc]
    cases s with
    | arrive bytes =>
      exact ⟨now, h.cooldownInterval, h.answerTimeoutInterval, h.retryInterval, h.cooldown,
        h.answer, h.retry, h.past, h.begun⟩
    | call c => exact ⟨now, h.call hclock hnonneg hs⟩
    | loop reply => exact ⟨_, h.loop hclock hnonneg hs⟩

/-! ## Calls of `loop` on a dead line -/

theorem length_requestsOf {trace : List Event} (h : Replay.Replays Desk.Step Desk.start trace d) :
    (requestsOf trace).length = d.nextId := by
  refine Replay.replays_induction (P := fun trace d => (requestsOf trace).length = d.nextId) rfl
    ?_ h
  intro before event m m' _ hlength hstep
  rw [requestsOf_append, List.length_append, hlength]
  cases hstep <;> rfl

/-- Handlers that only answer queue nothing. -/
theorem requestsOf_loop (h : Service.Serves e d) (hreply : OnlyAnswers reply)
    (env : Surroundings) : requestsOf (e.loop env reply).trace = requestsOf e.trace := by
  obtain ⟨more, d', htrace, h', _, hnext⟩ := loop_replays h hreply env
  have hlength := length_requestsOf h'.replays
  rw [hnext, ← length_requestsOf h.replays, htrace, requestsOf_append, List.length_append]
    at hlength
  have hnone : requestsOf more = [] := List.eq_nil_of_length_eq_zero (by omega)
  rw [htrace, requestsOf_append, hnone, List.append_nil]

theorem ordered_loop (h : Service.Serves e d) (hreply : OnlyAnswers reply) (env : Surroundings) :
    (e.loop env reply).ordered = e.ordered := congrArg effortOf (requestsOf_loop h hreply env)

theorem length_le_of_step {d' : Desk} {event : Event} (h : Desk.Step d event d')
    (hnext : d'.nextId = d.nextId) : d'.queue.length ≤ d.queue.length := by
  cases h with
  | queued => exact absurd hnext (Nat.succ_ne_self _)
  | exhausted => exact Nat.le_succ _
  | delivered => exact Nat.le_succ _
  | expires => exact Nat.le_succ _
  | resolved => exact Nat.le_succ _
  | _ => exact Nat.le_refl _

theorem length_le_of_replays : ∀ {more : List Event} {d d' : Desk},
    Replay.Replays Desk.Step d more d' → d'.nextId = d.nextId → d'.queue.length ≤ d.queue.length
  | [], _, _, h, _ => Nat.le_of_eq (congrArg (·.queue.length) h).symm
  | _ :: _, _, _, ⟨_, hstep, h⟩, hnext => by
    have hfirst := hstep.nextId_le
    have hrest := Desk.replays_nextId_le h
    exact (length_le_of_replays h (by omega)).trans (length_le_of_step hstep (by omega))

theorem length_loop (h : Service.Serves e d) (hreply : OnlyAnswers reply) (env : Surroundings) :
    (e.loop env reply).handler.outgoingMessages.length ≤ e.handler.outgoingMessages.length := by
  obtain ⟨more, d', _, h', hmore, hnext⟩ := loop_replays h hreply env
  rw [h.queue, h'.queue]
  exact length_le_of_replays hmore hnext

theorem handleIncoming_none (env : Surroundings) (reply : Reply)
    (hnone : e.handler.transport.incomingQueue = []) : e.handleIncoming env reply = e := by
  rw [handleIncoming, hnone]
  rfl

/-- Without a frame no handlers but those for timeouts are called. -/
theorem changes_loop_none (hprocessing : e.handler.processingMessage = false)
    (env : Surroundings) (reply : Reply)
    (hnone : (e.receive env).handler.transport.incomingQueue = []) :
    Changes env Invocation.IsTimeout e (e.loop env reply) := by
  have hlook : Changes env Invocation.IsTimeout e ((e.receive env).look env) :=
    Changes.emitted (.single .received) (.began (env.clock (e.receive env).ticks))
      ⟨rfl, rfl, rfl, rfl, rfl, rfl, rfl, rfl⟩ rfl rfl rfl fun _ => Event.noConfusion
  have hempty : ((e.receive env).look env).handler.transport.incomingQueue = [] := hnone
  rw [loop, turn]
  split
  · rw [handleIncoming_none env reply hempty]
    exact hlook.sendNext _
  · split
    · rw [answerTimeout]
      split
      · exact hlook.emitted .emptyQueue ⟨rfl, rfl, rfl, rfl, rfl, rfl, rfl, rfl⟩ rfl rfl rfl
          fun _ => Event.noConfusion
      · next msg rest _ =>
        have haccess := hlook.access msg.id
        refine Changes.setState ?_ .idle
        split
        · exact (haccess.popOutgoing.setRetryTimePoint _).invoke_timeout
            ((((SameLine.access _ msg.id).popOutgoing).setRetryTimePoint _).processing.trans
              hprocessing) trivial
        · exact haccess
    · rw [hempty]
      exact hlook

/-- The time points are in the past. -/
theorem ripe_of_late (h : Service.Serves e d) (hwithin : Within env limit now e) (reply : Reply)
    (hnone : (e.receive env).handler.transport.incomingQueue = [])
    (hlate : e.lastRead env + limit < env.clock e.ticks) (hleft : 0 < e.backlog) :
    e.Ripe env (.loop reply) := by
  have hqueue : e.handler.outgoingMessages ≠ [] := by
    intro hempty
    cases hstate : e.handler.state with
    | idle => exact absurd (backlog_eq_zero.mpr ⟨hempty, hstate⟩) (Nat.ne_of_gt hleft)
    | waitingForAnswer =>
      obtain ⟨queue, n, phase⟩ := d
      obtain ⟨w, rfl⟩ := phase_waiting h hstate
      obtain ⟨msg, rest, hhead, _⟩ := h.waiting_head
      exact List.cons_ne_nil msg rest (hhead.symm.trans (h.queue.symm.trans hempty))
  refine ⟨fun _ => ?_, fun _ => ⟨hqueue, .inl (Int.lt_of_le_of_lt hwithin.answer hlate)⟩⟩
  have hsame : ((e.receive env).look env).handleIncoming env reply = (e.receive env).look env :=
    handleIncoming_none env reply hnone
  rw [hsame]
  exact ⟨hqueue, hwithin.cooldown.trans (Int.le_of_lt hlate),
    hwithin.retry.trans (Int.le_of_lt hlate)⟩

theorem backlog_loop (h : Service.Serves e d) (hwithin : Within env limit now e)
    (hreply : OnlyAnswers reply) (hnone : (e.receive env).handler.transport.incomingQueue = [])
    (hlate : e.lastRead env + limit < env.clock e.ticks) :
    (e.loop env reply).backlog ≤ e.backlog - 1 := by
  have hspends := spends_loop env reply e
  have hordered := ordered_loop h hreply env
  by_cases hleft : 0 < e.backlog
  · rw [if_pos (ripe_of_late h hwithin reply hnone hlate hleft)] at hspends
    have hone : (e.loop env reply).backlog + 1 + e.ordered ≤
      e.backlog + (e.loop env reply).ordered := hspends
    omega
  · have hzero : (e.loop env reply).backlog + 0 + e.ordered ≤
      e.backlog + (e.loop env reply).ordered := hspends.of_le (Nat.zero_le _)
    omega

/-- No frame comes in, and every call of `loop` is later than `limit` after the one before.  The
handlers queue nothing. -/
def DeadLine (env : Surroundings) (limit : Int) : Endpoint → List Reply → Prop
  | _, [] => True
  | e, reply :: rest => OnlyAnswers reply ∧
      (e.receive env).handler.transport.incomingQueue = [] ∧
      e.lastRead env + limit < env.clock e.ticks ∧ DeadLine env limit (e.loop env reply) rest

theorem requestsOf_dead : ∀ (replies : List Reply) {e : Endpoint} {d : Desk},
    Service.Serves e d → DeadLine env limit e replies →
      requestsOf (e.run env (replies.map .loop)).trace = requestsOf e.trace
  | [], _, _, _, _ => rfl
  | reply :: rest, e, _, h, hdead => by
    obtain ⟨_, h'⟩ : ∃ d, Service.Serves (e.loop env reply) d := h.loop
    exact (requestsOf_dead rest h' hdead.2.2.2).trans (requestsOf_loop h hdead.1 env)

theorem backlog_dead (hclock : Monotone env.clock) (hlimit : 0 ≤ limit) :
    ∀ (replies : List Reply) {e : Endpoint} {d : Desk} {now : TimePoint}, Service.Serves e d →
      Within env limit now e → DeadLine env limit e replies →
        (e.run env (replies.map .loop)).backlog ≤ e.backlog - replies.length
  | [], _, _, _, _, _, _ => Nat.le_refl _
  | reply :: rest, e, _, _, h, hwithin, hdead => by
    obtain ⟨hreply, hnone, hlate, hrest⟩ := hdead
    obtain ⟨_, h'⟩ : ∃ d, Service.Serves (e.loop env reply) d := h.loop
    have hasks : ∀ invocation, ∀ c ∈ reply invocation, c.Within limit := by
      intro invocation c hc
      obtain ⟨_, _, rfl⟩ := hreply invocation c hc
      trivial
    have hwithin' := hwithin.loop hclock hlimit hasks
    have hone := backlog_loop h hwithin hreply hnone hlate
    have hlater := backlog_dead hclock hlimit rest h' hwithin' hrest
    show ((e.loop env reply).run env (rest.map .loop)).backlog ≤ _
    rw [List.length_cons]
    omega

/-- After any run with intervals of at most `limit`: when nothing comes in any more and `loop` is
called at longer intervals than that, the queue is empty, and no answer is awaited, after at most
twice as many calls as there are tries left, with one more for each message and one for the answer
that is awaited. -/
theorem run_gives_up (cells : Nat → UInt8) (bufferSize : Nat) (env : Surroundings)
    (hclock : Monotone env.clock) (limit : Int)
    (hlimit : milliseconds defaultCooldownInterval ≤ limit) (hstart : 0 ≤ env.clock 0)
    (steps : List Step) (hsteps : ∀ s ∈ steps, s.Within limit) (replies : List Reply)
    (hdead : DeadLine env limit ((start cells bufferSize).run env steps) replies)
    (hcount : ((start cells bufferSize).run env steps).backlog ≤ replies.length) :
    let e := (start cells bufferSize).run env (steps ++ replies.map .loop)
    e.handler.outgoingMessages = [] ∧ e.handler.state = .idle := by
  intro e
  obtain ⟨d, hserves⟩ := Service.serves_run cells bufferSize env steps
  obtain ⟨now, hwithin⟩ := within_run hclock hlimit hstart cells bufferSize steps hsteps
  have hdone := backlog_dead hclock (Int.le_trans (by decide) hlimit) replies hserves hwithin hdead
  have hrun : e = ((start cells bufferSize).run env steps).run env (replies.map .loop) :=
    List.foldl_append ..
  rw [hrun]
  exact backlog_eq_zero.mp (by omega)

/-- A request that may be repeated once goes out. -/
def unanswered : List Step :=
  [.call (.sendMessage ⟨0x61, noSubcommand, []⟩ true 1 500), .loop fun _ => []]

def fourLoops : List Reply := List.replicate 4 fun _ => []

theorem run_gives_up_unanswered :
    let e := (start (fun _ => 0) 251).run everySecond (unanswered ++ fourLoops.map .loop)
    e.handler.outgoingMessages = [] ∧ e.handler.state = .idle := by
  have hnone : OnlyAnswers fun _ => [] := fun _ _ hc => absurd hc List.not_mem_nil
  have hclock : Monotone everySecond.clock := by
    intro m n hle
    show (m : Int) * 1000000000 ≤ n * 1000000000
    omega
  have hsteps : ∀ s ∈ unanswered, s.Within (milliseconds 500) := by
    simp only [unanswered, List.forall_mem_cons]
    exact ⟨⟨by decide, Int.le_refl _⟩, fun _ _ hc => absurd hc List.not_mem_nil,
      fun _ h => absurd h List.not_mem_nil⟩
  have hdead : DeadLine everySecond (milliseconds 500)
      ((start (fun _ => 0) 251).run everySecond unanswered) fourLoops :=
    ⟨hnone, by decide +kernel, by decide +kernel, hnone, by decide +kernel, by decide +kernel,
      hnone, by decide +kernel, by decide +kernel, hnone, by decide +kernel, by decide +kernel,
      trivial⟩
  exact run_gives_up (fun _ => 0) 251 everySecond hclock (milliseconds 500) (by decide)
    (by decide) unanswered hsteps fourLoops hdead (by decide +kernel)

end Endpoint
end HaierProtocol
