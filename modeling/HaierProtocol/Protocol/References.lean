import HaierProtocol.Protocol.Attempts
import HaierProtocol.Protocol.Outstanding
import HaierProtocol.Protocol.Resolution

/-!
# The reference to the head of the queue

`loop` holds a reference `msg` to the head of the outgoing queue while it writes the item and may
remove it.  Every use of the reference is recorded, with whether the item was still in the queue.
One use comes too late: the decrement of the retries of a notice that has just been written and
removed.  All others find the item, and retries are taken from no item but the one that was
attempted.
-/

namespace HaierProtocol

open ProtocolHandler

/-- The item is used after it was removed. -/
def Event.stale? : Event → Option Nat
  | .accessed id false => some id
  | _ => none

namespace Endpoint

/-- Of what `loop` records, only the write of a request and a late use of the reference matter. -/
structure Quiet (f : Event → Option Nat) : Prop where
  began : ∀ now, f (.began now) = none
  queued : ∀ item, f (.queued item) = none
  accessed : ∀ id, f (.accessed id true) = none
  replied : ∀ w processed, w.origin = .answer processed → f (.wrote w) = none
  entered : ∀ state, f (.entered state) = none
  removed : ∀ id, f (.removed id) = none
  emptyQueue : f .emptyQueue = none
  invoked : ∀ invocation, f (.invoked invocation) = none

theorem Quiet.stale : Quiet Event.stale? :=
  ⟨fun _ => rfl, fun _ => rfl, fun _ => rfl, fun _ _ _ => rfl, fun _ => rfl, fun _ => rfl, rfl,
    fun _ => rfl⟩

theorem Quiet.attempt : Quiet Event.attempt? :=
  ⟨fun _ => rfl, fun _ => rfl, fun _ => rfl, fun _ _ h => Write.request?_answer h, fun _ => rfl,
    fun _ => rfl, rfl, fun _ => rfl⟩

variable {env : Surroundings} {reply : Reply} {f : Event → Option Nat} {e : Endpoint}
  {msg : OutgoingQueueItem} {rest : List OutgoingQueueItem}

/-! ## What is quiet -/

theorem Quiet.calls (hf : Quiet f) (env : Surroundings) (apiCalls : List ApiCall) (e : Endpoint) :
    (e.calls env apiCalls).trace.filterMap f = e.trace.filterMap f := by
  refine calls_induction env (motive := fun e' => e'.trace.filterMap f = e.trace.filterMap f) ?_
    apiCalls rfl
  rintro e₁ e₂ h₁ hcalled
  cases hcalled with
  | queued item => exact (filterMap_snoc_none f _ (hf.queued item)).trans h₁
  | answered answer useCrc hprocessing =>
    rw [sendAnswer_eq env e₁ answer useCrc hprocessing]
    exact (filterMap_snoc_none f _ (hf.replied _ _ rfl)).trans h₁
  | set handler => exact h₁

theorem Quiet.invoke (hf : Quiet f) (env : Surroundings) (reply : Reply) (e : Endpoint)
    (invocation : Invocation) :
    (e.invoke env reply invocation).trace.filterMap f = e.trace.filterMap f :=
  (hf.calls env _ _).trans (filterMap_snoc_none f _ (hf.invoked invocation))

theorem Quiet.popOutgoing (hf : Quiet f) (e : Endpoint) :
    e.popOutgoing.trace.filterMap f = e.trace.filterMap f := by
  rw [Endpoint.popOutgoing]
  split
  · exact filterMap_snoc_none f _ hf.emptyQueue
  · exact filterMap_snoc_none f _ (hf.removed _)

theorem Quiet.setState (hf : Quiet f) (e : Endpoint) (state : ProtocolState) :
    (e.setState state).trace.filterMap f = e.trace.filterMap f :=
  filterMap_snoc_none f _ (hf.entered state)

/-- The reference is used while the item is there. -/
theorem access_head (h : e.handler.outgoingMessages = msg :: rest) :
    e.access msg.id = e.emit (.accessed msg.id true) := by
  rw [access, h, List.any_cons, beq_self_eq_true, Bool.true_or]

theorem Quiet.access (hf : Quiet f) (h : e.handler.outgoingMessages = msg :: rest) :
    (e.access msg.id).trace.filterMap f = e.trace.filterMap f := by
  rw [access_head h]
  exact filterMap_snoc_none f _ (hf.accessed msg.id)

theorem Quiet.processMessage (hf : Quiet f) (env : Surroundings) (reply : Reply) (e : Endpoint)
    (arrival : Arrival) :
    (e.processMessage env reply arrival).trace.filterMap f = e.trace.filterMap f :=
  hf.invoke env reply _ _

theorem Quiet.handleIncoming (hf : Quiet f) (hline : Line e) (env : Surroundings) (reply : Reply) :
    (e.handleIncoming env reply).trace.filterMap f = e.trace.filterMap f := by
  rcases hline.handleIncoming_cases env reply with ⟨_, heq⟩ | ⟨_, a, _, _, _, heq⟩
  · rw [heq]
  · rw [heq, hf.processMessage env reply _ a]
    rfl

theorem Quiet.answerTimeout (hf : Quiet f) (env : Surroundings) (reply : Reply) (e : Endpoint)
    (now : TimePoint) :
    (e.answerTimeout env reply now).trace.filterMap f = e.trace.filterMap f := by
  rw [Endpoint.answerTimeout]
  split
  · exact filterMap_snoc_none f _ hf.emptyQueue
  · rename_i msg rest hqueue
    have haccess := hf.access hqueue
    dsimp only
    rw [hf.setState]
    split
    · rw [hf.invoke]
      exact (hf.popOutgoing _).trans haccess
    · exact haccess

theorem Quiet.answerReceived (hf : Quiet f) (env : Surroundings) (reply : Reply) (e : Endpoint)
    (now : TimePoint) :
    (e.answerReceived env reply now).trace.filterMap f = e.trace.filterMap f := by
  rw [Endpoint.answerReceived]
  dsimp only
  rw [hf.setState]
  exact (hf.popOutgoing _).trans (hf.invoke env reply _ _)

/-! ## Sending -/

/-- The item is a notice that counts as sent. -/
def SentNotice (msg : OutgoingQueueItem) : Prop :=
  msg.noAnswer = true ∧ msg.message.Sendable msg.useCrc

/-- The head of the queue is due, and it has retries left. -/
def Due (e : Endpoint) (now : TimePoint) (msg : OutgoingQueueItem) : Prop :=
  e.handler.outgoingMessages.head? = some msg ∧ 0 < msg.numberOfRetries ∧
    e.handler.cooldownTimePoint ≤ now ∧ e.handler.retryTimePoint ≤ now

/-- What writing the head of the queue adds to the record: a write, and after a notice that counts
as sent a late use. -/
theorem Quiet.sendHead (hf : Quiet f) (env : Surroundings) (now : TimePoint)
    (h : e.handler.outgoingMessages = msg :: rest) (hothers : ∀ other ∈ rest, other.id ≠ msg.id) :
    ∃ w : Write, w.Transmits msg ∧
      (¬SentNotice msg → (e.sendHead env msg now).trace.filterMap f =
        (e.trace ++ [Event.wrote w]).filterMap f) ∧
      (SentNotice msg → (e.sendHead env msg now).trace.filterMap f =
        (e.trace ++ [Event.wrote w, Event.accessed msg.id false]).filterMap f) := by
  let w := (e.access msg.id).writeOf env (.request msg.id) msg.message msg.useCrc
  let e₁ := (e.access msg.id).wrote w
  have hwrote : e₁.trace.filterMap f = (e.trace ++ [Event.wrote w]).filterMap f := by
    show ((e.access msg.id).trace ++ [Event.wrote w]).filterMap f = _
    rw [List.filterMap_append, hf.access h, ← List.filterMap_append]
  have haccess : (e₁.access msg.id).trace.filterMap f = (e.trace ++ [Event.wrote w]).filterMap f :=
    (hf.access (e := e₁) h).trans hwrote
  rw [SentNotice, HaierMessage.sendable_iff]
  refine ⟨w, ⟨rfl, rfl, rfl, rfl⟩, ?_, ?_⟩
  · intro hnot
    rw [Endpoint.sendHead, write_eq]
    dsimp only
    split
    · rename_i hsent
      have hkind : ¬msg.noAnswer = true := fun hkind => hnot ⟨hkind, hsent⟩
      rw [if_neg hkind]
      -- The item is still the head of the queue when its retries are taken.
      have hentered := (filterMap_snoc_none f (e₁.access msg.id).trace
        (hf.entered .waitingForAnswer)).trans haccess
      exact (hf.access (e := (e₁.access msg.id).setState .waitingForAnswer) h).trans hentered
    · exact haccess
  · rintro ⟨hkind, hsent⟩
    have habsent : (rest.any (·.id == msg.id)) = false := Desk.any_eq_false hothers
    rw [Endpoint.sendHead, write_eq]
    dsimp only
    rw [if_pos hsent, if_pos hkind, popOutgoing_cons msg rest (by exact h)]
    show ((e₁.access msg.id).trace ++ [Event.removed msg.id] ++
      [Event.accessed msg.id (rest.any (·.id == msg.id))]).filterMap f = _
    rw [habsent, List.filterMap_append, filterMap_snoc_none f _ (hf.removed msg.id), haccess,
      ← List.filterMap_append, List.append_assoc, List.singleton_append]

/-- The second block of the idle state, in the same way. -/
theorem Quiet.sendNext (hf : Quiet f) (env : Surroundings) (now : TimePoint)
    (hdistinct : e.handler.outgoingMessages.Pairwise fun a b => a.id < b.id) :
    (∀ msg, ¬Due e now msg) ∧
        (e.sendNext env now).trace.filterMap f = e.trace.filterMap f ∨
      ∃ msg, ∃ w : Write, Due e now msg ∧ w.Transmits msg ∧
        (¬SentNotice msg → (e.sendNext env now).trace.filterMap f =
          (e.trace ++ [Event.wrote w]).filterMap f) ∧
        (SentNotice msg → (e.sendNext env now).trace.filterMap f =
          (e.trace ++ [Event.wrote w, Event.accessed msg.id false]).filterMap f) := by
  rw [Endpoint.sendNext]
  split
  · rename_i hqueue
    refine .inl ⟨?_, rfl⟩
    rintro msg ⟨hhead, _⟩
    rw [hqueue] at hhead
    cases hhead
  · rename_i msg rest hqueue
    rw [hqueue] at hdistinct
    have hothers : ∀ other ∈ rest, other.id ≠ msg.id :=
      fun other hother => Nat.ne_of_gt ((List.pairwise_cons.mp hdistinct).1 other hother)
    have hhead : ∀ other, e.handler.outgoingMessages.head? = some other → msg = other := by
      intro other hother
      rw [hqueue] at hother
      exact Option.some_inj.mp hother
    have haccess := hf.access hqueue
    split
    · rename_i hready
      dsimp only
      split
      · rename_i hretries
        obtain ⟨w, hw, hother, hnotice⟩ := hf.sendHead env now (e := e.access msg.id) hqueue hothers
        rw [List.filterMap_append, haccess, ← List.filterMap_append] at hother hnotice
        have hdue : Due e now msg := ⟨by rw [hqueue]; rfl, hretries, hready.1, hready.2⟩
        exact .inr ⟨msg, w, hdue, hw, hother, hnotice⟩
      · rename_i hretries
        refine .inl ⟨?_, (hf.popOutgoing _).trans haccess⟩
        rintro other ⟨hother, hmore, _⟩
        rw [← hhead other hother] at hmore
        exact hretries hmore
    · rename_i hready
      refine .inl ⟨?_, rfl⟩
      rintro other ⟨_, _, htimes⟩
      exact hready htimes

/-! ## One call of the loop -/

/-- The state in which `loop` comes to the second block of the idle state. -/
def beforeSend (env : Surroundings) (reply : Reply) (e : Endpoint) : Endpoint :=
  ((e.receive env).look env).handleIncoming env reply

/-- In this call of `loop` the item is written. -/
def Attempts (env : Surroundings) (reply : Reply) (e : Endpoint) (msg : OutgoingQueueItem) : Prop :=
  e.handler.state = .idle ∧ (e.beforeSend env reply).Due (env.clock e.ticks) msg

theorem loop_idle (env : Surroundings) (reply : Reply) (hstate : e.handler.state = .idle) :
    e.loop env reply = (e.beforeSend env reply).sendNext env (env.clock e.ticks) := by
  have hidle : ((e.receive env).look env).handler.state = .idle := hstate
  rw [Endpoint.loop, turn, hidle]
  rfl

/-- The desk is idle before the second block. -/
theorem serves_beforeSend {d : Desk} (h : Service.Serves e d) (env : Surroundings) (reply : Reply)
    (hstate : e.handler.state = .idle) :
    ∃ d₁, Service.Serves (e.beforeSend env reply) d₁ ∧ d₁.phase = .idle ∧
      (e.beforeSend env reply).arrivals = [] :=
  ((h.receive env).look env).handleIncoming env reply
    (phase_idle ((h.receive env).look env) hstate)

/-- Either nothing is written for the queue, or its head is, and a notice is used too late. -/
theorem Quiet.loop {d : Desk} (hf : Quiet f) (h : Service.Serves e d) (env : Surroundings)
    (reply : Reply) :
    (∀ msg, ¬Attempts env reply e msg) ∧
        (e.loop env reply).trace.filterMap f = e.trace.filterMap f ∨
      ∃ msg, ∃ w : Write, Attempts env reply e msg ∧ w.Transmits msg ∧
        (¬SentNotice msg → (e.loop env reply).trace.filterMap f =
          (e.trace ++ [Event.wrote w]).filterMap f) ∧
        (SentNotice msg → (e.loop env reply).trace.filterMap f =
          (e.trace ++ [Event.wrote w, Event.accessed msg.id false]).filterMap f) := by
  let e₀ := (e.receive env).look env
  have h₀ : Service.Serves e₀ d := (h.receive env).look env
  have hlook : e₀.trace.filterMap f = e.trace.filterMap f :=
    filterMap_snoc_none f _ (hf.began _)
  cases hstate : e.handler.state with
  | idle =>
    obtain ⟨d₁, h₁, _⟩ := serves_beforeSend h env reply hstate
    have hdistinct : (e.beforeSend env reply).handler.outgoingMessages.Pairwise
        fun a b => a.id < b.id := by
      rw [show (e.beforeSend env reply).handler.outgoingMessages = d₁.queue from h₁.queue]
      exact h₁.order.distinct
    have hbefore : (e.beforeSend env reply).trace.filterMap f = e.trace.filterMap f :=
      (hf.handleIncoming h₀.line env reply).trans hlook
    rw [loop_idle env reply hstate]
    rcases hf.sendNext env (env.clock e.ticks) hdistinct with
      ⟨hnone, heq⟩ | ⟨msg, w, hdue, hw, hother, hnotice⟩
    · exact .inl ⟨fun msg hmsg => hnone msg hmsg.2, heq.trans hbefore⟩
    · rw [List.filterMap_append, hbefore, ← List.filterMap_append] at hother hnotice
      exact .inr ⟨msg, w, ⟨hstate, hdue⟩, hw, hother, hnotice⟩
  | waitingForAnswer =>
    refine .inl ⟨fun msg hmsg => ?_, ?_⟩
    · exact ProtocolState.noConfusion (hstate.symm.trans hmsg.1)
    · have hwaiting : e₀.handler.state = .waitingForAnswer := hstate
      rw [Endpoint.loop, turn, hwaiting]
      dsimp only
      split
      · exact (hf.answerTimeout env reply e₀ _).trans hlook
      · split
        · exact (hf.answerReceived env reply e₀ _).trans hlook
        · exact hlook

/-- The loop writes a notice that counts as sent, and uses it once more when it is gone. -/
def SendsNotice (env : Surroundings) (reply : Reply) (e : Endpoint) : Prop :=
  ∃ msg, Attempts env reply e msg ∧ SentNotice msg

/-- The reference to the head of the queue is used only while the item is there, at most one item
is attempted, and the retries of all others stay as they were. -/
def KeepsReference (env : Surroundings) (reply : Reply) (e : Endpoint) : Prop :=
  ∃ more, (e.loop env reply).trace = e.trace ++ more ∧
    (∀ id, .accessed id false ∉ more) ∧ (attempted more).length ≤ 1 ∧
    ∀ msg, msg ∈ e.handler.outgoingMessages ∨ .queued msg ∈ more →
      ∀ msg' ∈ (e.loop env reply).handler.outgoingMessages, msg'.id = msg.id →
        msg.id ∉ attempted more → msg'.numberOfRetries = msg.numberOfRetries

end Endpoint

/-- Only attempts take retries. -/
theorem Desk.retries_kept {trace more : List Event} {d d' : Desk} {msg msg' : OutgoingQueueItem}
    (h : Replay.Replays Desk.Step Desk.start trace d)
    (h' : Replay.Replays Desk.Step Desk.start (trace ++ more) d')
    (hmsg : msg ∈ d.queue ∨ .queued msg ∈ more) (hmsg' : msg' ∈ d'.queue) (hid : msg'.id = msg.id)
    (hnone : msg.id ∉ attempted more) : msg'.numberOfRetries = msg.numberOfRetries := by
  have htally := Desk.tally_of_replays h
  have htally' := Desk.tally_of_replays h'
  have hcount : (attempted (trace ++ more)).count msg.id = (attempted trace).count msg.id := by
    rw [attempted, List.filterMap_append, List.count_append]
    exact congrArg _ (List.count_eq_zero.mpr hnone)
  rcases hmsg with hmsg | hmsg
  · obtain ⟨item, hitem, hbecomes⟩ := (Desk.books_of_replays h).items msg hmsg
    have hspent := htally.spent item hitem msg hmsg hbecomes.id
    have hspent' := htally'.spent item (List.mem_append_left _ hitem) msg' hmsg'
      (hid.trans hbecomes.id)
    rw [← hbecomes.id] at hspent hspent'
    rw [hcount] at hspent'
    omega
  · -- A new item has not been attempted before.
    have hnew : msg.id ∉ attempted trace := by
      intro hold
      have hmem : msg.id ∈ queuedIds more := List.mem_filterMap.mpr ⟨_, hmsg, rfl⟩
      have hnumbered := htally'.numbered
      rw [queuedIds, List.filterMap_append, List.pairwise_append] at hnumbered
      exact Nat.lt_irrefl _ (hnumbered.2.2 _ (htally.known hold) _ hmem)
    have hspent' := htally'.spent msg (List.mem_append_right _ hmsg) msg' hmsg' hid
    rw [hcount, List.count_eq_zero.mpr hnew] at hspent'
    exact (Int.add_zero _).symm.trans hspent'

namespace Endpoint

variable {env : Surroundings} {reply : Reply} {e : Endpoint} {d : Desk}

theorem eq_accessed {event : Event} {id : Nat} (h : event.stale? = some id) :
    event = .accessed id false := by
  cases event with
  | accessed other present =>
    cases present with
    | true => cases h
    | false =>
      cases h
      rfl
  | _ => cases h

/-- The reference is kept in order exactly if no notice is written. -/
theorem keepsReference_iff (h : Service.Serves e d) (env : Surroundings) (reply : Reply) :
    KeepsReference env reply e ↔ ¬SendsNotice env reply e := by
  have hsplit : ∀ (f : Event → Option Nat) (more events : List Event),
      (e.trace ++ more).filterMap f = (e.trace ++ events).filterMap f →
        more.filterMap f = events.filterMap f := by
    intro f more events heq
    rw [List.filterMap_append, List.filterMap_append] at heq
    exact List.append_cancel_left heq
  constructor
  · rintro ⟨more, htrace, hlate, _⟩ ⟨msg, hattempts, hnotice⟩
    rcases Quiet.stale.loop h env reply with ⟨hnone, _⟩ | ⟨msg', w, hattempts', _, _, hlast⟩
    · exact hnone msg hattempts
    · have hsame : msg' = msg :=
        Option.some_inj.mp (hattempts'.2.1.symm.trans hattempts.2.1)
      have hmore := hsplit _ more _ (htrace ▸ hlast (hsame ▸ hnotice))
      have hmem : msg'.id ∈ more.filterMap Event.stale? := by
        rw [hmore]
        exact List.mem_cons_self
      obtain ⟨event, hevent, hid⟩ := List.mem_filterMap.mp hmem
      exact hlate msg'.id (eq_accessed hid ▸ hevent)
  · intro hnot
    obtain ⟨more, htrace, _⟩ := (changes_loop env reply h.line h.processing).adds
    have hwritten : ∀ {f : Event → Option Nat}, Quiet f →
        more.filterMap f = [] ∨ ∃ w : Write, more.filterMap f = [Event.wrote w].filterMap f := by
      intro f hf
      rcases hf.loop h env reply with ⟨_, heq⟩ | ⟨msg, w, hattempts, _, hother, _⟩
      · rw [htrace] at heq
        exact .inl (hsplit f more [] (by rw [List.append_nil]; exact heq))
      · have heq := hother fun hnotice => hnot ⟨msg, hattempts, hnotice⟩
        rw [htrace] at heq
        exact .inr ⟨w, hsplit f more _ heq⟩
    refine ⟨more, htrace, ?_, ?_, ?_⟩
    · intro id hmem
      have hid : id ∈ more.filterMap Event.stale? := List.mem_filterMap.mpr ⟨_, hmem, rfl⟩
      rcases hwritten Quiet.stale with heq | ⟨w, heq⟩ <;>
      · rw [heq] at hid
        exact absurd hid List.not_mem_nil
    · rcases hwritten Quiet.attempt with heq | ⟨w, heq⟩
      · rw [attempted, heq]
        exact Nat.zero_le 1
      · rw [attempted, heq]
        exact List.length_filterMap_le _ _
    · intro msg hmsg msg' hmsg' hid hnone
      have hloop : ∃ d', Service.Serves (e.loop env reply) d' := h.loop
      obtain ⟨d', h'⟩ := hloop
      rw [h.queue] at hmsg
      rw [h'.queue] at hmsg'
      exact Desk.retries_kept h.replays (htrace ▸ h'.replays) hmsg hmsg' hid hnone

/-- In every run: all calls of `loop` use the reference to the head of the queue only while the
item is there, and take retries from no other item than the one they attempt, if and only if none
of them writes a notice that counts as sent. -/
theorem run_keepsReference_iff (cells : Nat → UInt8) (bufferSize : Nat) (env : Surroundings)
    (steps : List Step) :
    (∀ before reply after, steps = before ++ .loop reply :: after →
        KeepsReference env reply ((start cells bufferSize).run env before)) ↔
      ∀ before reply after, steps = before ++ .loop reply :: after →
        ¬SendsNotice env reply ((start cells bufferSize).run env before) := by
  refine forall_congr' fun before => forall_congr' fun reply => forall_congr' fun after =>
    imp_congr_right fun _ => ?_
  obtain ⟨d, h⟩ := Service.serves_run cells bufferSize env before
  exact keepsReference_iff h env reply

/-! ## A notice -/

/-- A report is queued, and `loop` writes it. -/
def oneNotice : List Step :=
  [.call (.sendMessageWithoutAnswer ⟨0x06, noSubcommand, [1, 2]⟩ true), .loop fun _ => []]

theorem oneNotice_not_keepsReference :
    ¬∀ before reply after, oneNotice = before ++ .loop reply :: after →
      KeepsReference everySecond reply ((start (fun _ => 0) 251).run everySecond before) := by
  intro h
  obtain ⟨more, htrace, hlate, _⟩ := h [_] _ [] rfl
  have hmem : .accessed 0 false ∈ ((start (fun _ => 0) 251).run everySecond oneNotice).trace := by
    decide +kernel
  have hbefore : .accessed 0 false ∉
      ((start (fun _ => 0) 251).run everySecond (oneNotice.take 1)).trace := by
    decide +kernel
  rcases List.mem_append.mp (htrace ▸ hmem) with hmem | hmem
  · exact hbefore hmem
  · exact hlate 0 hmem

end Endpoint
end HaierProtocol
