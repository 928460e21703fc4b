import HaierProtocol.Lib.Stock
import HaierProtocol.Protocol.Turns

/-!
# The queue drains

A call of `loop` is ripe if it finds a message in the queue and has neither to wait for the clock
nor for an answer.  Every message that is queued pays for 21 ripe calls, and every ripe call uses
one of them up, whatever the handlers do.
-/

namespace HaierProtocol

/-- What an item may cost: two calls for every attempt, and one to remove it. -/
def OutgoingQueueItem.effort (item : OutgoingQueueItem) : Nat := 2 * item.numberOfRetries.toNat + 1

def effortOf (items : List OutgoingQueueItem) : Nat := (items.map OutgoingQueueItem.effort).sum

theorem effortOf_append (items more : List OutgoingQueueItem) :
    effortOf (items ++ more) = effortOf items + effortOf more := by
  rw [effortOf, List.map_append, List.sum_append]
  rfl

theorem effortOf_cons (item : OutgoingQueueItem) (items : List OutgoingQueueItem) :
    effortOf (item :: items) = item.effort + effortOf items := by
  rw [effortOf, List.map_cons, List.sum_cons]
  rfl

namespace ProtocolHandler

/-- The second block of the idle state does something. -/
def CanSend (h : ProtocolHandler) (now : TimePoint) : Prop :=
  h.outgoingMessages ≠ [] ∧ h.cooldownTimePoint ≤ now ∧ h.retryTimePoint ≤ now

/-- The wait for an answer ends. -/
def CanEnd (h : ProtocolHandler) (now : TimePoint) : Prop :=
  h.outgoingMessages ≠ [] ∧ (h.answerTimePoint < now ∨ h.transport.incomingQueue ≠ [])

instance (h : ProtocolHandler) (now : TimePoint) : Decidable (h.CanSend now) :=
  inferInstanceAs (Decidable (_ ∧ _ ∧ _))

instance (h : ProtocolHandler) (now : TimePoint) : Decidable (h.CanEnd now) :=
  inferInstanceAs (Decidable (_ ∧ (_ ∨ _)))

end ProtocolHandler

namespace Endpoint

/-- What is left of what the items have paid, and one for an answer that is awaited. -/
def backlog (e : Endpoint) : Nat :=
  effortOf e.handler.outgoingMessages + if e.handler.state = .waitingForAnswer then 1 else 0

theorem backlog_eq_zero {e : Endpoint} :
    e.backlog = 0 ↔ e.handler.outgoingMessages = [] ∧ e.handler.state = .idle := by
  rw [backlog]
  constructor
  · intro h
    constructor
    · cases hqueue : e.handler.outgoingMessages with
      | nil => rfl
      | cons msg rest =>
        rw [hqueue, effortOf_cons, OutgoingQueueItem.effort] at h
        omega
    · cases hstate : e.handler.state with
      | idle => rfl
      | waitingForAnswer =>
        rw [hstate, if_pos rfl] at h
        omega
  · rintro ⟨hqueue, hstate⟩
    rw [hqueue, hstate]
    rfl

/-- What all items have paid. -/
def ordered (e : Endpoint) : Nat := effortOf (requestsOf e.trace)

/-- The call of `loop` has something to do and need not wait. -/
def Ripe (env : Surroundings) (e : Endpoint) : Step → Prop
  | .loop reply =>
    let looked := (e.receive env).look env
    (e.handler.state = .idle →
      (looked.handleIncoming env reply).handler.CanSend (env.clock e.ticks)) ∧
    (e.handler.state = .waitingForAnswer → looked.handler.CanEnd (env.clock e.ticks))
  | _ => False

instance (env : Surroundings) (e : Endpoint) : (s : Step) → Decidable (e.Ripe env s)
  | .arrive _ => .isFalse id
  | .call _ => .isFalse id
  | .loop _ => inferInstanceAs (Decidable ((_ → _) ∧ (_ → _)))

variable {env : Surroundings} {reply : Reply} {e e' : Endpoint} {msg : OutgoingQueueItem}
  {rest : List OutgoingQueueItem} {n : Nat}

/-- The stock of an endpoint. -/
abbrev Spends (n : Nat) (e e' : Endpoint) : Prop := Stock.Spends backlog ordered n e e'

/-! ## What changes the queue -/

theorem spends_of_eq (hqueue : e'.handler.outgoingMessages = e.handler.outgoingMessages)
    (hstate : e'.handler.state = e.handler.state)
    (hrequests : requestsOf e'.trace = requestsOf e.trace) : Spends 0 e e' := by
  rw [Spends, Stock.Spends, backlog, backlog, ordered, ordered, hqueue, hstate, hrequests]
  exact Nat.le_refl _

theorem spends_emit (e : Endpoint) {event : Event} (h : event.item? = none) :
    Spends 0 e (e.emit event) := by
  refine spends_of_eq rfl rfl ?_
  show requestsOf (e.trace ++ [event]) = _
  rw [requestsOf_append, show requestsOf [event] = [] from List.filterMap_cons_none h,
    List.append_nil]

theorem spends_enqueue (e : Endpoint) (item : OutgoingQueueItem) :
    Spends 0 e (e.enqueue item) := by
  have hrequests : requestsOf (e.enqueue item).trace = requestsOf e.trace ++ [item] :=
    requestsOf_append ..
  have hqueue : (e.enqueue item).handler.outgoingMessages = e.handler.outgoingMessages ++ [item] :=
    rfl
  have hstate : (e.enqueue item).handler.state = e.handler.state := rfl
  rw [Spends, Stock.Spends, backlog, backlog, ordered, ordered, hrequests, hqueue, hstate,
    effortOf_append, effortOf_append]
  omega

theorem spends_wrote (e : Endpoint) (w : Write) : Spends 0 e (e.wrote w) := by
  refine spends_of_eq rfl rfl ?_
  show requestsOf (e.trace ++ [.wrote w]) = _
  rw [requestsOf_append]
  exact List.append_nil _

theorem spends_calls (env : Surroundings) (e : Endpoint) (apiCalls : List ApiCall) :
    Spends 0 e (e.calls env apiCalls) := by
  refine calls_induction env (motive := Spends 0 e) ?_ apiCalls (.refl e)
  intro e₁ e₂ h hcalled
  refine h.trans_zero ?_
  cases hcalled with
  | queued item => exact spends_enqueue e₁ item
  | answered answer useCrc hprocessing =>
    rw [sendAnswer_eq env e₁ answer useCrc hprocessing]
    exact (spends_wrote e₁ _).trans_zero (spends_of_eq rfl rfl rfl)
  | set handler hqueue hrest => exact spends_of_eq hqueue hrest.state rfl

theorem spends_invoke (env : Surroundings) (reply : Reply) (e : Endpoint)
    (invocation : Invocation) : Spends 0 e (e.invoke env reply invocation) :=
  (spends_emit e rfl).trans_zero (spends_calls env _ _)

/-- An item that is removed takes along what is left. -/
theorem spends_pop (h : e.handler.outgoingMessages = msg :: rest) :
    Spends msg.effort e e.popOutgoing := by
  rw [popOutgoing_cons msg rest h, Spends, Stock.Spends, backlog, backlog, ordered, ordered, h,
    effortOf_cons]
  show effortOf rest + _ + msg.effort + effortOf (requestsOf e.trace) ≤
    msg.effort + effortOf rest + _ + effortOf (requestsOf (e.trace ++ [_]))
  rw [requestsOf_append, effortOf_append]
  show effortOf rest + (if e.handler.state = .waitingForAnswer then 1 else 0) + _ + _ ≤ _
  omega

theorem spends_popOutgoing (e : Endpoint) : Spends 0 e e.popOutgoing := by
  cases hqueue : e.handler.outgoingMessages with
  | nil =>
    rw [popOutgoing, hqueue]
    exact spends_emit e rfl
  | cons msg rest => exact (spends_pop hqueue).of_le (Nat.zero_le _)

theorem spends_setState_idle (e : Endpoint) :
    Spends (if e.handler.state = .waitingForAnswer then 1 else 0) e (e.setState .idle) := by
  rw [Spends, Stock.Spends, backlog, backlog, ordered, ordered]
  show effortOf e.handler.outgoingMessages + 0 + _ + effortOf (requestsOf e.trace) ≤
    _ + effortOf (requestsOf (e.trace ++ [_]))
  rw [requestsOf_append, effortOf_append]
  omega

theorem effort_retried_le (item : OutgoingQueueItem) : item.retried.effort ≤ item.effort := by
  show 2 * (item.numberOfRetries - 1).toNat + 1 ≤ 2 * item.numberOfRetries.toNat + 1
  omega

theorem effort_retried (hretries : 0 < msg.numberOfRetries) :
    msg.retried.effort + 2 = msg.effort := by
  show 2 * (msg.numberOfRetries - 1).toNat + 1 + 2 = 2 * msg.numberOfRetries.toNat + 1
  omega

/-- One try less, for whatever item it is. -/
theorem effortOf_decrement (id : Nat) (items : List OutgoingQueueItem) :
    effortOf (items.map fun item => if item.id = id then item.retried else item) ≤
      effortOf items := by
  induction items with
  | nil => exact Nat.le_refl _
  | cons item items ih =>
    rw [List.map_cons, effortOf_cons, effortOf_cons]
    have hitem : (if item.id = id then item.retried else item).effort ≤ item.effort := by
      split
      · exact effort_retried_le item
      · exact Nat.le_refl _
    exact Nat.add_le_add hitem ih

theorem spends_decrement (e : Endpoint) (id : Nat) :
    Spends 0 e { e with handler := e.handler.decrementRetries id } := by
  have hle := effortOf_decrement id e.handler.outgoingMessages
  exact Nat.add_le_add_right (Nat.add_le_add_right hle _) _

/-- A try is used up, and perhaps an answer is awaited. -/
theorem spends_try (h : e.handler.outgoingMessages = msg :: rest)
    (hretries : 0 < msg.numberOfRetries)
    (hqueue : e'.handler.outgoingMessages = (e.handler.decrementRetries msg.id).outgoingMessages)
    (hrequests : requestsOf e'.trace = requestsOf e.trace) : Spends 1 e e' := by
  have hdecremented : e'.handler.outgoingMessages =
      msg.retried :: rest.map fun item => if item.id = msg.id then item.retried else item := by
    rw [hqueue, ProtocolHandler.decrementRetries, h, List.map_cons, if_pos rfl]
    rfl
  have hle := effortOf_decrement msg.id rest
  have hhead := effort_retried hretries
  have hstate := Stock.charge_le_one (e'.handler.state = .waitingForAnswer)
  rw [Spends, Stock.Spends, backlog, backlog, ordered, ordered, hdecremented, h, hrequests,
    effortOf_cons, effortOf_cons]
  omega

theorem spends_access (e : Endpoint) (id : Nat) : Spends 0 e (e.access id) := spends_emit e rfl

theorem spends_setRetryTimePoint (e : Endpoint) (now : TimePoint) :
    Spends 0 e (e.setRetryTimePoint now) := spends_of_eq rfl rfl rfl

/-! ## Sending -/

/-- An item is removed, and the next one waits. -/
theorem spends_pop_retry (msg : OutgoingQueueItem) (rest : List OutgoingQueueItem)
    (h : Spends 0 e e') (hqueue : e'.handler.outgoingMessages = msg :: rest) (now : TimePoint) :
    Spends 1 e (e'.popOutgoing.setRetryTimePoint now) :=
  h.zero_trans (((spends_pop hqueue).of_le (Nat.le_add_left 1 _)).trans_zero
    (spends_setRetryTimePoint _ now))

theorem spends_sendHead (h : e.handler.outgoingMessages = msg :: rest)
    (hretries : 0 < msg.numberOfRetries) (env : Surroundings) (now : TimePoint) :
    Spends 1 e (e.sendHead env msg now) := by
  have hquiet : ∀ more : List Event, requestsOf more = [] →
      requestsOf (e.trace ++ more) = requestsOf e.trace := by
    intro more hmore
    rw [requestsOf_append, hmore, List.append_nil]
  have hlast : ∀ e' : Endpoint, Spends 1 e e' → Spends 1 e
      { e'.access msg.id with handler := (e'.access msg.id).handler.decrementRetries msg.id } :=
    fun e' he => (he.trans_zero (spends_access e' _)).trans_zero (spends_decrement _ _)
  rw [sendHead, write_eq]
  dsimp only
  split
  · split
    · -- A notice that has gone out is removed, and the reference to it counts down nothing.
      refine hlast _ (spends_pop_retry msg rest ?_ ?_ now)
      · refine spends_of_eq rfl rfl ?_
        show requestsOf (e.trace ++ [_] ++ [_] ++ [_]) = _
        rw [List.append_assoc, List.append_assoc]
        exact hquiet _ rfl
      · exact h
    · refine spends_try h hretries rfl ?_
      show requestsOf (e.trace ++ [_] ++ [_] ++ [_] ++ [_] ++ [_]) = _
      rw [List.append_assoc, List.append_assoc, List.append_assoc, List.append_assoc]
      exact hquiet _ rfl
  · refine spends_try h hretries rfl ?_
    show requestsOf (e.trace ++ [_] ++ [_] ++ [_]) = _
    rw [List.append_assoc, List.append_assoc]
    exact hquiet _ rfl

theorem spends_sendNext (env : Surroundings) (e : Endpoint) (now : TimePoint) :
    Spends (if e.handler.CanSend now then 1 else 0) e (e.sendNext env now) := by
  rw [sendNext]
  cases hqueue : e.handler.outgoingMessages with
  | nil =>
    rw [if_neg fun h => h.1 hqueue]
    exact .refl e
  | cons msg rest =>
    dsimp only
    by_cases hready : e.handler.cooldownTimePoint ≤ now ∧ e.handler.retryTimePoint ≤ now
    · have hcan : e.handler.CanSend now := ⟨hqueue ▸ List.cons_ne_nil msg rest, hready⟩
      have haccess : Spends 0 e (e.access msg.id) := spends_emit e rfl
      rw [if_pos hcan, if_pos hready]
      split
      · next hretries =>
        have hqueue' : (e.access msg.id).handler.outgoingMessages = msg :: rest := hqueue
        exact haccess.zero_trans (spends_sendHead hqueue' hretries env now)
      · exact spends_pop_retry msg rest haccess hqueue now
    · rw [if_neg fun h => hready h.2, if_neg hready]
      exact .refl e

/-! ## Receiving -/

theorem spends_receive_look (env : Surroundings) (e : Endpoint) :
    Spends 0 e ((e.receive env).look env) := by
  refine spends_of_eq rfl rfl ?_
  show requestsOf (e.trace ++ [_]) = _
  rw [requestsOf_append]
  exact List.append_nil _

theorem spends_handleIncoming (env : Surroundings) (reply : Reply) (e : Endpoint) :
    Spends 0 e (e.handleIncoming env reply) := by
  have hprocess : ∀ (e' : Endpoint) (a : Arrival), Spends 0 e e' →
      Spends 0 e (e'.processMessage env reply a) := by
    intro e' a h
    refine (h.trans_zero ?_).trans_zero (spends_of_eq rfl rfl rfl)
    exact (spends_of_eq rfl rfl rfl).trans_zero (spends_invoke env reply _ _)
  rw [handleIncoming]
  dsimp only
  split
  · split
    · exact hprocess _ _ (spends_of_eq rfl rfl rfl)
    · exact hprocess _ _ (spends_of_eq rfl rfl rfl)
  · split
    · exact spends_of_eq rfl rfl rfl
    · exact .refl e

/-! ## The end of a wait -/

theorem spends_answerTimeout (hstate : e.handler.state = .waitingForAnswer)
    (h : e.handler.outgoingMessages = msg :: rest) (env : Surroundings) (reply : Reply)
    (now : TimePoint) : Spends 1 e (e.answerTimeout env reply now) := by
  have haccess := spends_access e msg.id
  have hfinish : ∀ e' : Endpoint, Spends 1 e e' → Spends 1 e (e'.setState .idle) :=
    fun e' he => he.trans_zero ((spends_setState_idle e').of_le (Nat.zero_le _))
  rw [answerTimeout, h]
  dsimp only
  split
  · exact hfinish _ ((spends_pop_retry msg rest haccess h now).trans_zero
      (spends_invoke env reply _ _))
  · have hidle := spends_setState_idle (e.access msg.id)
    rw [show (e.access msg.id).handler.state = .waitingForAnswer from hstate, if_pos rfl] at hidle
    exact haccess.zero_trans hidle

theorem spends_answerReceived (hstate : e.handler.state = .waitingForAnswer) (env : Surroundings)
    (reply : Reply) (now : TimePoint) : Spends 1 e (e.answerReceived env reply now) := by
  have hfinish : ∀ e' : Endpoint, Spends 0 e e' → e'.handler.state = .waitingForAnswer →
      Spends 1 e ((e'.popOutgoing.setRetryTimePoint now).setState .idle) := by
    intro e' he hwaiting
    have hpopped := (he.trans_zero (spends_popOutgoing e')).trans_zero
      (spends_setRetryTimePoint _ now)
    have hidle := spends_setState_idle (e'.popOutgoing.setRetryTimePoint now)
    rw [show (e'.popOutgoing.setRetryTimePoint now).handler.state = .waitingForAnswer from
      (state_popOutgoing e').trans hwaiting, if_pos rfl] at hidle
    exact hpopped.zero_trans hidle
  have htaken : Spends 0 e e.popFrame.1 := spends_of_eq rfl rfl rfl
  rw [answerReceived]
  exact hfinish _ (htaken.trans_zero (spends_invoke env reply _ _))
    ((invoke_undisturbed env reply _ _).state.trans hstate)

theorem spends_waiting (hstate : e.handler.state = .waitingForAnswer) (env : Surroundings)
    (reply : Reply) (now : TimePoint) :
    Spends (if e.handler.CanEnd now then 1 else 0) e (e.turn env reply now) := by
  have hle := Stock.charge_le_one (e.handler.CanEnd now)
  rw [turn, hstate]
  dsimp only
  by_cases hlate : now > e.handler.answerTimePoint
  · rw [if_pos hlate]
    cases hqueue : e.handler.outgoingMessages with
    | nil =>
      rw [if_neg fun h => h.1 hqueue, answerTimeout, hqueue]
      exact spends_emit e rfl
    | cons msg rest => exact (spends_answerTimeout hstate hqueue env reply now).of_le hle
  · rw [if_neg hlate]
    by_cases hframe : e.handler.transport.incomingQueue.length > 0
    · rw [if_pos hframe]
      exact (spends_answerReceived hstate env reply now).of_le hle
    · have hempty : e.handler.transport.incomingQueue = [] :=
        List.eq_nil_of_length_eq_zero (Nat.eq_zero_of_not_pos hframe)
      rw [if_neg hframe, if_neg fun h => h.2.elim hlate fun hne => hne hempty]
      exact .refl e

/-! ## Runs -/

theorem spends_loop (env : Surroundings) (reply : Reply) (e : Endpoint) :
    Spends (if e.Ripe env (.loop reply) then 1 else 0) e (e.loop env reply) := by
  have hlook := spends_receive_look env e
  cases hstate : e.handler.state with
  | idle =>
    have hidle : ((e.receive env).look env).handler.state = .idle := hstate
    have hripe : e.Ripe env (.loop reply) ↔
        (((e.receive env).look env).handleIncoming env reply).handler.CanSend
          (env.clock e.ticks) :=
      ⟨fun h => h.1 hstate, fun h => ⟨fun _ => h, fun hwaiting =>
        absurd (hstate.symm.trans hwaiting) ProtocolState.noConfusion⟩⟩
    have hnext := spends_sendNext env (((e.receive env).look env).handleIncoming env reply)
      (env.clock e.ticks)
    rw [← if_congr hripe rfl rfl] at hnext
    rw [loop, turn, hidle]
    exact (hlook.trans_zero (spends_handleIncoming env reply _)).zero_trans hnext
  | waitingForAnswer =>
    have hripe : e.Ripe env (.loop reply) ↔
        ((e.receive env).look env).handler.CanEnd (env.clock e.ticks) :=
      ⟨fun h => h.2 hstate, fun h => ⟨fun hidle =>
        absurd (hstate.symm.trans hidle) ProtocolState.noConfusion, fun _ => h⟩⟩
    have hwaiting : ((e.receive env).look env).handler.state = .waitingForAnswer := hstate
    rw [if_congr hripe rfl rfl]
    exact hlook.zero_trans (spends_waiting hwaiting env reply (env.clock e.ticks))

theorem spends_step (env : Surroundings) (e : Endpoint) (s : Step) :
    Spends (if e.Ripe env s then 1 else 0) e (e.step env s) := by
  cases s with
  | arrive bytes => exact spends_of_eq rfl rfl rfl
  | call c => exact spends_calls env e [c]
  | loop reply => exact spends_loop env reply e

end Endpoint

open Replay

/-- Whatever was queued has ten tries at most. -/
theorem effort_le {trace : List Event} {d : Desk} (h : Replays Desk.Step Desk.start trace d) :
    effortOf (requestsOf trace) ≤ 21 * (requestsOf trace).length := by
  refine replays_induction (P := fun trace _ =>
    effortOf (requestsOf trace) ≤ 21 * (requestsOf trace).length) (Nat.le_refl 0) ?_ h
  intro before event m m' _ hle hstep
  rw [requestsOf_append, effortOf_append, List.length_append]
  cases hevent : event.item? with
  | none =>
    rw [show requestsOf [event] = [] from List.filterMap_cons_none hevent]
    exact hle
  | some item =>
    have hone : effortOf (requestsOf [event]) = item.effort := by
      rw [show requestsOf [event] = [item] from List.filterMap_cons_some hevent, effortOf_cons]
      rfl
    have hlength : (requestsOf [event]).length = 1 := by
      rw [show requestsOf [event] = [item] from List.filterMap_cons_some hevent]
      rfl
    have hitem : item.effort ≤ 21 := by
      cases hstep with
      | queued hid hretries =>
        cases hevent
        show 2 * item.numberOfRetries.toNat + 1 ≤ 21
        omega
      | _ => cases hevent
    rw [hone, hlength]
    omega

namespace Endpoint

/-- In every run, whatever comes in and whatever the handlers do: there are no more ripe calls of
`loop` than 21 for every message queued, less what is left.  When they are used up, the queue is
empty, and no answer is awaited. -/
theorem run_drains (cells : Nat → UInt8) (bufferSize : Nat) (env : Surroundings)
    (steps : List Step) :
    let e := (start cells bufferSize).run env steps
    let ripe := Stock.charges (step env) (Ripe env) (start cells bufferSize) steps
    ripe + e.backlog ≤ 21 * (requestsOf e.trace).length ∧
      (21 * (requestsOf e.trace).length ≤ ripe →
        e.handler.outgoingMessages = [] ∧ e.handler.state = .idle) := by
  intro e ripe
  obtain ⟨d, hserves⟩ := Service.serves_run cells bufferSize env steps
  have hspends : e.backlog + ripe + 0 ≤ 0 + e.ordered :=
    Stock.charges_le (spends_step env) steps (start cells bufferSize)
  have heffort : e.ordered ≤ 21 * (requestsOf e.trace).length := effort_le hserves.replays
  have hle : ripe + e.backlog ≤ 21 * (requestsOf e.trace).length := by omega
  refine ⟨hle, fun hall => ?_⟩
  exact backlog_eq_zero.mp (by omega)

end Endpoint
end HaierProtocol
