import HaierProtocol.Lib.Replay
import HaierProtocol.Protocol.Endpoint

/-!
# The desk

What a protocol handler is for, as a machine that reads the record of an endpoint.  A desk has
a queue of messages.  When it is idle it may write the head of the queue, and once that has
gone out it deals with nothing else: it removes a notice, and waits for the answer to a
request.  The wait ends with a frame that came in after the request was written, with the
removal of a request that has no retries left, or with a return to the idle state for another
try.  `Desk.Step` says which event may happen when, and `Desk.Order` is what stays true.
-/

namespace HaierProtocol

open Replay

inductive Phase where
  | idle
  /-- The head of the queue has gone out. -/
  | sent (write : Write)
  | waiting (write : Write)
  /-- The answer handler of the head has been called. -/
  | answered (arrival : Arrival)
  /-- The item has been removed because no answer came. -/
  | expired (item : OutgoingQueueItem)
  /-- The request has been dealt with. -/
  | closing

structure Desk where
  queue : List OutgoingQueueItem
  nextId : Nat
  phase : Phase

def Event.write? : Event → Option Write
  | .wrote w => some w
  | _ => none

/-- What was written, in order. -/
def writes (trace : List Event) : List Write := trace.filterMap Event.write?

theorem writes_append (trace more : List Event) :
    writes (trace ++ more) = writes trace ++ writes more := List.filterMap_append ..

theorem writes_snoc_none (trace : List Event) {event : Event} (h : event.write? = none) :
    writes (trace ++ [event]) = writes trace := by
  rw [writes_append, writes, writes, List.filterMap_cons_none h, List.filterMap_nil,
    List.append_nil]

theorem writes_snoc_wrote (trace : List Event) (w : Write) :
    writes (trace ++ [.wrote w]) = writes trace ++ [w] := writes_append ..

/-- The item with one retry less. -/
def OutgoingQueueItem.retried (msg : OutgoingQueueItem) : OutgoingQueueItem :=
  { msg with numberOfRetries := msg.numberOfRetries - 1 }

/-- The write is a transmission of the item. -/
structure Write.Transmits (w : Write) (msg : OutgoingQueueItem) : Prop where
  origin : w.origin = .request msg.id
  message : w.message = msg.message
  useCrc : w.useCrc = msg.useCrc
  isSuccess : w.isSuccess = ProtocolHandler.countsAsSent msg.message msg.useCrc

namespace Desk

def start : Desk := ⟨[], 0, .idle⟩

inductive Step : Desk → Event → Desk → Prop where
  | began {d : Desk} (now : TimePoint) : Step d (.began now) d
  | accessed {d : Desk} (id : Nat) (present : Bool) : Step d (.accessed id present) d
  | queued {queue n phase} {item : OutgoingQueueItem} (hid : item.id = n)
      (hretries : 1 ≤ item.numberOfRetries ∧ item.numberOfRetries ≤ 10) :
      Step ⟨queue, n, phase⟩ (.queued item) ⟨queue ++ [item], n + 1, phase⟩
  /-- From the idle state, messages are handled and answers sent, -/
  | heard {queue n} (handler : HandlerRef) (arrival : Arrival) :
      Step ⟨queue, n, .idle⟩ (.invoked (.message handler arrival)) ⟨queue, n, .idle⟩
  | replied {queue n} {w : Write} {processed : Option Arrival}
      (horigin : w.origin = .answer processed) :
      Step ⟨queue, n, .idle⟩ (.wrote w) ⟨queue, n, .idle⟩
  /-- and the head of the queue is written, or removed if that has failed too often. -/
  | transmitted {msg rest n} {w : Write} (hwrite : w.Transmits msg)
      (hretries : 0 < msg.numberOfRetries) (hsuccess : w.isSuccess = true) :
      Step ⟨msg :: rest, n, .idle⟩ (.wrote w) ⟨msg.retried :: rest, n, .sent w⟩
  | failed {msg rest n} {w : Write} (hwrite : w.Transmits msg)
      (hretries : 0 < msg.numberOfRetries) (hsuccess : w.isSuccess = false) :
      Step ⟨msg :: rest, n, .idle⟩ (.wrote w) ⟨msg.retried :: rest, n, .idle⟩
  | exhausted {msg rest n} (hretries : msg.numberOfRetries ≤ 0) :
      Step ⟨msg :: rest, n, .idle⟩ (.removed msg.id) ⟨rest, n, .idle⟩
  | delivered {msg rest n w} (hkind : msg.noAnswer = true) :
      Step ⟨msg :: rest, n, .sent w⟩ (.removed msg.id) ⟨rest, n, .idle⟩
  | awaits {msg rest n w} (hkind : msg.noAnswer = false) :
      Step ⟨msg :: rest, n, .sent w⟩ (.entered .waitingForAnswer) ⟨msg :: rest, n, .waiting w⟩
  /-- The wait ends for another try, -/
  | retries {msg rest n w} (hretries : msg.numberOfRetries ≠ 0) :
      Step ⟨msg :: rest, n, .waiting w⟩ (.entered .idle) ⟨msg :: rest, n, .idle⟩
  /-- without success, -/
  | expires {msg rest n w} (hretries : msg.numberOfRetries = 0) :
      Step ⟨msg :: rest, n, .waiting w⟩ (.removed msg.id) ⟨rest, n, .expired msg⟩
  | timedOut {msg queue n} (handler : HandlerRef) :
      Step ⟨queue, n, .expired msg⟩
        (.invoked (.timeout handler msg.message.frameType msg.id)) ⟨queue, n, .closing⟩
  /-- or with a frame that came in later than the request was written. -/
  | answered {msg rest n w} (handler : HandlerRef) {arrival : Arrival}
      (hlater : w.loop < arrival.loop) :
      Step ⟨msg :: rest, n, .waiting w⟩
        (.invoked (.answer handler msg.message.frameType (some msg.id) arrival))
        ⟨msg :: rest, n, .answered arrival⟩
  | resolved {msg rest n arrival} :
      Step ⟨msg :: rest, n, .answered arrival⟩ (.removed msg.id) ⟨rest, n, .closing⟩
  | closed {queue n} : Step ⟨queue, n, .closing⟩ (.entered .idle) ⟨queue, n, .idle⟩

/-! ## Order -/

/-- What a desk keeps in order. -/
structure Order (d : Desk) : Prop where
  fresh : ∀ item ∈ d.queue, item.id < d.nextId
  distinct : d.queue.Pairwise fun a b => a.id < b.id
  retries : ∀ item ∈ d.queue, 0 ≤ item.numberOfRetries ∧ item.numberOfRetries ≤ 10

namespace Order

variable {n : Nat} {phase : Phase} {msg : OutgoingQueueItem} {queue rest : List OutgoingQueueItem}

theorem start : Order Desk.start :=
  ⟨fun _ h => absurd h List.not_mem_nil, .nil, fun _ h => absurd h List.not_mem_nil⟩

theorem tail (h : Order ⟨msg :: rest, n, phase⟩) (phase' : Phase) : Order ⟨rest, n, phase'⟩ :=
  ⟨fun item hitem => h.fresh item (List.mem_cons_of_mem msg hitem), h.distinct.of_cons,
    fun item hitem => h.retries item (List.mem_cons_of_mem msg hitem)⟩

theorem retried (h : Order ⟨msg :: rest, n, phase⟩) (hretries : 0 < msg.numberOfRetries)
    (phase' : Phase) : Order ⟨msg.retried :: rest, n, phase'⟩ := by
  obtain ⟨hbefore, hrest⟩ := List.pairwise_cons.mp h.distinct
  have hmsg := h.retries msg List.mem_cons_self
  refine ⟨?_, List.pairwise_cons.mpr ⟨hbefore, hrest⟩, ?_⟩
  · intro item hitem
    rcases List.mem_cons.mp hitem with rfl | hitem
    · exact h.fresh msg List.mem_cons_self
    · exact h.fresh item (List.mem_cons_of_mem msg hitem)
  · intro item hitem
    rcases List.mem_cons.mp hitem with rfl | hitem
    · show 0 ≤ msg.numberOfRetries - 1 ∧ msg.numberOfRetries - 1 ≤ 10
      omega
    · exact h.retries item (List.mem_cons_of_mem msg hitem)

theorem queued {item : OutgoingQueueItem} (h : Order ⟨queue, n, phase⟩)
    (hid : item.id = n) (hretries : 1 ≤ item.numberOfRetries ∧ item.numberOfRetries ≤ 10) :
    Order ⟨queue ++ [item], n + 1, phase⟩ := by
  refine ⟨?_, List.pairwise_append.mpr ⟨h.distinct, List.pairwise_singleton _ _, ?_⟩, ?_⟩
  · intro other hother
    rcases List.mem_append.mp hother with hother | hother
    · exact Nat.lt_succ_of_lt (h.fresh other hother)
    · rw [List.mem_singleton.mp hother, hid]
      exact Nat.lt_succ_self n
  · intro other hother last hlast
    rw [List.mem_singleton.mp hlast, hid]
    exact h.fresh other hother
  · intro other hother
    rcases List.mem_append.mp hother with hother | hother
    · exact h.retries other hother
    · rw [List.mem_singleton.mp hother]
      omega

theorem step {d d' : Desk} {event : Event} (h : Order d) (hstep : Step d event d') : Order d' := by
  have hsame : ∀ phase : Phase, Order ⟨d.queue, d.nextId, phase⟩ :=
    fun _ => ⟨h.fresh, h.distinct, h.retries⟩
  cases hstep with
  | queued hid hretries => exact h.queued hid hretries
  | transmitted _ hretries => exact h.retried hretries _
  | failed _ hretries => exact h.retried hretries _
  | exhausted => exact h.tail _
  | delivered => exact h.tail _
  | expires => exact h.tail _
  | resolved => exact h.tail _
  | _ => exact hsame _

end Order

/-- Only the head of the queue has its identity. -/
theorem Order.others {n : Nat} {msg : OutgoingQueueItem} {rest : List OutgoingQueueItem}
    {phase : Phase} (h : Order ⟨msg :: rest, n, phase⟩) : ∀ other ∈ rest, other.id ≠ msg.id :=
  fun other hother => Nat.ne_of_gt ((List.pairwise_cons.mp h.distinct).1 other hother)

theorem Order.map_rest {n : Nat} {msg : OutgoingQueueItem} {rest : List OutgoingQueueItem}
    {phase : Phase} (h : Order ⟨msg :: rest, n, phase⟩) :
    rest.map (fun item =>
      if item.id = msg.id then { item with numberOfRetries := item.numberOfRetries - 1 }
      else item) = rest := by
  conv_rhs => rw [← List.map_id rest]
  exact List.map_congr_left (fun item hitem => if_neg (h.others item hitem))

/-! ## The outstanding item -/

/-- Once the head has gone out nothing else is written. -/
structure Outstanding (trace : List Event) (w : Write) (msg : OutgoingQueueItem) : Prop where
  transmits : w.Transmits msg
  isSuccess : w.isSuccess = true
  retries_le : msg.numberOfRetries ≤ 9
  last : (writes trace).getLast? = some w

/-- What the phase says about the head of the queue. -/
def Engaged (trace : List Event) (d : Desk) : Prop :=
  match d.phase with
  | .sent w => ∃ msg rest, d.queue = msg :: rest ∧ Outstanding trace w msg
  | .waiting w =>
    ∃ msg rest, d.queue = msg :: rest ∧ Outstanding trace w msg ∧ msg.noAnswer = false
  | .answered _ => ∃ msg rest, d.queue = msg :: rest
  | _ => True

theorem Outstanding.snoc {trace : List Event} {w : Write} {msg : OutgoingQueueItem}
    (h : Outstanding trace w msg) {event : Event} (hevent : event.write? = none) :
    Outstanding (trace ++ [event]) w msg :=
  ⟨h.transmits, h.isSuccess, h.retries_le, by rw [writes_snoc_none trace hevent]; exact h.last⟩

theorem Engaged.snoc {trace : List Event} {d : Desk} (h : Engaged trace d) {event : Event}
    (hevent : event.write? = none) (more : List OutgoingQueueItem) (nextId : Nat) :
    Engaged (trace ++ [event]) ⟨d.queue ++ more, nextId, d.phase⟩ := by
  obtain ⟨queue, n, phase⟩ := d
  cases phase with
  | sent w =>
    obtain ⟨msg, rest, hqueue, hout⟩ := h
    exact ⟨msg, rest ++ more, congrArg (· ++ more) hqueue, hout.snoc hevent⟩
  | waiting w =>
    obtain ⟨msg, rest, hqueue, hout, hkind⟩ := h
    exact ⟨msg, rest ++ more, congrArg (· ++ more) hqueue, hout.snoc hevent, hkind⟩
  | answered =>
    obtain ⟨msg, rest, hqueue⟩ := h
    exact ⟨msg, rest ++ more, congrArg (· ++ more) hqueue⟩
  | _ => trivial

theorem Engaged.step {trace : List Event} {d d' : Desk} {event : Event} (horder : Order d)
    (h : Engaged trace d) (hstep : Step d event d') : Engaged (trace ++ [event]) d' := by
  have hsame : event.write? = none → Engaged (trace ++ [event]) d := by
    intro hevent
    have := h.snoc hevent [] d.nextId
    rwa [List.append_nil] at this
  cases hstep with
  | began => exact hsame rfl
  | accessed => exact hsame rfl
  | queued => exact h.snoc rfl _ _
  | @transmitted msg rest n w hwrite _ hsuccess =>
    have hmsg := (horder.retries msg List.mem_cons_self).2
    refine ⟨_, _, rfl, ⟨hwrite.origin, hwrite.message, hwrite.useCrc, hwrite.isSuccess⟩, hsuccess,
      ?_, ?_⟩
    · show msg.numberOfRetries - 1 ≤ 9
      omega
    · rw [writes_snoc_wrote, List.getLast?_append]
      rfl
  | awaits hkind =>
    obtain ⟨_, _, hqueue, hout⟩ := h
    cases hqueue
    exact ⟨_, _, rfl, hout.snoc rfl, hkind⟩
  | answered => exact ⟨_, _, rfl⟩
  | _ => trivial

theorem order_of_replays {trace : List Event} {d : Desk} (h : Replays Step start trace d) :
    Order d ∧ Engaged trace d :=
  replays_induction (P := fun trace d => Order d ∧ Engaged trace d) ⟨Order.start, trivial⟩
    (fun _ _ _ _ _ hm hstep => ⟨hm.1.step hstep, hm.2.step hm.1 hstep⟩) h

end Desk
end HaierProtocol
