import HaierProtocol.Protocol.Accounts
import HaierProtocol.Protocol.Service

/-!
# Attempts

How often a message is written.  An attempt, successful or not, takes one retry from the item, so
the retries that are left and the attempts that were made add up to what the item was queued with.
`Tally` says so, and that the attempts come in the order of the queue.  An item that is removed, or
whose answer handler has been called, is `Settled`: no attempt follows.
-/

namespace HaierProtocol

open Replay

/-- The item that is written, if this is not an answer. -/
def Write.request? (w : Write) : Option Nat :=
  match w.origin with
  | .request id => some id
  | .answer _ => none

def Event.attempt? : Event → Option Nat
  | .wrote w => w.request?
  | _ => none

def Event.transmission? : Event → Option Nat
  | .wrote w => if w.isSuccess then w.request? else none
  | _ => none

def Event.queuedId? : Event → Option Nat
  | .queued item => some item.id
  | _ => none

/-- The items that `loop` tried to write, in order. -/
def attempted (trace : List Event) : List Nat := trace.filterMap Event.attempt?

/-- Those that counted as sent.  A packet of 256 bytes does not, although its bytes go out. -/
def transmitted (trace : List Event) : List Nat := trace.filterMap Event.transmission?

/-- The items that were queued, in order. -/
def queuedIds (trace : List Event) : List Nat := trace.filterMap Event.queuedId?

theorem filterMap_snoc_none {α β : Type} (f : α → Option β) (l : List α) {x : α}
    (h : f x = none) : (l ++ [x]).filterMap f = l.filterMap f := by
  rw [List.filterMap_append, List.filterMap_cons_none h, List.filterMap_nil, List.append_nil]

theorem filterMap_snoc_some {α β : Type} (f : α → Option β) (l : List α) {x : α} {y : β}
    (h : f x = some y) : (l ++ [x]).filterMap f = l.filterMap f ++ [y] := by
  rw [List.filterMap_append, List.filterMap_cons_some h, List.filterMap_nil]

theorem Write.Transmits.request? {w : Write} {msg : OutgoingQueueItem} (h : w.Transmits msg) :
    w.request? = some msg.id := by
  rw [Write.request?, h.origin]

theorem Write.request?_answer {w : Write} {processed : Option Arrival}
    (h : w.origin = .answer processed) : w.request? = none := by
  rw [Write.request?, h]

/-- What is transmitted is attempted. -/
theorem transmitted_sublist (trace : List Event) :
    (transmitted trace).Sublist (attempted trace) := by
  induction trace with
  | nil => exact List.Sublist.slnil
  | cons event rest ih =>
    rw [transmitted, attempted, List.filterMap_cons, List.filterMap_cons]
    cases event with
    | wrote w =>
      by_cases hsuccess : w.isSuccess = true
      · rw [Event.transmission?, Event.attempt?, if_pos hsuccess]
        cases w.request? with
        | none => exact ih
        | some id => exact ih.cons_cons id
      · rw [Event.transmission?, Event.attempt?, if_neg hsuccess]
        cases w.request? with
        | none => exact ih
        | some id => exact ih.cons id
    | _ => exact ih

namespace Desk

variable {trace : List Event} {event : Event} {d d' : Desk} {id n : Nat} {phase phase' : Phase}
  {item msg : OutgoingQueueItem} {queue rest : List OutgoingQueueItem}

/-! ## The tally -/

structure Tally (trace : List Event) (d : Desk) : Prop where
  future : ∀ id, d.nextId ≤ id → id ∉ attempted trace
  spent : ∀ item, .queued item ∈ trace → ∀ msg ∈ d.queue, msg.id = item.id →
    msg.numberOfRetries + (attempted trace).count item.id = item.numberOfRetries
  expired : ∀ item, .queued item ∈ trace → ∀ msg, d.phase = .expired msg → msg.id = item.id →
    ((attempted trace).count item.id : Int) = item.numberOfRetries
  within : ∀ item, .queued item ∈ trace →
    ((attempted trace).count item.id : Int) ≤ item.numberOfRetries
  reached : ∀ id ∈ attempted trace, ∀ msg ∈ d.queue, id ≤ msg.id
  known : attempted trace ⊆ queuedIds trace
  ordered : (attempted trace).Pairwise (· ≤ ·)
  numbered : (queuedIds trace).Pairwise (· < ·)

namespace Tally

theorem start : Tally [] Desk.start :=
  ⟨fun _ _ => List.not_mem_nil, fun _ h => absurd h List.not_mem_nil,
    fun _ h => absurd h List.not_mem_nil, fun _ h => absurd h List.not_mem_nil,
    fun _ h => absurd h List.not_mem_nil, List.Subset.refl _, .nil, .nil⟩

/-- Nothing is queued or attempted, and an item may leave the queue without retries. -/
theorem quiet (h : Tally trace d) (hattempt : event.attempt? = none)
    (hqueued : event.queuedId? = none) (hnext : d'.nextId = d.nextId)
    (hqueue : ∀ msg ∈ d'.queue, msg ∈ d.queue)
    (hexpired : ∀ msg, d'.phase = .expired msg →
      d.phase = .expired msg ∨ msg ∈ d.queue ∧ msg.numberOfRetries = 0) :
    Tally (trace ++ [event]) d' := by
  have hsame : attempted (trace ++ [event]) = attempted trace :=
    filterMap_snoc_none _ trace hattempt
  have hold : ∀ item, .queued item ∈ trace ++ [event] → .queued item ∈ trace := by
    intro item hitem
    rcases List.mem_append.mp hitem with hitem | hitem
    · exact hitem
    · rw [← List.mem_singleton.mp hitem] at hqueued
      cases hqueued
  refine ⟨?_, ?_, ?_, ?_, ?_, ?_, ?_, ?_⟩
  · rw [hsame, hnext]
    exact h.future
  · rw [hsame]
    exact fun item hitem msg hmsg => h.spent item (hold item hitem) msg (hqueue msg hmsg)
  · rw [hsame]
    intro item hitem msg hmsg hid
    rcases hexpired msg hmsg with hmsg | ⟨hmsg, hretries⟩
    · exact h.expired item (hold item hitem) msg hmsg hid
    · have := h.spent item (hold item hitem) msg hmsg hid
      omega
  · rw [hsame]
    exact fun item hitem => h.within item (hold item hitem)
  · rw [hsame]
    exact fun id hid msg hmsg => h.reached id hid msg (hqueue msg hmsg)
  · rw [hsame, queuedIds, filterMap_snoc_none _ trace hqueued]
    exact h.known
  · rw [hsame]
    exact h.ordered
  · rw [queuedIds, filterMap_snoc_none _ trace hqueued]
    exact h.numbered

/-- The head of the queue is attempted. -/
theorem attempt {w : Write} (h : Tally trace ⟨msg :: rest, n, phase⟩)
    (hbooks : Books trace ⟨msg :: rest, n, phase⟩) (horder : Order ⟨msg :: rest, n, phase⟩)
    (hwrite : w.Transmits msg) (hretries : 0 < msg.numberOfRetries)
    (hphase : ∀ item, phase' ≠ .expired item) :
    Tally (trace ++ [.wrote w]) ⟨msg.retried :: rest, n, phase'⟩ := by
  have hmore : attempted (trace ++ [.wrote w]) = attempted trace ++ [msg.id] :=
    filterMap_snoc_some _ trace hwrite.request?
  have hold : ∀ item, .queued item ∈ trace ++ [.wrote w] → .queued item ∈ trace := by
    intro item hitem
    rcases List.mem_append.mp hitem with hitem | hitem
    · exact hitem
    · cases List.mem_singleton.mp hitem
  -- The count goes up for the head only.
  have hself : (attempted trace ++ [msg.id]).count msg.id =
      (attempted trace).count msg.id + 1 := by
    rw [List.count_append, List.count_singleton_self]
  have hother : ∀ id, id ≠ msg.id →
      (attempted trace ++ [msg.id]).count id = (attempted trace).count id := by
    intro id hne
    rw [List.count_append, List.count_singleton, beq_eq_false_iff_ne.mpr hne.symm]
    rfl
  have hspent : ∀ item, .queued item ∈ trace → msg.id = item.id →
      msg.retried.numberOfRetries + (attempted trace ++ [msg.id]).count item.id =
        item.numberOfRetries := by
    intro item hitem hid
    have hsum := h.spent item hitem msg List.mem_cons_self hid
    rw [← hid] at hsum ⊢
    rw [hself]
    show msg.numberOfRetries - 1 + (((attempted trace).count msg.id + 1 : Nat) : Int) = _
    omega
  refine ⟨?_, ?_, ?_, ?_, ?_, ?_, ?_, ?_⟩
  · intro id hid hmem
    rw [hmore] at hmem
    rcases List.mem_append.mp hmem with hmem | hmem
    · exact h.future id hid hmem
    · rw [List.mem_singleton.mp hmem] at hid
      exact Nat.not_le_of_lt (horder.fresh msg List.mem_cons_self) hid
  · intro item hitem other hmem hid
    rw [hmore]
    rcases List.mem_cons.mp hmem with rfl | hmem
    · exact hspent item (hold item hitem) hid
    · rw [hother item.id (hid ▸ horder.others other hmem)]
      exact h.spent item (hold item hitem) other (List.mem_cons_of_mem msg hmem) hid
  · exact fun item _ other hexpired => absurd hexpired (hphase other)
  · intro item hitem
    rw [hmore]
    by_cases hid : msg.id = item.id
    · have hsum := hspent item (hold item hitem) hid
      have hleft : msg.retried.numberOfRetries = msg.numberOfRetries - 1 := rfl
      omega
    · rw [hother item.id (Ne.symm hid)]
      exact h.within item (hold item hitem)
  · intro id hmem other hother
    rw [hmore] at hmem
    have hlater : msg.id ≤ other.id := by
      rcases List.mem_cons.mp hother with rfl | hother
      · exact Nat.le_refl _
      · exact Nat.le_of_lt ((List.pairwise_cons.mp horder.distinct).1 other hother)
    rcases List.mem_append.mp hmem with hmem | hmem
    · exact Nat.le_trans (h.reached id hmem msg List.mem_cons_self) hlater
    · rw [List.mem_singleton.mp hmem]
      exact hlater
  · rw [hmore, queuedIds, filterMap_snoc_none _ trace rfl]
    intro id hmem
    rcases List.mem_append.mp hmem with hmem | hmem
    · exact h.known hmem
    · obtain ⟨item, hitem, hbecomes⟩ := hbooks.head
      rw [List.mem_singleton.mp hmem, hbecomes.id]
      exact List.mem_filterMap.mpr ⟨_, hitem, rfl⟩
  · rw [hmore, List.pairwise_append]
    refine ⟨h.ordered, List.pairwise_singleton _ _, ?_⟩
    intro id hmem last hlast
    rw [List.mem_singleton.mp hlast]
    exact h.reached id hmem msg List.mem_cons_self
  · rw [queuedIds, filterMap_snoc_none _ trace rfl]
    exact h.numbered

/-- A new item has not been attempted. -/
theorem queued (h : Tally trace ⟨queue, n, phase⟩) (hbooks : Books trace ⟨queue, n, phase⟩)
    (horder : Order ⟨queue, n, phase⟩) (hid : item.id = n) (hretries : 1 ≤ item.numberOfRetries) :
    Tally (trace ++ [.queued item]) ⟨queue ++ [item], n + 1, phase⟩ := by
  have hsame : attempted (trace ++ [.queued item]) = attempted trace :=
    filterMap_snoc_none _ trace rfl
  have hids : queuedIds (trace ++ [.queued item]) = queuedIds trace ++ [item.id] :=
    filterMap_snoc_some _ trace rfl
  have hnone : (attempted trace).count item.id = 0 :=
    List.count_eq_zero.mpr (h.future item.id (Nat.le_of_eq hid.symm))
  have hmem : ∀ other, .queued other ∈ trace ++ [.queued item] →
      .queued other ∈ trace ∧ other.id < n ∨ other = item := by
    intro other hother
    rcases List.mem_append.mp hother with hother | hother
    · exact .inl ⟨hother, hbooks.known other hother⟩
    · cases List.mem_singleton.mp hother
      exact .inr rfl
  refine ⟨?_, ?_, ?_, ?_, ?_, ?_, ?_, ?_⟩
  · rw [hsame]
    exact fun id hle => h.future id (Nat.le_of_succ_le hle)
  · intro other hother msg hmsg heq
    rw [hsame]
    rcases hmem other hother with ⟨hother, hlt⟩ | rfl
    · rcases List.mem_append.mp hmsg with hmsg | hmsg
      · exact h.spent other hother msg hmsg heq
      · rw [List.mem_singleton.mp hmsg] at heq
        omega
    · rcases List.mem_append.mp hmsg with hmsg | hmsg
      · have hlt : msg.id < n := horder.fresh msg hmsg
        omega
      · rw [List.mem_singleton.mp hmsg, hnone]
        exact Int.add_zero _
  · intro other hother msg hmsg heq
    rw [hsame]
    rcases hmem other hother with ⟨hother, hlt⟩ | rfl
    · exact h.expired other hother msg hmsg heq
    · have hlt : msg.id < n := hbooks.id_lt (hbooks.expired msg hmsg).1
      omega
  · intro other hother
    rw [hsame]
    rcases hmem other hother with ⟨hother, _⟩ | rfl
    · exact h.within other hother
    · rw [hnone]
      exact Int.le_of_lt hretries
  · intro id hattempted msg hmsg
    rw [hsame] at hattempted
    rcases List.mem_append.mp hmsg with hmsg | hmsg
    · exact h.reached id hattempted msg hmsg
    · rw [List.mem_singleton.mp hmsg, hid]
      by_contra hlt
      exact h.future id (Nat.le_of_lt (Nat.lt_of_not_le hlt)) hattempted
  · rw [hsame, hids]
    exact fun id hmem => List.mem_append_left _ (h.known hmem)
  · rw [hsame]
    exact h.ordered
  · rw [hids, List.pairwise_append]
    refine ⟨h.numbered, List.pairwise_singleton _ _, ?_⟩
    intro id hmem last hlast
    obtain ⟨event, hevent, hsome⟩ := List.mem_filterMap.mp hmem
    cases event with
    | queued other =>
      cases hsome
      rw [List.mem_singleton.mp hlast, hid]
      exact hbooks.known other hevent
    | _ => cases hsome

theorem step (h : Tally trace d) (hbooks : Books trace d) (horder : Order d)
    (hstep : Step d event d') : Tally (trace ++ [event]) d' := by
  cases hstep with
  | began => exact h.quiet rfl rfl rfl (fun _ hmsg => hmsg) (fun _ he => .inl he)
  | accessed => exact h.quiet rfl rfl rfl (fun _ hmsg => hmsg) (fun _ he => .inl he)
  | queued hid hretries => exact h.queued hbooks horder hid hretries.1
  | heard => exact h.quiet rfl rfl rfl (fun _ hmsg => hmsg) (fun _ he => .inl he)
  | replied horigin =>
    exact h.quiet (Write.request?_answer horigin) rfl rfl (fun _ hmsg => hmsg)
      (fun _ he => .inl he)
  | transmitted hwrite hretries =>
    exact h.attempt hbooks horder hwrite hretries (fun _ => Phase.noConfusion)
  | failed hwrite hretries =>
    exact h.attempt hbooks horder hwrite hretries (fun _ => Phase.noConfusion)
  | expires hretries =>
    refine h.quiet rfl rfl rfl (fun _ hmsg => List.mem_cons_of_mem _ hmsg) ?_
    rintro _ ⟨⟩
    exact .inr ⟨List.mem_cons_self, hretries⟩
  | exhausted | delivered | resolved =>
    exact h.quiet rfl rfl rfl (fun _ hmsg => List.mem_cons_of_mem _ hmsg)
      (fun _ he => Phase.noConfusion he)
  | awaits | retries | timedOut | answered | closed =>
    exact h.quiet rfl rfl rfl (fun _ hmsg => hmsg) (fun _ he => Phase.noConfusion he)

end Tally

/-- The tally of any record. -/
theorem tally_of_replays (h : Replays Step Desk.start trace d) : Tally trace d := by
  refine replays_induction Tally.start ?_ h
  intro _ _ _ _ hbefore ih hstep
  exact ih.step (books_of_replays hbefore) (order_of_replays hbefore).1 hstep

/-! ## Settled items -/

/-- The item has left the queue, or it is about to because its answer handler was called. -/
structure Settled (d : Desk) (id : Nat) : Prop where
  known : id < d.nextId
  leaving : ∀ msg ∈ d.queue, msg.id = id →
    ∃ rest arrival, d.queue = msg :: rest ∧ d.phase = .answered arrival

namespace Settled

theorem of_absent (hid : id < d.nextId) (h : ∀ msg ∈ d.queue, msg.id ≠ id) : Settled d id :=
  ⟨hid, fun msg hmsg heq => absurd heq (h msg hmsg)⟩

theorem absent (h : Settled d id) (hphase : ∀ arrival, d.phase ≠ .answered arrival) :
    ∀ msg ∈ d.queue, msg.id ≠ id := by
  intro msg hmsg heq
  obtain ⟨_, arrival, _, hanswered⟩ := h.leaving msg hmsg heq
  exact hphase arrival hanswered

/-- The head is removed. -/
theorem tail (h : Settled ⟨msg :: rest, n, phase⟩ id) (horder : Order ⟨msg :: rest, n, phase⟩)
    (phase' : Phase) : Settled ⟨rest, n, phase'⟩ id := by
  refine of_absent h.known ?_
  intro other hother heq
  obtain ⟨_, _, hqueue, _⟩ := h.leaving other (List.mem_cons_of_mem msg hother) heq
  cases hqueue
  exact horder.others msg hother rfl

/-- The head is attempted, and it is another item. -/
theorem attempt {w : Write} (h : Settled ⟨msg :: rest, n, .idle⟩ id) (hwrite : w.Transmits msg)
    (phase' : Phase) :
    (Event.wrote w).attempt? ≠ some id ∧ Settled ⟨msg.retried :: rest, n, phase'⟩ id := by
  have habsent := h.absent (fun _ => Phase.noConfusion)
  have hhead := habsent msg List.mem_cons_self
  constructor
  · rw [show (Event.wrote w).attempt? = some msg.id from hwrite.request?]
    exact fun heq => hhead (Option.some_inj.mp heq)
  · refine of_absent h.known ?_
    intro other hother
    rcases List.mem_cons.mp hother with rfl | hother
    · exact hhead
    · exact habsent other (List.mem_cons_of_mem msg hother)

theorem step (h : Settled d id) (horder : Order d) (hstep : Step d event d') :
    event.attempt? ≠ some id ∧ Settled d' id := by
  have hnone : ∀ {o : Option Nat}, o = none → o ≠ some id := by
    rintro _ rfl
    exact (Option.some_ne_none id).symm
  cases hstep with
  | began | accessed | heard => exact ⟨hnone rfl, h⟩
  | replied horigin => exact ⟨hnone (Write.request?_answer horigin), h⟩
  | @queued queue n phase item hid =>
    refine ⟨hnone rfl, Nat.lt_succ_of_lt h.known, ?_⟩
    intro msg hmsg heq
    rcases List.mem_append.mp hmsg with hmsg | hmsg
    · obtain ⟨rest, arrival, hqueue, hphase⟩ := h.leaving msg hmsg heq
      exact ⟨rest ++ [item], arrival, congrArg (· ++ [item]) hqueue, hphase⟩
    · have hlt : id < n := h.known
      rw [List.mem_singleton.mp hmsg] at heq
      omega
  | transmitted hwrite => exact h.attempt hwrite _
  | failed hwrite => exact h.attempt hwrite _
  | exhausted | delivered | expires | resolved => exact ⟨hnone rfl, h.tail horder _⟩
  | awaits | retries | timedOut | answered | closed =>
    exact ⟨hnone rfl, of_absent h.known (h.absent (fun _ => Phase.noConfusion))⟩

/-- Settled items are not attempted again. -/
theorem replays : ∀ {more : List Event} {d : Desk}, Settled d id → Order d →
    Replays Step d more d' → id ∉ attempted more
  | [], _, _, _, _ => List.not_mem_nil
  | event :: more, d, h, horder, ⟨m, hstep, hmore⟩ => by
    obtain ⟨hother, hsettled⟩ := h.step horder hstep
    have hrest := replays hsettled (horder.step hstep) hmore
    intro hmem
    obtain ⟨first, hfirst, hsome⟩ := List.mem_filterMap.mp hmem
    rcases List.mem_cons.mp hfirst with rfl | hfirst
    · exact hother hsome
    · exact hrest (List.mem_filterMap.mpr ⟨first, hfirst, hsome⟩)

end Settled

/-! ## What the record says about an item -/

/-- No attempt follows the call of an answer handler. -/
theorem answered_settles {before after : List Event} {handler : HandlerRef}
    {requestType : FrameType} {arrival : Arrival}
    (h : Replays Step Desk.start
      (before ++ .invoked (.answer handler requestType (some id) arrival) :: after) d) :
    id ∉ attempted after := by
  obtain ⟨m, m', hbefore, hstep, hafter⟩ := replays_split h
  have horder := (order_of_replays hbefore).1
  have horder' := horder.step hstep
  cases hstep with
  | @answered msg rest n w =>
    have hsettled : Settled ⟨msg :: rest, n, .answered arrival⟩ msg.id := by
      refine ⟨horder.fresh msg List.mem_cons_self, ?_⟩
      intro other hother heq
      rcases List.mem_cons.mp hother with rfl | hother
      · exact ⟨rest, arrival, rfl, rfl⟩
      · exact absurd heq (horder.others other hother)
    exact hsettled.replays horder' hafter

/-- All attempts precede the call of a timeout handler. -/
theorem timedOut_exhausts {before after : List Event} {handler : HandlerRef}
    {requestType : FrameType}
    (h : Replays Step Desk.start
      (before ++ .invoked (.timeout handler requestType id) :: after) d)
    (hitem : .queued item ∈ before ++ .invoked (.timeout handler requestType id) :: after)
    (hid : item.id = id) :
    ((attempted before).count id : Int) = item.numberOfRetries ∧ id ∉ attempted after := by
  have hall := books_of_replays h
  obtain ⟨m, m', hbefore, hstep, hafter⟩ := replays_split h
  have horder := (order_of_replays hbefore).1.step hstep
  have hbooks := books_of_replays hbefore
  cases hstep with
  | @timedOut msg queue n =>
    obtain ⟨hmsg, habsent⟩ := hbooks.expired msg rfl
    obtain ⟨other, hother, hbecomes⟩ := hmsg
    have hsame : other = item := hall.unique other item (List.mem_append_left _ hother) hitem
      (hbecomes.id.symm.trans hid.symm)
    have hsettled : Settled ⟨queue, n, .closing⟩ msg.id :=
      .of_absent (hbooks.id_lt ⟨other, hother, hbecomes⟩) habsent
    refine ⟨?_, hsettled.replays horder hafter⟩
    rw [← hsame, hbecomes.id]
    exact (tally_of_replays hbefore).expired other hother msg rfl hbecomes.id

/-- The wait for an answer begins when a request has been written. -/
theorem awaits_request {before after : List Event}
    (h : Replays Step Desk.start (before ++ .entered .waitingForAnswer :: after) d) :
    ∃ item w, .queued item ∈ before ∧ item.noAnswer = false ∧
      (writes before).getLast? = some w ∧ w.isSuccess = true ∧ w.origin = .request item.id := by
  obtain ⟨m, m', hbefore, hstep, _⟩ := replays_split h
  have hengaged := (order_of_replays hbefore).2
  cases hstep with
  | @awaits msg rest n w hkind =>
    obtain ⟨item, hitem, hbecomes⟩ := (books_of_replays hbefore).head
    obtain ⟨_, _, hqueue, hout⟩ := hengaged
    cases hqueue
    exact ⟨item, w, hitem, hbecomes.noAnswer.symm.trans hkind, hout.last, hout.isSuccess,
      hbecomes.id ▸ hout.transmits.origin⟩

end Desk

/-! ## The budget -/

theorem request_budget (id : Nat) (message : HaierMessage) (useCrc : Bool) (numRepeats : UInt8)
    (interval : Int) :
    (OutgoingQueueItem.request id message useCrc numRepeats interval).numberOfRetries =
      ((min numRepeats.toNat 9 + 1 : Nat) : Int) := by
  have hmin : (min numRepeats maxPacketRetries).toNat = min numRepeats.toNat 9 := by
    rw [show min numRepeats maxPacketRetries =
      if numRepeats ≤ maxPacketRetries then numRepeats else maxPacketRetries from rfl]
    split
    · rename_i hle
      exact (Nat.min_eq_left (UInt8.le_iff_toNat_le.mp hle)).symm
    · rename_i hle
      exact (Nat.min_eq_right (Nat.le_of_not_le fun h => hle (UInt8.le_iff_toNat_le.mpr h))).symm
  show ((min numRepeats maxPacketRetries).toNat : Int) + 1 = _
  rw [hmin]
  rfl

/-- In every run: a request is attempted at most once more than it may be repeated, all of these
attempts have been made when its timeout handler is called, and none follows that call or that of
its answer handler.  A notice is transmitted at most once, and no wait for an answer begins with
its write.  Messages are attempted in the order in which they were queued. -/
theorem run_attempts (cells : Nat → UInt8) (bufferSize : Nat) (env : Surroundings)
    (steps : List Endpoint.Step) :
    let trace := ((Endpoint.start cells bufferSize).run env steps).trace
    (∀ id message useCrc numRepeats interval,
      .queued (.request id message useCrc numRepeats interval) ∈ trace →
        (attempted trace).count id ≤ min numRepeats.toNat 9 + 1 ∧
        (∀ before after handler requestType arrival, trace =
          before ++ .invoked (.answer handler requestType (some id) arrival) :: after →
            id ∉ attempted after) ∧
        (∀ before after handler requestType,
          trace = before ++ .invoked (.timeout handler requestType id) :: after →
            (attempted before).count id = min numRepeats.toNat 9 + 1 ∧ id ∉ attempted after)) ∧
    (∀ id message useCrc, .queued (.notice id message useCrc) ∈ trace →
      (transmitted trace).count id ≤ 1 ∧
      ∀ before after, trace = before ++ .entered .waitingForAnswer :: after →
        ∃ w other, (writes before).getLast? = some w ∧ w.origin = .request other ∧ other ≠ id) ∧
    attempted trace ⊆ queuedIds trace ∧ (queuedIds trace).Pairwise (· < ·) ∧
      (attempted trace).Pairwise (· ≤ ·) := by
  intro trace
  obtain ⟨d, h⟩ := Service.serves_run cells bufferSize env steps
  have hreplays : Replays Desk.Step Desk.start trace d := h.replays
  have htally := Desk.tally_of_replays hreplays
  have hbooks := Desk.books_of_replays hreplays
  refine ⟨?_, ?_, htally.known, htally.numbered, htally.ordered⟩
  · intro id message useCrc numRepeats interval hitem
    have hbudget := request_budget id message useCrc numRepeats interval
    refine ⟨?_, ?_, ?_⟩
    · have hwithin := htally.within _ hitem
      rw [hbudget] at hwithin
      exact Int.ofNat_le.mp hwithin
    · intro before after handler requestType arrival htrace
      exact Desk.answered_settles (htrace ▸ hreplays)
    · intro before after handler requestType htrace
      obtain ⟨hcount, hafter⟩ :=
        Desk.timedOut_exhausts (htrace ▸ hreplays) (htrace ▸ hitem) rfl
      rw [hbudget] at hcount
      exact ⟨Int.ofNat_inj.mp hcount, hafter⟩
  · intro id message useCrc hitem
    refine ⟨?_, ?_⟩
    · have hwithin : ((attempted trace).count id : Int) ≤ 1 := htally.within _ hitem
      have hsublist := (transmitted_sublist trace).count_le id
      omega
    · intro before after htrace
      obtain ⟨item, w, hqueued, hkind, hlast, _, horigin⟩ :=
        Desk.awaits_request (htrace ▸ hreplays)
      refine ⟨w, item.id, hlast, horigin, fun heq => ?_⟩
      have hmem : .queued item ∈ trace := htrace ▸ List.mem_append_left _ hqueued
      have hsame := hbooks.unique item _ hmem hitem heq
      rw [hsame] at hkind
      exact Bool.noConfusion hkind

end HaierProtocol
