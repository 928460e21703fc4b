import HaierProtocol.Protocol.Desk

/-!
# The accounts of a desk

How often a request is removed and how often a handler is called for it.  This is settled by
its place at the desk: in the queue nothing has happened to it, and once it is gone it has been
removed once.  A request whose transmissions count as sent leaves the queue only when its
answer has been awaited, so one handler has been called for it.  Any other leaves from the idle
state, and none has.
-/

namespace HaierProtocol

open Replay ProtocolHandler

/-- A handler is called for the item: with an answer, or because there is none. -/
def Event.concerns (id : Nat) : Event → Bool
  | .invoked (.answer _ _ request _) => request == some id
  | .invoked (.timeout _ _ request) => request == id
  | _ => false

def Event.removes (id : Nat) : Event → Bool
  | .removed other => other == id
  | _ => false

namespace Desk

/-- Where an item is. -/
inductive Place where
  | queued
  | answering (arrival : Arrival)
  | expired
  | gone

def place (d : Desk) (id : Nat) : Place :=
  if d.queue.any (·.id == id) then
    match d.phase, d.queue with
    | .answered a, msg :: _ => if msg.id = id then .answering a else .queued
    | _, _ => .queued
  else
    match d.phase with
    | .expired msg => if msg.id = id then .expired else .gone
    | _ => .gone

/-- One handler has been called for the request. -/
def Handled (item : OutgoingQueueItem) (events : List Event) : Prop :=
  (∃ handler a, events =
    [.invoked (.answer handler item.message.frameType (some item.id) a)]) ∨
  ∃ handler, events = [.invoked (.timeout handler item.message.frameType item.id)]

/-- What has happened to a request, by its place. -/
def Account (trace : List Event) (item : OutgoingQueueItem) : Place → Prop
  | .queued => trace.filter (Event.removes item.id) = [] ∧
      trace.filter (Event.concerns item.id) = []
  | .answering a => trace.filter (Event.removes item.id) = [] ∧
      (∃ handler, trace.filter (Event.concerns item.id) =
        [.invoked (.answer handler item.message.frameType (some item.id) a)]) ∧
      countsAsSent item.message item.useCrc = true
  | .expired => trace.filter (Event.removes item.id) = [.removed item.id] ∧
      trace.filter (Event.concerns item.id) = [] ∧ countsAsSent item.message item.useCrc = true
  | .gone => trace.filter (Event.removes item.id) = [.removed item.id] ∧
      if countsAsSent item.message item.useCrc = true then
        Handled item (trace.filter (Event.concerns item.id))
      else trace.filter (Event.concerns item.id) = []

/-- The item is what has become of the one that was queued. -/
structure Becomes (item msg : OutgoingQueueItem) : Prop where
  id : msg.id = item.id
  message : msg.message = item.message
  useCrc : msg.useCrc = item.useCrc
  noAnswer : msg.noAnswer = item.noAnswer

/-- The items that are not being dealt with. -/
def idleItems (d : Desk) : List OutgoingQueueItem :=
  match d.phase with
  | .sent _ | .waiting _ | .answered _ => d.queue.tail
  | _ => d.queue

/-- A request that counts as sent still has retries. -/
def Lasts (msg : OutgoingQueueItem) : Prop :=
  msg.noAnswer = false → countsAsSent msg.message msg.useCrc = true → 0 < msg.numberOfRetries

structure Books (trace : List Event) (d : Desk) : Prop where
  known : ∀ item, .queued item ∈ trace → item.id < d.nextId
  unique : ∀ item other, .queued item ∈ trace → .queued other ∈ trace → item.id = other.id →
    item = other
  future : ∀ id, d.nextId ≤ id → trace.filter (Event.removes id) = [] ∧
    trace.filter (Event.concerns id) = []
  items : ∀ msg ∈ d.queue, ∃ item, .queued item ∈ trace ∧ Becomes item msg
  expired : ∀ msg, d.phase = .expired msg → (∃ item, .queued item ∈ trace ∧ Becomes item msg) ∧
    ∀ other ∈ d.queue, other.id ≠ msg.id
  ready : ∀ msg ∈ d.idleItems, Lasts msg
  accounts : ∀ item, .queued item ∈ trace → item.noAnswer = false →
    Account trace item (d.place item.id)

/-! ## Places -/

variable {n id : Nat} {phase : Phase} {msg : OutgoingQueueItem}
  {queue rest : List OutgoingQueueItem}

theorem any_eq_false (h : ∀ other ∈ queue, other.id ≠ id) : queue.any (·.id == id) = false := by
  rw [List.any_eq_false]
  intro other hother
  simpa using h other hother

/-- The removal of the head does not concern the others. -/
theorem place_cons_of_ne (hne : msg.id ≠ id) (h : ∀ a, phase ≠ .answered a) :
    place ⟨msg :: rest, n, phase⟩ id = place ⟨rest, n, phase⟩ id := by
  have hany : (msg :: rest).any (·.id == id) = rest.any (·.id == id) := by
    simp [hne]
  unfold place
  dsimp only
  rw [hany]
  cases phase with
  | answered a => exact absurd rfl (h a)
  | _ => rfl

theorem place_of_mem (hany : queue.any (·.id == id) = true) (h : ∀ a, phase ≠ .answered a) :
    place ⟨queue, n, phase⟩ id = .queued := by
  unfold place
  dsimp only
  rw [if_pos hany]
  cases phase with
  | answered a => exact absurd rfl (h a)
  | _ => rfl

theorem place_head (h : ∀ a, phase ≠ .answered a) :
    place ⟨msg :: rest, n, phase⟩ msg.id = .queued :=
  place_of_mem (by simp) h

theorem place_queued (hid : id < n) {item : OutgoingQueueItem} (hitem : item.id = n) :
    place ⟨queue ++ [item], n + 1, phase⟩ id = place ⟨queue, n, phase⟩ id := by
  have hne : (item.id == id) = false := beq_eq_false_iff_ne.mpr (by omega)
  cases queue with
  | nil =>
    unfold place
    simp [hne]
  | cons msg rest =>
    have hany : (msg :: rest ++ [item]).any (·.id == id) = (msg :: rest).any (·.id == id) := by
      simp [hne]
    unfold place
    dsimp only
    rw [hany]
    cases phase <;> rfl

theorem place_new {trace : List Event} {item : OutgoingQueueItem} (horder : Order ⟨queue, n, phase⟩)
    (hengaged : Engaged trace ⟨queue, n, phase⟩) (hid : item.id = n) :
    place ⟨queue ++ [item], n + 1, phase⟩ item.id = .queued := by
  cases queue with
  | nil =>
    refine place_head ?_
    rintro a rfl
    obtain ⟨_, _, hnil⟩ := hengaged
    cases hnil
  | cons head rest =>
    have hhead : head.id ≠ item.id := by
      have := horder.fresh head List.mem_cons_self
      exact hid ▸ Nat.ne_of_lt this
    have hany : (head :: rest ++ [item]).any (·.id == item.id) = true := by simp
    unfold place
    dsimp only
    rw [if_pos hany]
    cases phase with
    | answered a => exact if_neg hhead
    | _ => rfl

/-- The item that has just been removed. -/
theorem place_expired (hne : ∀ other ∈ queue, other.id ≠ msg.id) :
    place ⟨queue, n, .expired msg⟩ msg.id = .expired := by
  unfold place
  dsimp only
  rw [any_eq_false hne, if_neg Bool.false_ne_true, if_pos rfl]

theorem place_expired_of_ne (hne : msg.id ≠ id) (phase' : Phase)
    (h : ∀ a, phase' ≠ .answered a) (h' : ∀ item, phase' ≠ .expired item) :
    place ⟨queue, n, .expired msg⟩ id = place ⟨queue, n, phase'⟩ id := by
  unfold place
  dsimp only
  rw [if_neg hne]
  cases phase' with
  | answered a => exact absurd rfl (h a)
  | expired item => exact absurd rfl (h' item)
  | _ => rfl

theorem place_answered (a : Arrival) :
    place ⟨msg :: rest, n, .answered a⟩ msg.id = .answering a := by
  have hany : (msg :: rest).any (·.id == msg.id) = true := by simp
  unfold place
  dsimp only
  rw [if_pos hany, if_pos rfl]

theorem place_answered_of_ne (hne : msg.id ≠ id) (a : Arrival) :
    place ⟨msg :: rest, n, .answered a⟩ id = place ⟨rest, n, .closing⟩ id := by
  have hany : (msg :: rest).any (·.id == id) = rest.any (·.id == id) := by
    simp [hne]
  unfold place
  dsimp only
  rw [hany, if_neg hne]

theorem place_gone (hne : ∀ other ∈ queue, other.id ≠ id) (h : ∀ item, phase ≠ .expired item) :
    place ⟨queue, n, phase⟩ id = .gone := by
  unfold place
  dsimp only
  rw [any_eq_false hne, if_neg Bool.false_ne_true]
  cases phase with
  | expired item => exact absurd rfl (h item)
  | _ => rfl

/-! ## Accounts -/

variable {trace : List Event} {event : Event} {item : OutgoingQueueItem} {d d' : Desk}

theorem filter_snoc_false {p : Event → Bool} (trace : List Event) (h : p event = false) :
    (trace ++ [event]).filter p = trace.filter p := by
  rw [List.filter_append, List.filter_singleton, h]
  exact List.append_nil _

theorem filter_snoc_true {p : Event → Bool} (trace : List Event) (h : p event = true) :
    (trace ++ [event]).filter p = trace.filter p ++ [event] := by
  rw [List.filter_append, List.filter_singleton, h]
  rfl

/-- Events about others. -/
theorem Account.snoc {p : Place} (h : Account trace item p)
    (hremoves : event.removes item.id = false) (hconcerns : event.concerns item.id = false) :
    Account (trace ++ [event]) item p := by
  cases p <;> simp only [Account, filter_snoc_false trace hremoves,
    filter_snoc_false trace hconcerns] <;> exact h

/-- A request whose answer is awaited counts as sent. -/
theorem Becomes.sent {w : Write} (h : Becomes item msg)
    (hengaged : Engaged trace ⟨msg :: rest, n, .waiting w⟩) :
    countsAsSent item.message item.useCrc = true := by
  obtain ⟨_, _, hqueue, hout, _⟩ := hengaged
  cases hqueue
  rw [← h.message, ← h.useCrc, ← hout.transmits.isSuccess]
  exact hout.isSuccess

namespace Books

theorem of_event (h : Books trace d) (hne : ∀ item, event ≠ .queued item)
    (hnext : d'.nextId = d.nextId)
    (hfuture : ∀ id, d.nextId ≤ id → event.removes id = false ∧ event.concerns id = false)
    (hitems : ∀ msg ∈ d'.queue, ∃ item, .queued item ∈ trace ∧ Becomes item msg)
    (hexpired : ∀ msg, d'.phase = .expired msg →
      (∃ item, .queued item ∈ trace ∧ Becomes item msg) ∧ ∀ other ∈ d'.queue, other.id ≠ msg.id)
    (hready : ∀ msg ∈ d'.idleItems, Lasts msg)
    (haccounts : ∀ item, .queued item ∈ trace → item.noAnswer = false →
      Account (trace ++ [event]) item (d'.place item.id)) : Books (trace ++ [event]) d' := by
  have hold : ∀ item, .queued item ∈ trace ++ [event] → .queued item ∈ trace := by
    intro item hitem
    rcases List.mem_append.mp hitem with hitem | hitem
    · exact hitem
    · exact absurd (List.mem_singleton.mp hitem).symm (hne item)
  have hmore : ∀ msg, (∃ item, .queued item ∈ trace ∧ Becomes item msg) →
      ∃ item, .queued item ∈ trace ++ [event] ∧ Becomes item msg := by
    rintro msg ⟨item, hitem, hmsg⟩
    exact ⟨item, List.mem_append_left _ hitem, hmsg⟩
  refine ⟨?_, ?_, ?_, fun msg hmsg => hmore msg (hitems msg hmsg),
    fun msg hmsg => ⟨hmore msg (hexpired msg hmsg).1, (hexpired msg hmsg).2⟩, hready,
    fun item hitem => haccounts item (hold item hitem)⟩
  · intro item hitem
    rw [hnext]
    exact h.known item (hold item hitem)
  · intro item other hitem hother
    exact h.unique item other (hold item hitem) (hold other hother)
  · intro id hid
    rw [hnext] at hid
    obtain ⟨hremoves, hconcerns⟩ := hfuture id hid
    rw [filter_snoc_false trace hremoves, filter_snoc_false trace hconcerns]
    exact h.future id hid

/-- The identity of an item at the desk is one that has been given. -/
theorem id_lt (h : Books trace d) (hmsg : ∃ item, .queued item ∈ trace ∧ Becomes item msg) :
    msg.id < d.nextId := by
  obtain ⟨item, hitem, hbecomes⟩ := hmsg
  rw [hbecomes.id]
  exact h.known item hitem

/-- The item behind an identity. -/
theorem becomes (h : Books trace d) (hmsg : ∃ item, .queued item ∈ trace ∧ Becomes item msg)
    (hitem : .queued item ∈ trace) (hid : msg.id = item.id) : Becomes item msg := by
  obtain ⟨other, hother, hbecomes⟩ := hmsg
  rw [h.unique item other hitem hother (hid.symm.trans hbecomes.id)]
  exact hbecomes

theorem head (h : Books trace ⟨msg :: rest, n, phase⟩) :
    ∃ item, .queued item ∈ trace ∧ Becomes item msg := h.items msg List.mem_cons_self

/-- Events that only move the desk on. -/
theorem quiet (h : Books trace d) (hne : ∀ item, event ≠ .queued item)
    (hnext : d'.nextId = d.nextId)
    (hevent : ∀ id, event.removes id = false ∧ event.concerns id = false)
    (hitems : ∀ msg ∈ d'.queue, ∃ item, .queued item ∈ trace ∧ Becomes item msg)
    (hexpired : ∀ msg, d'.phase = .expired msg →
      (∃ item, .queued item ∈ trace ∧ Becomes item msg) ∧ ∀ other ∈ d'.queue, other.id ≠ msg.id)
    (hready : ∀ msg ∈ d'.idleItems, Lasts msg)
    (hplace : ∀ id, d'.place id = d.place id) : Books (trace ++ [event]) d' := by
  refine h.of_event hne hnext (fun id _ => hevent id) hitems hexpired hready ?_
  intro item hitem hkind
  rw [hplace]
  exact (h.accounts item hitem hkind).snoc (hevent _).1 (hevent _).2

/-- An event about one item. -/
theorem touching (h : Books trace d) (hmsg : ∃ item, .queued item ∈ trace ∧ Becomes item msg)
    (hne : ∀ item, event ≠ .queued item) (hnext : d'.nextId = d.nextId)
    (hitems : ∀ msg ∈ d'.queue, ∃ item, .queued item ∈ trace ∧ Becomes item msg)
    (hexpired : ∀ msg, d'.phase = .expired msg →
      (∃ item, .queued item ∈ trace ∧ Becomes item msg) ∧ ∀ other ∈ d'.queue, other.id ≠ msg.id)
    (hready : ∀ msg ∈ d'.idleItems, Lasts msg)
    (hothers : ∀ id, msg.id ≠ id → event.removes id = false ∧ event.concerns id = false ∧
      d'.place id = d.place id)
    (hself : ∀ item, Becomes item msg → item.noAnswer = false →
      Account trace item (d.place msg.id) → Account (trace ++ [event]) item (d'.place msg.id)) :
    Books (trace ++ [event]) d' := by
  refine h.of_event hne hnext ?_ hitems hexpired hready ?_
  · intro id hid
    obtain ⟨hremoves, hconcerns, _⟩ :=
      hothers id (Nat.ne_of_lt (Nat.lt_of_lt_of_le (h.id_lt hmsg) hid))
    exact ⟨hremoves, hconcerns⟩
  · intro item hitem hrequest
    have haccount := h.accounts item hitem hrequest
    by_cases heq : msg.id = item.id
    · rw [← heq] at haccount ⊢
      exact hself item (h.becomes hmsg hitem heq) hrequest haccount
    · obtain ⟨hremoves, hconcerns, hplace⟩ := hothers item.id heq
      rw [hplace]
      exact haccount.snoc hremoves hconcerns

/-- A new item. -/
theorem queued (h : Books trace ⟨queue, n, phase⟩) (horder : Order ⟨queue, n, phase⟩)
    (hengaged : Engaged trace ⟨queue, n, phase⟩) (hid : item.id = n)
    (hretries : 1 ≤ item.numberOfRetries) :
    Books (trace ++ [.queued item]) ⟨queue ++ [item], n + 1, phase⟩ := by
  have hmem : ∀ other, .queued other ∈ trace ++ [.queued item] →
      .queued other ∈ trace ∨ other = item := by
    intro other hother
    rcases List.mem_append.mp hother with hother | hother
    · exact .inl hother
    · cases List.mem_singleton.mp hother
      exact .inr rfl
  have hmore : ∀ msg, (∃ item, .queued item ∈ trace ∧ Becomes item msg) →
      ∃ other, .queued other ∈ trace ++ [.queued item] ∧ Becomes other msg := by
    rintro msg ⟨other, hother, hmsg⟩
    exact ⟨other, List.mem_append_left _ hother, hmsg⟩
  refine ⟨?_, ?_, ?_, ?_, ?_, ?_, ?_⟩
  · intro other hother
    rcases hmem other hother with hother | rfl
    · exact Nat.lt_succ_of_lt (h.known other hother)
    · exact hid ▸ Nat.lt_succ_self _
  · intro a b ha hb hab
    rcases hmem a ha with ha' | rfl <;> rcases hmem b hb with hb' | rfl
    · exact h.unique a b ha' hb' hab
    · exact absurd (hab.trans hid) (Nat.ne_of_lt (h.known a ha'))
    · exact absurd (hab.symm.trans hid) (Nat.ne_of_lt (h.known b hb'))
    · rfl
  · intro id hid'
    rw [filter_snoc_false trace rfl, filter_snoc_false trace rfl]
    exact h.future id (Nat.le_of_succ_le hid')
  · intro msg hmsg
    rcases List.mem_append.mp hmsg with hmsg | hmsg
    · exact hmore msg (h.items msg hmsg)
    · rw [List.mem_singleton.mp hmsg]
      exact ⟨item, List.mem_append_right _ List.mem_cons_self, rfl, rfl, rfl, rfl⟩
  · intro msg hmsg
    obtain ⟨hitem, hothers⟩ := h.expired msg hmsg
    refine ⟨hmore msg hitem, ?_⟩
    intro other hother
    rcases List.mem_append.mp hother with hother | hother
    · exact hothers other hother
    · rw [List.mem_singleton.mp hother, hid]
      exact Nat.ne_of_gt (h.id_lt hitem)
  · intro msg hmsg
    have hsplit : msg ∈ idleItems ⟨queue, n, phase⟩ ∨ msg = item := by
      cases queue with
      | nil => cases phase <;> simp_all [idleItems]
      | cons head rest => cases phase <;> simp_all [idleItems] <;> tauto
    rcases hsplit with hmsg | rfl
    · exact h.ready msg hmsg
    · intro _ _
      omega
  · intro other hother hkind
    rcases hmem other hother with hother | rfl
    · rw [place_queued (h.known other hother) hid]
      exact (h.accounts other hother hkind).snoc rfl rfl
    · rw [place_new horder hengaged hid]
      exact Account.snoc (h.future _ (Nat.le_of_eq hid.symm)) rfl rfl

/-- The head of the queue when a try has been made. -/
theorem items_retried (h : Books trace ⟨msg :: rest, n, phase⟩) :
    ∀ other ∈ msg.retried :: rest, ∃ item, .queued item ∈ trace ∧ Becomes item other := by
  intro other hother
  rcases List.mem_cons.mp hother with rfl | hother
  · obtain ⟨item, hitem, hmsg⟩ := h.head
    exact ⟨item, hitem, hmsg.id, hmsg.message, hmsg.useCrc, hmsg.noAnswer⟩
  · exact h.items other (List.mem_cons_of_mem msg hother)

theorem items_tail (h : Books trace ⟨msg :: rest, n, phase⟩) :
    ∀ other ∈ rest, ∃ item, .queued item ∈ trace ∧ Becomes item other :=
  fun other hother => h.items other (List.mem_cons_of_mem msg hother)

/-- What does not count as sent is removed without a handler, and so are notices. -/
theorem unheard (h : Books trace ⟨msg :: rest, n, phase⟩)
    (horder : Order ⟨msg :: rest, n, phase⟩)
    (hkind : msg.noAnswer = false → countsAsSent msg.message msg.useCrc = false)
    (hphase : ∀ a, phase ≠ .answered a) (hready : ∀ other ∈ rest, Lasts other)
    (hplace : ∀ id, place ⟨rest, n, .idle⟩ id = place ⟨rest, n, phase⟩ id) :
    Books (trace ++ [.removed msg.id]) ⟨rest, n, .idle⟩ := by
  refine h.touching h.head (fun _ => Event.noConfusion) rfl h.items_tail
    (fun _ he => Phase.noConfusion he) hready ?_ ?_
  · intro id hne
    exact ⟨beq_eq_false_iff_ne.mpr hne, rfl, (hplace id).trans (place_cons_of_ne hne hphase).symm⟩
  · intro item hmsg hrequest haccount
    have hsilent : ¬countsAsSent item.message item.useCrc = true := by
      rw [← hmsg.message, ← hmsg.useCrc, hkind (hmsg.noAnswer.trans hrequest)]
      exact Bool.false_ne_true
    have hremoves : Event.removes item.id (.removed msg.id) = true := beq_iff_eq.mpr hmsg.id
    rw [place_head hphase] at haccount
    rw [place_gone horder.others (fun _ => Phase.noConfusion), Account, if_neg hsilent,
      filter_snoc_true _ hremoves, filter_snoc_false _ rfl, haccount.1, haccount.2, hmsg.id]
    exact ⟨rfl, rfl⟩

/-- An event after which the desk is as it was. -/
theorem still (h : Books trace d) (hne : ∀ item, event ≠ .queued item)
    (hevent : ∀ id, event.removes id = false ∧ event.concerns id = false) :
    Books (trace ++ [event]) d :=
  h.quiet hne rfl hevent h.items h.expired h.ready (fun _ => rfl)

theorem failed {w : Write} (h : Books trace ⟨msg :: rest, n, .idle⟩)
    (hwrite : w.Transmits msg) (hsuccess : w.isSuccess = false) :
    Books (trace ++ [.wrote w]) ⟨msg.retried :: rest, n, .idle⟩ := by
  refine h.quiet (fun _ => Event.noConfusion) rfl (fun _ => ⟨rfl, rfl⟩) h.items_retried
    (fun _ he => Phase.noConfusion he) ?_ (fun _ => rfl)
  intro other hother
  rcases List.mem_cons.mp hother with rfl | hother
  · intro _ hsent
    rw [hwrite.isSuccess] at hsuccess
    exact absurd (hsuccess.symm.trans hsent) Bool.false_ne_true
  · exact h.ready other (List.mem_cons_of_mem msg hother)

theorem exhausted (h : Books trace ⟨msg :: rest, n, .idle⟩) (horder : Order ⟨msg :: rest, n, .idle⟩)
    (hretries : msg.numberOfRetries ≤ 0) :
    Books (trace ++ [.removed msg.id]) ⟨rest, n, .idle⟩ := by
  refine h.unheard horder ?_ (fun _ => Phase.noConfusion)
    (fun other hother => h.ready other (List.mem_cons_of_mem msg hother)) (fun _ => rfl)
  intro hkind
  by_contra hsent
  have := h.ready msg List.mem_cons_self hkind (by simpa using hsent)
  omega

theorem expires {w : Write} (h : Books trace ⟨msg :: rest, n, .waiting w⟩)
    (horder : Order ⟨msg :: rest, n, .waiting w⟩)
    (hengaged : Engaged trace ⟨msg :: rest, n, .waiting w⟩) :
    Books (trace ++ [.removed msg.id]) ⟨rest, n, .expired msg⟩ := by
  have hwaiting : ∀ a, Phase.waiting w ≠ .answered a := fun _ => Phase.noConfusion
  refine h.touching h.head (fun _ => Event.noConfusion) rfl h.items_tail ?_ h.ready ?_ ?_
  · intro other he
    cases he
    exact ⟨h.head, horder.others⟩
  · intro id hne
    refine ⟨beq_eq_false_iff_ne.mpr hne, rfl, ?_⟩
    rw [place_cons_of_ne hne hwaiting]
    exact place_expired_of_ne hne (.waiting w) hwaiting (fun _ => Phase.noConfusion)
  · intro item hmsg _ haccount
    have hremoves : Event.removes item.id (.removed msg.id) = true := beq_iff_eq.mpr hmsg.id
    rw [place_head hwaiting] at haccount
    rw [place_expired horder.others, Account, filter_snoc_true _ hremoves,
      filter_snoc_false _ rfl, haccount.1, haccount.2, hmsg.id]
    exact ⟨rfl, rfl, hmsg.sent hengaged⟩

theorem timedOut (h : Books trace ⟨queue, n, .expired msg⟩) (handler : HandlerRef) :
    Books (trace ++ [.invoked (.timeout handler msg.message.frameType msg.id)])
      ⟨queue, n, .closing⟩ := by
  obtain ⟨hmsg, hothers⟩ := h.expired msg rfl
  refine h.touching hmsg (fun _ => Event.noConfusion) rfl h.items
    (fun _ he => Phase.noConfusion he) h.ready ?_ ?_
  · intro id hne
    exact ⟨rfl, beq_eq_false_iff_ne.mpr hne, (place_expired_of_ne hne .closing
      (fun _ => Phase.noConfusion) (fun _ => Phase.noConfusion)).symm⟩
  · intro item hmsg _ haccount
    have hconcerns : Event.concerns item.id
        (.invoked (.timeout handler msg.message.frameType msg.id)) = true :=
      beq_iff_eq.mpr hmsg.id
    rw [place_expired hothers] at haccount
    rw [place_gone hothers (fun _ => Phase.noConfusion), Account, if_pos haccount.2.2,
      filter_snoc_false _ rfl, filter_snoc_true _ hconcerns, haccount.1, haccount.2.1, hmsg.id,
      hmsg.message]
    exact ⟨rfl, .inr ⟨handler, rfl⟩⟩

theorem answered {w : Write} (h : Books trace ⟨msg :: rest, n, .waiting w⟩)
    (hengaged : Engaged trace ⟨msg :: rest, n, .waiting w⟩) (handler : HandlerRef)
    (arrival : Arrival) :
    Books (trace ++
        [.invoked (.answer handler msg.message.frameType (some msg.id) arrival)])
      ⟨msg :: rest, n, .answered arrival⟩ := by
  refine h.touching h.head (fun _ => Event.noConfusion) rfl h.items
    (fun _ he => Phase.noConfusion he) h.ready ?_ ?_
  · intro id hne
    refine ⟨rfl, beq_eq_false_iff_ne.mpr (fun he => hne (Option.some_inj.mp he)), ?_⟩
    rw [place_answered_of_ne hne]
    exact (place_cons_of_ne hne (fun _ => Phase.noConfusion)).symm
  · intro item hmsg _ haccount
    have hconcerns : Event.concerns item.id
        (.invoked (.answer handler msg.message.frameType (some msg.id) arrival)) = true :=
      beq_iff_eq.mpr (congrArg some hmsg.id)
    rw [place_head (fun _ => Phase.noConfusion)] at haccount
    rw [place_answered, Account, filter_snoc_false _ rfl, filter_snoc_true _ hconcerns,
      haccount.1, haccount.2, hmsg.id, hmsg.message]
    exact ⟨rfl, ⟨handler, rfl⟩, hmsg.sent hengaged⟩

theorem resolved {arrival : Arrival} (h : Books trace ⟨msg :: rest, n, .answered arrival⟩)
    (horder : Order ⟨msg :: rest, n, .answered arrival⟩) :
    Books (trace ++ [.removed msg.id]) ⟨rest, n, .closing⟩ := by
  refine h.touching h.head (fun _ => Event.noConfusion) rfl h.items_tail
    (fun _ he => Phase.noConfusion he) h.ready ?_ ?_
  · intro id hne
    exact ⟨beq_eq_false_iff_ne.mpr hne, rfl, (place_answered_of_ne hne arrival).symm⟩
  · intro item hmsg _ haccount
    have hremoves : Event.removes item.id (.removed msg.id) = true := beq_iff_eq.mpr hmsg.id
    rw [place_answered] at haccount
    obtain ⟨hremoved, ⟨handler, hhandled⟩, hsent⟩ := haccount
    rw [place_gone horder.others (fun _ => Phase.noConfusion), Account, if_pos hsent,
      filter_snoc_true _ hremoves, filter_snoc_false _ rfl, hremoved, hhandled, hmsg.id]
    exact ⟨rfl, .inl ⟨handler, arrival, rfl⟩⟩

theorem step (h : Books trace d) (horder : Order d) (hengaged : Engaged trace d)
    (hstep : Step d event d') : Books (trace ++ [event]) d' := by
  cases hstep with
  | began => exact h.still (fun _ => Event.noConfusion) (fun _ => ⟨rfl, rfl⟩)
  | accessed => exact h.still (fun _ => Event.noConfusion) (fun _ => ⟨rfl, rfl⟩)
  | queued hid hretries => exact h.queued horder hengaged hid hretries.1
  | heard => exact h.still (fun _ => Event.noConfusion) (fun _ => ⟨rfl, rfl⟩)
  | replied => exact h.still (fun _ => Event.noConfusion) (fun _ => ⟨rfl, rfl⟩)
  | transmitted =>
    exact h.quiet (fun _ => Event.noConfusion) rfl (fun _ => ⟨rfl, rfl⟩) h.items_retried
      (fun _ he => Phase.noConfusion he)
      (fun other hother => h.ready other (List.mem_cons_of_mem _ hother)) (fun _ => rfl)
  | failed hwrite _ hsuccess => exact h.failed hwrite hsuccess
  | exhausted hretries => exact h.exhausted horder hretries
  | delivered hkind =>
    exact h.unheard horder (fun hfalse => absurd (hfalse.symm.trans hkind) Bool.false_ne_true)
      (fun _ => Phase.noConfusion) h.ready (fun _ => rfl)
  | awaits =>
    exact h.quiet (fun _ => Event.noConfusion) rfl (fun _ => ⟨rfl, rfl⟩) h.items
      (fun _ he => Phase.noConfusion he) h.ready (fun _ => rfl)
  | retries hretries =>
    refine h.quiet (fun _ => Event.noConfusion) rfl (fun _ => ⟨rfl, rfl⟩) h.items
      (fun _ he => Phase.noConfusion he) ?_ (fun _ => rfl)
    intro other hother
    rcases List.mem_cons.mp hother with rfl | hother
    · intro _ _
      have := (horder.retries other List.mem_cons_self).1
      omega
    · exact h.ready other hother
  | expires => exact h.expires horder hengaged
  | timedOut handler => exact h.timedOut handler
  | answered handler => exact h.answered hengaged handler _
  | resolved => exact h.resolved horder
  | closed =>
    exact h.quiet (fun _ => Event.noConfusion) rfl (fun _ => ⟨rfl, rfl⟩) h.items
      (fun _ he => Phase.noConfusion he) h.ready (fun _ => rfl)

theorem start : Books [] Desk.start :=
  ⟨fun _ h => absurd h List.not_mem_nil, fun _ _ h => absurd h List.not_mem_nil,
    fun _ _ => ⟨rfl, rfl⟩, fun _ h => absurd h List.not_mem_nil, fun _ h => Phase.noConfusion h,
    fun _ h => absurd h List.not_mem_nil, fun _ h => absurd h List.not_mem_nil⟩

end Books

/-- The books of any record. -/
theorem books_of_replays (h : Replays Step Desk.start trace d) : Books trace d := by
  refine replays_induction Books.start ?_ h
  intro _ _ _ _ hbefore ih hstep
  obtain ⟨horder, hengaged⟩ := order_of_replays hbefore
  exact ih.step horder hengaged hstep

end Desk
end HaierProtocol
