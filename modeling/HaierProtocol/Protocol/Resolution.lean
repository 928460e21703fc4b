import HaierProtocol.Protocol.Accounts
import HaierProtocol.Protocol.Ledger

/-!
# The resolution of requests

What becomes of a request in a run.  It waits in the queue, or it has left it once.  When it has
left, one handler has been called for it exactly if its transmissions count as sent.  A message
whose payload does not fit a frame, or whose encoding has a multiple of 256 bytes, is given up
without a word.
-/

namespace HaierProtocol

open ProtocolHandler

/-- A transmission of the message counts as sent. -/
def HaierMessage.Sendable (message : HaierMessage) (useCrc : Bool) : Prop :=
  ∃ p, message.packet useCrc = some p ∧ p.wire.length % 256 ≠ 0

theorem HaierMessage.sendable_iff (message : HaierMessage) (useCrc : Bool) :
    message.Sendable useCrc ↔ countsAsSent message useCrc = true := by
  rw [Sendable, countsAsSent]
  cases message.packet useCrc with
  | none =>
    constructor
    · rintro ⟨p, hp, _⟩
      cases hp
    · exact fun h => absurd h Bool.false_ne_true
  | some p =>
    constructor
    · rintro ⟨q, hq, hlen⟩
      cases hq
      exact bne_iff_ne.mpr hlen
    · exact fun h => ⟨p, rfl, bne_iff_ne.mp h⟩

namespace Endpoint

/-! ## What becomes of a request -/

/-- In some call of `loop` the handler was called, as it was registered then. -/
def Dispatched (env : Surroundings) (e : Endpoint) (steps : List Step) (invocation : Invocation) :
    Prop :=
  ∃ before reply after more, steps = before ++ .loop reply :: after ∧
    (let e' := e.run env before
    (e'.loop env reply).trace = e'.trace ++ more ∧ .invoked invocation ∈ more ∧
      invocation.Chosen e'.handler)

/-- Every call of a handler has been made so. -/
theorem dispatched_of_mem (cells : Nat → UInt8) (bufferSize : Nat) (env : Surroundings)
    (steps : List Step) {invocation : Invocation}
    (hmem : .invoked invocation ∈ ((start cells bufferSize).run env steps).trace) :
    Dispatched env (start cells bufferSize) steps invocation := by
  induction steps using List.reverseRecOn with
  | nil => exact absurd hmem List.not_mem_nil
  | append_singleton steps s ih =>
    obtain ⟨d, hserves⟩ := Service.serves_run cells bufferSize env steps
    have hold : .invoked invocation ∈ ((start cells bufferSize).run env steps).trace →
        Dispatched env (start cells bufferSize) (steps ++ [s]) invocation := by
      intro hold
      obtain ⟨before, reply, after, more, rfl, hmore⟩ := ih hold
      exact ⟨before, reply, after ++ [s], more, by rw [List.append_assoc, List.cons_append], hmore⟩
    rw [run_snoc] at hmem
    cases s with
    | arrive bytes => exact hold hmem
    | call c =>
      obtain ⟨more, htrace, hnone⟩ := (changes_call env hserves.processing c).adds
      rw [step, htrace] at hmem
      rcases List.mem_append.mp hmem with hmem | hmem
      · exact hold hmem
      · exact (hnone _ hmem).elim
    | loop reply =>
      obtain ⟨more, htrace, hchosen⟩ :=
        (changes_loop env reply hserves.line hserves.processing).adds
      rw [step, htrace] at hmem
      rcases List.mem_append.mp hmem with hmem | hmem
      · exact hold hmem
      · exact ⟨steps, reply, [], more, rfl, htrace, hmem, hchosen _ hmem⟩

/-- The request is in the queue, and nothing has happened to it. -/
structure Pending (e : Endpoint) (item : OutgoingQueueItem) : Prop where
  queued : ∃ msg ∈ e.handler.outgoingMessages, msg.id = item.id
  removed : e.trace.filter (Event.removes item.id) = []
  handled : e.trace.filter (Event.concerns item.id) = []

/-- The request has been removed from the queue, once. -/
structure Left (e : Endpoint) (item : OutgoingQueueItem) : Prop where
  absent : ∀ msg ∈ e.handler.outgoingMessages, msg.id ≠ item.id
  removed : e.trace.filter (Event.removes item.id) = [.removed item.id]

/-- Exactly one handler has been called for the request, that of an answer received or that of a
timeout, for the type of the request. -/
def HandledOnce (env : Surroundings) (e : Endpoint) (steps : List Step) (item : OutgoingQueueItem) :
    Prop :=
  ∃ invocation, Dispatched env e steps invocation ∧
    (e.run env steps).trace.filter (Event.concerns item.id) = [.invoked invocation] ∧
    ((∃ handler a, invocation = .answer handler item.message.frameType (some item.id) a ∧
        a.placed ∈ (e.run env steps).pushed) ∨
      ∃ handler, invocation = .timeout handler item.message.frameType item.id)

/-- Between the steps of a run an item is in the queue or gone. -/
theorem place_between {e : Endpoint} {d : Desk} (h : Service.Serves e d) (id : Nat) :
    (∃ msg ∈ e.handler.outgoingMessages, msg.id = id) ∧ d.place id = .queued ∨
      (∀ msg ∈ e.handler.outgoingMessages, msg.id ≠ id) ∧ d.place id = .gone := by
  rw [h.queue]
  obtain ⟨queue, n, phase⟩ := d
  have hphase := h.phase
  have hplace : (∀ a, phase ≠ .answered a) ∧ ∀ item, phase ≠ .expired item := by
    cases phase with
    | answered => exact hphase.elim
    | expired => exact hphase.elim
    | _ => exact ⟨fun _ => Phase.noConfusion, fun _ => Phase.noConfusion⟩
  by_cases hany : ∃ msg ∈ queue, msg.id = id
  · refine .inl ⟨hany, Desk.place_of_mem ?_ hplace.1⟩
    simpa using hany
  · have hne : ∀ msg ∈ queue, msg.id ≠ id := fun msg hmsg heq => hany ⟨msg, hmsg, heq⟩
    exact .inr ⟨hne, Desk.place_gone hne hplace.2⟩

/-- In every run: a request is in the queue and nothing has happened to it, or it has been removed
from the queue once.  Once removed, exactly one handler has been called for it if and only if its
payload fits a frame and the number of its bytes is not a multiple of 256. -/
theorem run_resolves_iff (cells : Nat → UInt8) (bufferSize : Nat) (env : Surroundings)
    (steps : List Step) (item : OutgoingQueueItem)
    (hitem : .queued item ∈ ((start cells bufferSize).run env steps).trace)
    (hrequest : item.noAnswer = false) :
    let e := (start cells bufferSize).run env steps
    (Pending e item ∨ Left e item) ∧
      (Left e item → (HandledOnce env (start cells bufferSize) steps item ↔
        item.message.Sendable item.useCrc)) := by
  intro e
  obtain ⟨d, h⟩ := Service.serves_run cells bufferSize env steps
  have hledger := ledger_run cells bufferSize env steps
  have haccount := (Desk.books_of_replays h.replays).accounts item hitem hrequest
  rcases place_between h item.id with ⟨hqueued, hplace⟩ | ⟨habsent, hplace⟩
  · rw [hplace] at haccount
    refine ⟨.inl ⟨hqueued, haccount.1, haccount.2⟩, fun hleft => ?_⟩
    obtain ⟨msg, hmsg, hid⟩ := hqueued
    exact absurd hid (hleft.absent msg hmsg)
  · rw [hplace] at haccount
    obtain ⟨hremoved, hhandled⟩ := haccount
    refine ⟨.inr ⟨habsent, hremoved⟩, fun _ => ?_⟩
    rw [HaierMessage.sendable_iff]
    have hdispatched : ∀ invocation,
        e.trace.filter (Event.concerns item.id) = [.invoked invocation] →
        .invoked invocation ∈ e.trace := by
      intro invocation hfilter
      refine List.mem_of_mem_filter (p := Event.concerns item.id) ?_
      rw [hfilter]
      exact List.mem_cons_self
    constructor
    · rintro ⟨invocation, _, hfilter, _⟩
      by_contra hsent
      rw [if_neg hsent, hfilter] at hhandled
      cases hhandled
    · intro hsent
      rw [if_pos hsent] at hhandled
      rcases hhandled with ⟨handler, a, hfilter⟩ | ⟨handler, hfilter⟩
      · have hmem := hdispatched _ hfilter
        exact ⟨_, dispatched_of_mem cells bufferSize env steps hmem, hfilter,
          .inl ⟨handler, a, rfl, hledger.placed_mem hmem rfl⟩⟩
      · have hmem := hdispatched _ hfilter
        exact ⟨_, dispatched_of_mem cells bufferSize env steps hmem, hfilter, .inr ⟨handler, rfl⟩⟩

/-! ## A request that is not handled -/

/-- The clock shows another second at every look. -/
def everySecond : Surroundings := ⟨fun n => n * 1000000000, fun _ _ => 0, fun _ _ => 0⟩

/-- One message is queued, and `loop` is called twice. -/
def twoLoops (message : HaierMessage) : List Step :=
  [.call (.sendMessage message true 0 0), .loop fun _ => [], .loop fun _ => []]

/-- One byte more than a frame holds. -/
def oversized : HaierMessage := ⟨0x61, noSubcommand, List.replicate 234 0⟩

theorem oversized_not_handled :
    let new := start (fun _ => 0) 251
    let item := OutgoingQueueItem.request 0 oversized true 0 0
    let e := new.run everySecond (twoLoops oversized)
    .queued item ∈ e.trace ∧ item.noAnswer = false ∧ Left e item ∧
      ¬HandledOnce everySecond new (twoLoops oversized) item := by
  intro new item e
  have hsilent : e.trace.filter (Event.concerns item.id) = [] := by decide +kernel
  refine ⟨by decide +kernel, rfl, ⟨by decide +kernel, by decide +kernel⟩, ?_⟩
  rintro ⟨invocation, _, hfilter, _⟩
  rw [show (new.run everySecond (twoLoops oversized)).trace.filter _ = [] from hsilent] at hfilter
  cases hfilter

/-- A message that fits is resolved by a timeout. -/
theorem run_resolves_iff_timeout :
    let new := start (fun _ => 0) 251
    let message : HaierMessage := ⟨0x61, noSubcommand, [1]⟩
    let item := OutgoingQueueItem.request 0 message true 0 0
    let e := new.run everySecond (twoLoops message)
    (Pending e item ∨ Left e item) ∧ (Left e item →
      (HandledOnce everySecond new (twoLoops message) item ↔ message.Sendable true)) :=
  run_resolves_iff (fun _ => 0) 251 everySecond _ _ (by decide +kernel) rfl

end Endpoint
end HaierProtocol
