import HaierProtocol.Protocol.Changes
import HaierProtocol.Protocol.Outstanding

/-!
# Handlers that only answer

When no handler queues anything, neither does `loop`.  What holds of every message of the queue
before a call of `loop` then holds of the message that an answer is given to.
-/

namespace HaierProtocol

open Replay

namespace Endpoint

def OnlyAnswers (reply : Reply) : Prop :=
  ∀ invocation, ∀ c ∈ reply invocation, ∃ answer useCrc, c = .sendAnswer answer useCrc

variable {env : Surroundings} {reply : Reply} {e : Endpoint}

theorem sendAnswer_nextId (env : Surroundings) (e : Endpoint) (answer : HaierMessage)
    (useCrc : Bool) : (e.sendAnswer env answer useCrc).nextId = e.nextId := by
  rw [sendAnswer]
  split <;> rfl

theorem invoke_nextId (hreply : OnlyAnswers reply) (env : Surroundings) (e : Endpoint)
    (invocation : Invocation) : (e.invoke env reply invocation).nextId = e.nextId := by
  have hcalls : ∀ apiCalls : List ApiCall,
      (∀ c ∈ apiCalls, ∃ answer useCrc, c = .sendAnswer answer useCrc) →
      ∀ e : Endpoint, (e.calls env apiCalls).nextId = e.nextId := by
    intro apiCalls
    induction apiCalls with
    | nil => exact fun _ _ => rfl
    | cons c apiCalls ih =>
      intro hall e
      obtain ⟨answer, useCrc, rfl⟩ := hall c List.mem_cons_self
      exact (ih (fun c hc => hall c (List.mem_cons_of_mem _ hc)) _).trans
        (sendAnswer_nextId env e answer _)
  refine hcalls _ ?_ (e.emit (.invoked invocation))
  split
  · exact fun c hc => absurd hc List.not_mem_nil
  · exact hreply invocation

theorem popOutgoing_nextId (e : Endpoint) : e.popOutgoing.nextId = e.nextId := by
  rw [popOutgoing]
  split <;> rfl

theorem sendHead_nextId (env : Surroundings) (e : Endpoint) (msg : OutgoingQueueItem)
    (now : TimePoint) : (e.sendHead env msg now).nextId = e.nextId := by
  rw [sendHead]
  dsimp only
  split
  · split
    · exact popOutgoing_nextId _
    · rfl
  · rfl

theorem sendNext_nextId (env : Surroundings) (e : Endpoint) (now : TimePoint) :
    (e.sendNext env now).nextId = e.nextId := by
  rw [sendNext]
  split
  · rfl
  · split
    · dsimp only
      split
      · exact sendHead_nextId env _ _ now
      · exact popOutgoing_nextId _
    · rfl

theorem handleIncoming_nextId (hreply : OnlyAnswers reply) (env : Surroundings) (e : Endpoint) :
    (e.handleIncoming env reply).nextId = e.nextId := by
  rw [handleIncoming]
  dsimp only
  split <;> split
  · exact invoke_nextId hreply env _ _
  · exact invoke_nextId hreply env _ _
  · rfl
  · rfl

theorem answerTimeout_nextId (hreply : OnlyAnswers reply) (env : Surroundings) (e : Endpoint)
    (now : TimePoint) : (e.answerTimeout env reply now).nextId = e.nextId := by
  rw [answerTimeout]
  split
  · rfl
  · dsimp only
    split
    · exact (invoke_nextId hreply env _ _).trans (popOutgoing_nextId _)
    · rfl

theorem answerReceived_nextId (hreply : OnlyAnswers reply) (env : Surroundings) (e : Endpoint)
    (now : TimePoint) : (e.answerReceived env reply now).nextId = e.nextId :=
  (popOutgoing_nextId _).trans (invoke_nextId hreply env _ _)

theorem loop_nextId (hreply : OnlyAnswers reply) (env : Surroundings) (e : Endpoint) :
    (e.loop env reply).nextId = e.nextId := by
  rw [loop, turn]
  split
  · exact (sendNext_nextId env _ _).trans (handleIncoming_nextId hreply env _)
  · split
    · exact answerTimeout_nextId hreply env _ _
    · split
      · exact answerReceived_nextId hreply env _ _
      · rfl

end Endpoint

/-! ## On the desk -/

namespace Desk

variable {d d' d₁ d₂ : Desk} {event : Event} {more : List Event}

theorem Step.deterministic (h₁ : Step d event d₁) (h₂ : Step d event d₂) : d₁ = d₂ := by
  have hkinds : ∀ {w : Write} {msg : OutgoingQueueItem} {processed : Option Arrival},
      w.Transmits msg → w.origin ≠ .answer processed := by
    intro w msg processed hwrite
    rw [hwrite.origin]
    exact Origin.noConfusion
  cases h₁ with
  | replied horigin =>
    cases h₂ with
    | replied => rfl
    | transmitted hwrite => exact absurd horigin (hkinds hwrite)
    | failed hwrite => exact absurd horigin (hkinds hwrite)
  | transmitted hwrite _ hsuccess =>
    cases h₂ with
    | replied horigin => exact absurd horigin (hkinds hwrite)
    | transmitted => rfl
    | failed _ _ hfailure => exact absurd (hsuccess.symm.trans hfailure) Bool.noConfusion
  | failed hwrite _ hfailure =>
    cases h₂ with
    | replied horigin => exact absurd horigin (hkinds hwrite)
    | transmitted _ _ hsuccess => exact absurd (hsuccess.symm.trans hfailure) Bool.noConfusion
    | failed => rfl
  | _ =>
    cases h₂
    simp_all

theorem replays_unique : ∀ {trace : List Event} {d d₁ d₂ : Desk}, Replays Step d trace d₁ →
    Replays Step d trace d₂ → d₁ = d₂
  | [], _, _, _, h₁, h₂ => (show _ = _ from h₁).symm.trans h₂
  | _ :: _, _, _, _, ⟨_, hstep₁, h₁⟩, ⟨_, hstep₂, h₂⟩ => by
    obtain rfl := hstep₁.deterministic hstep₂
    exact replays_unique h₁ h₂

theorem Step.nextId_le (h : Step d event d') : d.nextId ≤ d'.nextId := by
  cases h <;> simp

theorem replays_nextId_le : ∀ {more : List Event} {d d' : Desk}, Replays Step d more d' →
    d.nextId ≤ d'.nextId
  | [], _, _, h => Nat.le_of_eq (congrArg Desk.nextId h)
  | _ :: _, _, _, ⟨_, hstep, h⟩ => hstep.nextId_le.trans (replays_nextId_le h)

/-- A step that queues nothing leaves no message in the queue that was not there. -/
theorem Step.messages {M : HaierMessage → Prop} (h : Step d event d')
    (hnext : d'.nextId = d.nextId) (hall : ∀ item ∈ d.queue, M item.message) :
    ∀ item ∈ d'.queue, M item.message := by
  cases h with
  | queued => exact absurd hnext (Nat.succ_ne_self _)
  | @transmitted msg rest =>
    rw [List.forall_mem_cons] at hall ⊢
    exact hall
  | @failed msg rest =>
    rw [List.forall_mem_cons] at hall ⊢
    exact hall
  | exhausted => exact (List.forall_mem_cons.mp hall).2
  | delivered => exact (List.forall_mem_cons.mp hall).2
  | expires => exact (List.forall_mem_cons.mp hall).2
  | resolved => exact (List.forall_mem_cons.mp hall).2
  | _ => exact hall

theorem replays_messages {M : HaierMessage → Prop} : ∀ {more : List Event} {d d' : Desk},
    Replays Step d more d' → d'.nextId = d.nextId → (∀ item ∈ d.queue, M item.message) →
      ∀ item ∈ d'.queue, M item.message
  | [], _, _, h, _, hall => (show _ = _ from h) ▸ hall
  | _ :: _, d, d', ⟨m, hstep, h⟩, hnext, hall => by
    have hfirst := hstep.nextId_le
    have hrest := replays_nextId_le h
    have hmessages := hstep.messages (Nat.le_antisymm (hrest.trans hnext.le) hfirst) hall
    exact replays_messages h (Nat.le_antisymm (hnext.le.trans hfirst) hrest) hmessages

end Desk

/-! ## One call of the loop -/

namespace Endpoint

variable {env : Surroundings} {reply : Reply} {e : Endpoint} {d : Desk} {M : HaierMessage → Prop}

/-- What the call records is read by the desk that `e` is served by, and queues nothing. -/
theorem loop_replays (h : Service.Serves e d) (hreply : OnlyAnswers reply) (env : Surroundings) :
    ∃ more d', (e.loop env reply).trace = e.trace ++ more ∧ Service.Serves (e.loop env reply) d' ∧
      Replays Desk.Step d more d' ∧ d'.nextId = d.nextId := by
  obtain ⟨d', h'⟩ : ∃ d', Service.Serves (e.loop env reply) d' := h.loop
  obtain ⟨more, htrace, _⟩ := (changes_loop env reply h.line h.processing).adds
  have hreplays := h'.replays
  rw [htrace] at hreplays
  obtain ⟨m, hbefore, hmore⟩ := replays_append.mp hreplays
  obtain rfl := Desk.replays_unique hbefore h.replays
  refine ⟨more, d', htrace, h', hmore, ?_⟩
  rw [← h'.nextId, ← h.nextId]
  exact loop_nextId hreply env e

theorem loop_messages (h : Service.Serves e d) (hreply : OnlyAnswers reply) (env : Surroundings)
    (hall : ∀ item ∈ e.handler.outgoingMessages, M item.message) :
    ∀ item ∈ (e.loop env reply).handler.outgoingMessages, M item.message := by
  obtain ⟨more, d', _, h', hmore, hnext⟩ := loop_replays h hreply env
  rw [h.queue] at hall
  rw [h'.queue]
  exact Desk.replays_messages hmore hnext hall

/-- An answer handler that is called in it is called for such a message. -/
theorem loop_answered (h : Service.Serves e d) (hreply : OnlyAnswers reply) (env : Surroundings)
    (hall : ∀ item ∈ e.handler.outgoingMessages, M item.message) {before after : List Event}
    {handler : HandlerRef} {requestType : FrameType} {request : Option Nat} {arrival : Arrival}
    (htrace : (e.loop env reply).trace =
      before ++ .invoked (.answer handler requestType request arrival) :: after)
    (hlater : e.trace <+: before) :
    ∃ w id, request = some id ∧ (writes before).getLast? = some w ∧ w.origin = .request id ∧
      M w.message := by
  obtain ⟨more, d', hmore, h', hreplays, hnext⟩ := loop_replays h hreply env
  obtain ⟨earlier, rfl⟩ := hlater
  rw [hmore, List.append_assoc, List.append_cancel_left_eq] at htrace
  subst htrace
  obtain ⟨d₁, d₂, hearlier, hstep, hafter⟩ := replays_split hreplays
  have hengaged := (Desk.order_of_replays (replays_append.mpr ⟨d, h.replays, hearlier⟩)).2
  have hnext₁ : d₁.nextId = d.nextId :=
    Nat.le_antisymm ((hstep.nextId_le.trans (Desk.replays_nextId_le hafter)).trans hnext.le)
      (Desk.replays_nextId_le hearlier)
  rw [h.queue] at hall
  have hmessages := Desk.replays_messages hearlier hnext₁ hall
  cases hstep with
  | answered =>
    obtain ⟨msg, rest, hqueue, hout, _⟩ := hengaged
    cases hqueue
    refine ⟨_, _, rfl, hout.last, hout.transmits.origin, ?_⟩
    rw [hout.transmits.message]
    exact hmessages _ List.mem_cons_self

end Endpoint
end HaierProtocol
