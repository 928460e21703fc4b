import HaierProtocol.Protocol.Attempts
import HaierProtocol.Protocol.Resolution
import HaierProtocol.Protocol.Outstanding
import Mathlib.Data.Int.ConditionallyCompleteOrder
import Mathlib.Order.ConditionallyCompleteLattice.Indexed

/-!
# Pacing

When messages are written.  `timed` reads off the record, for every write, the time that the call
of `loop` had seen in which it was made.  With a clock that does not go back and intervals that
stay as they are, the head of the queue is written only when the cooldown after the last write is
over, be that an answer sent a moment ago.  A request is written again only when its retry interval
and the time for its answer have passed.  All this needs time points that do not overflow.
-/

namespace HaierProtocol

/-- The time that `loop` has seen, and the writes with theirs, after another event. -/
def Event.record : Option TimePoint × List (TimePoint × Write) → Event →
    Option TimePoint × List (TimePoint × Write)
  | (_, l), .began now => (some now, l)
  | (t, l), .wrote w => (t, l ++ [(t.getD w.now, w)])
  | s, _ => s

def timing (trace : List Event) : Option TimePoint × List (TimePoint × Write) :=
  trace.foldl Event.record (none, [])

/-- The time that the last call of `loop` has seen. -/
def loopTime (trace : List Event) : Option TimePoint := (timing trace).1

/-- The writes, in order, each with the time that its call of `loop` has seen. -/
def timed (trace : List Event) : List (TimePoint × Write) := (timing trace).2

/-- The last of these that wrote the item. -/
def lastAttempt (id : Nat) (l : List (TimePoint × Write)) : Option (TimePoint × Write) :=
  (l.filter fun x => x.2.request? == some id).getLast?

theorem timing_snoc (trace : List Event) (event : Event) :
    timing (trace ++ [event]) = event.record (timing trace) := List.foldl_append ..

theorem timing_snoc_quiet (trace : List Event) {event : Event} (hwrite : event.write? = none)
    (hbegan : ∀ now, event ≠ .began now) : timing (trace ++ [event]) = timing trace := by
  rw [timing_snoc]
  cases event with
  | began now => exact absurd rfl (hbegan now)
  | wrote w => cases hwrite
  | _ => rfl

theorem timed_snoc_wrote (trace : List Event) (w : Write) :
    timed (trace ++ [.wrote w]) = timed trace ++ [((loopTime trace).getD w.now, w)] := by
  rw [timed, timing_snoc]
  rfl

theorem loopTime_snoc_wrote (trace : List Event) (w : Write) :
    loopTime (trace ++ [.wrote w]) = loopTime trace := by
  rw [loopTime, timing_snoc]
  rfl

theorem attempted_timed (trace : List Event) :
    attempted trace = (timed trace).filterMap fun x => x.2.request? := by
  induction trace using List.reverseRecOn with
  | nil => rfl
  | append_singleton trace event ih =>
    cases event with
    | wrote w =>
      rw [timed_snoc_wrote, List.filterMap_append, ← ih, attempted, List.filterMap_append]
      rfl
    | began now =>
      rw [attempted, filterMap_snoc_none _ trace rfl, timed, timing_snoc]
      exact ih
    | _ =>
      rw [attempted, filterMap_snoc_none _ trace rfl, timed, timing_snoc_quiet trace rfl
        (fun _ => Event.noConfusion)]
      exact ih

theorem map_snd_timed (trace : List Event) : (timed trace).map Prod.snd = writes trace := by
  induction trace using List.reverseRecOn with
  | nil => rfl
  | append_singleton trace event ih =>
    cases event with
    | wrote w =>
      rw [timed_snoc_wrote, List.map_append, ih, writes_snoc_wrote]
      rfl
    | began now =>
      rw [writes_snoc_none trace rfl, timed, timing_snoc]
      exact ih
    | _ =>
      rw [writes_snoc_none trace rfl, timed, timing_snoc_quiet trace rfl
        (fun _ => Event.noConfusion)]
      exact ih

theorem lastAttempt_mem {id : Nat} {l : List (TimePoint × Write)} {x : TimePoint × Write}
    (h : lastAttempt id l = some x) : x ∈ l ∧ x.2.request? = some id := by
  obtain ⟨hmem, hid⟩ := List.mem_filter.mp (List.mem_of_getLast? h)
  exact ⟨hmem, beq_iff_eq.mp hid⟩

theorem lastAttempt_snoc_self {id : Nat} (l : List (TimePoint × Write)) {x : TimePoint × Write}
    (h : x.2.request? = some id) : lastAttempt id (l ++ [x]) = some x := by
  have hkept : [x].filter (fun x => x.2.request? == some id) = [x] := by simp [h]
  rw [lastAttempt, List.filter_append, hkept, List.getLast?_concat]

theorem lastAttempt_snoc_other {id : Nat} (l : List (TimePoint × Write)) {x : TimePoint × Write}
    (h : x.2.request? ≠ some id) : lastAttempt id (l ++ [x]) = lastAttempt id l := by
  have hleft : [x].filter (fun x => x.2.request? == some id) = [] := by simp [h]
  rw [lastAttempt, List.filter_append, hleft, List.append_nil, lastAttempt]

/-- The last attempt is followed by writes of other items. -/
theorem lastAttempt_append {id : Nat} (l : List (TimePoint × Write)) {x : TimePoint × Write}
    (h : x.2.request? = some id) (mid : List (TimePoint × Write))
    (hmid : ∀ y ∈ mid, y.2.request? ≠ some id) : lastAttempt id (l ++ x :: mid) = some x := by
  induction mid using List.reverseRecOn with
  | nil => exact lastAttempt_snoc_self l h
  | append_singleton mid y ih =>
    rw [← List.cons_append, ← List.append_assoc,
      lastAttempt_snoc_other _ (hmid y (List.mem_append_right _ List.mem_cons_self))]
    exact ih fun z hz => hmid z (List.mem_append_left _ hz)

/-- An item that has not been attempted. -/
theorem lastAttempt_none {trace : List Event} {id : Nat} (h : id ∉ attempted trace) :
    lastAttempt id (timed trace) = none := by
  cases hlast : lastAttempt id (timed trace) with
  | none => rfl
  | some x =>
    obtain ⟨hmem, hid⟩ := lastAttempt_mem hlast
    rw [attempted_timed] at h
    exact absurd (List.mem_filterMap.mpr ⟨x, hmem, hid⟩) h

/-! ## Intervals that stay as they are -/

/-- The interval can be added to every reading of the clock. -/
def Surroundings.Represents (env : Surroundings) (interval : Int) : Prop :=
  ∀ i, -2 ^ 63 ≤ env.clock i + milliseconds interval ∧
    env.clock i + milliseconds interval < 2 ^ 63

theorem Surroundings.Represents.add {env : Surroundings} {interval : Int}
    (h : env.Represents interval) (i : Nat) :
    addMilliseconds (env.clock i) interval = env.clock i + milliseconds interval :=
  addMilliseconds_eq (h i).1 (h i).2

/-- The call leaves the intervals at these values, and the time points it asks for exist. -/
def ApiCall.Keeps (env : Surroundings) (cooldown answerTimeout : Int) : ApiCall → Prop
  | .setCooldownInterval interval => interval = cooldown
  | .setAnswerTimeout interval => interval = answerTimeout
  | .sendMessage _ _ _ interval => env.Represents interval
  | _ => True

/-- Neither the caller nor a handler changes the intervals. -/
def Endpoint.Step.Keeps (env : Surroundings) (cooldown answerTimeout : Int) :
    Endpoint.Step → Prop
  | .arrive _ => True
  | .call c => c.Keeps env cooldown answerTimeout
  | .loop reply => ∀ invocation, ∀ c ∈ reply invocation, c.Keeps env cooldown answerTimeout

/-- The clock does not go back, and the fixed intervals fit its readings. -/
structure Surroundings.Regular (env : Surroundings) (cooldown answerTimeout : Int) : Prop where
  clock : Monotone env.clock
  cooldown : env.Represents cooldown
  answerTimeout : env.Represents answerTimeout

/-- Every write of an item comes after the cooldown of the write before, and after the retry
interval and the time for an answer if the item has been written successfully before. -/
def Paced (cooldown answerTimeout : Int) (trace : List Event) : Prop :=
  ∀ before t w after, timed trace = before ++ (t, w) :: after → ∀ id, w.request? = some id →
    (∀ x, before.getLast? = some x → x.2.now + milliseconds cooldown ≤ t) ∧
    ∃ item, .queued item ∈ trace ∧ item.id = id ∧
      ∀ t₁ v, lastAttempt id before = some (t₁, v) → v.isSuccess = true →
        t₁ + milliseconds item.retryInterval ≤ t ∧ t₁ + milliseconds answerTimeout < t

/-- Another write, when it keeps the distances. -/
theorem Paced.snoc {cooldown answerTimeout : Int} {trace : List Event}
    (h : Paced cooldown answerTimeout trace) (w : Write)
    (hnew : ∀ id, w.request? = some id → let t := (loopTime trace).getD w.now
      (∀ x, (timed trace).getLast? = some x → x.2.now + milliseconds cooldown ≤ t) ∧
      ∃ item, .queued item ∈ trace ∧ item.id = id ∧
        ∀ t₁ v, lastAttempt id (timed trace) = some (t₁, v) → v.isSuccess = true →
          t₁ + milliseconds item.retryInterval ≤ t ∧ t₁ + milliseconds answerTimeout < t) :
    Paced cooldown answerTimeout (trace ++ [.wrote w]) := by
  intro before t v after hsplit id hid
  rw [timed_snoc_wrote] at hsplit
  rcases List.eq_nil_or_concat after with rfl | ⟨after, z, rfl⟩
  · obtain ⟨hbefore, hlast⟩ := List.append_inj' hsplit rfl
    cases hlast
    subst hbefore
    obtain ⟨hcooldown, item, hitem, hsame⟩ := hnew id hid
    exact ⟨hcooldown, item, List.mem_append_left _ hitem, hsame⟩
  · rw [List.concat_eq_append, ← List.cons_append, ← List.append_assoc] at hsplit
    obtain ⟨hbefore, _⟩ := List.append_inj' hsplit rfl
    obtain ⟨hcooldown, item, hitem, hsame⟩ := h before t v after hbefore id hid
    exact ⟨hcooldown, item, List.mem_append_left _ hitem, hsame⟩

namespace Endpoint

variable {env : Surroundings} {reply : Reply} {e e' : Endpoint} {d : Desk}
  {cooldown answerTimeout : Int}

structure Pace (env : Surroundings) (cooldown answerTimeout : Int) (e : Endpoint) : Prop where
  cooldownInterval : e.handler.cooldownInterval = cooldown
  answerInterval : e.handler.answerTimeoutInterval = answerTimeout
  cooldownTimePoint : ∀ x, (timed e.trace).getLast? = some x →
    e.handler.cooldownTimePoint = x.2.now + milliseconds cooldown
  fresh : ∀ id ∈ attempted e.trace, id < e.nextId
  items : ∀ msg ∈ e.handler.outgoingMessages, ∃ item, .queued item ∈ e.trace ∧
    item.id = msg.id ∧ item.retryInterval = msg.retryInterval ∧
      (msg.noAnswer = false → env.Represents msg.retryInterval)
  paced : Paced cooldown answerTimeout e.trace
  past : ∀ t, loopTime e.trace = some t → ∃ i ≤ e.ticks, t = env.clock i

/-- The end of an interval that begins at the time of the loop call. -/
theorem Pace.add_eq {e : Endpoint} {env : Surroundings} {cooldown answerTimeout interval : Int}
    (h : Pace env cooldown answerTimeout e) {now : TimePoint} (hnow : loopTime e.trace = some now)
    (hfits : env.Represents interval) :
    addMilliseconds now interval = now + milliseconds interval := by
  obtain ⟨i, _, rfl⟩ := h.past now hnow
  exact hfits.add i

/-- What is known of the last attempts of the items in the queue. -/
def Recorded (P : OutgoingQueueItem → TimePoint × Write → Prop) (e : Endpoint) : Prop :=
  ∀ msg ∈ e.handler.outgoingMessages, ∀ x, lastAttempt msg.id (timed e.trace) = some x → P msg x

/-- After a successful attempt the time points are set, or the time for an answer is over. -/
def Scheduled (answerTimeout : Int) (e : Endpoint) (msg : OutgoingQueueItem)
    (x : TimePoint × Write) : Prop :=
  x.2.isSuccess = true →
    e.handler.retryTimePoint = x.1 + milliseconds msg.retryInterval ∧
      (e.handler.state = .waitingForAnswer ∧
          e.handler.answerTimePoint = x.1 + milliseconds answerTimeout ∨
        ∃ t, loopTime e.trace = some t ∧ x.1 + milliseconds answerTimeout < t)

/-! ## Steps that write nothing -/

/-- Nothing is written or queued, and the clock is not looked at. -/
structure Calm (e e' : Endpoint) : Prop where
  cooldownInterval : e'.handler.cooldownInterval = e.handler.cooldownInterval
  answerInterval : e'.handler.answerTimeoutInterval = e.handler.answerTimeoutInterval
  cooldownTimePoint : e'.handler.cooldownTimePoint = e.handler.cooldownTimePoint
  nextId : e'.nextId = e.nextId
  ticks : e'.ticks = e.ticks
  timing : timing e'.trace = timing e.trace
  trace : e.trace ⊆ e'.trace
  queue : e'.handler.outgoingMessages ⊆ e.handler.outgoingMessages

namespace Calm

theorem refl (e : Endpoint) : Calm e e :=
  ⟨rfl, rfl, rfl, rfl, rfl, rfl, List.Subset.refl _, List.Subset.refl _⟩

theorem access (h : Calm e e') (id : Nat) : Calm e (e'.access id) :=
  ⟨h.cooldownInterval, h.answerInterval, h.cooldownTimePoint, h.nextId, h.ticks,
    (timing_snoc_quiet _ rfl (fun _ => Event.noConfusion)).trans h.timing,
    List.Subset.trans h.trace (List.subset_append_left _ _), h.queue⟩

theorem setState (h : Calm e e') (state : ProtocolState) : Calm e (e'.setState state) :=
  ⟨h.cooldownInterval, h.answerInterval, h.cooldownTimePoint, h.nextId, h.ticks,
    (timing_snoc_quiet _ rfl (fun _ => Event.noConfusion)).trans h.timing,
    List.Subset.trans h.trace (List.subset_append_left _ _), h.queue⟩

theorem setRetryTimePoint (h : Calm e e') (now : TimePoint) :
    Calm e (e'.setRetryTimePoint now) :=
  ⟨h.cooldownInterval, h.answerInterval, h.cooldownTimePoint, h.nextId, h.ticks, h.timing,
    h.trace, h.queue⟩

theorem invoked (h : Calm e e') (invocation : Invocation) :
    Calm e (e'.emit (.invoked invocation)) :=
  ⟨h.cooldownInterval, h.answerInterval, h.cooldownTimePoint, h.nextId, h.ticks,
    (timing_snoc_quiet _ rfl (fun _ => Event.noConfusion)).trans h.timing,
    List.Subset.trans h.trace (List.subset_append_left _ _), h.queue⟩

theorem popOutgoing (h : Calm e e') : Calm e e'.popOutgoing := by
  rw [Endpoint.popOutgoing]
  split
  · exact ⟨h.cooldownInterval, h.answerInterval, h.cooldownTimePoint, h.nextId, h.ticks,
      (timing_snoc_quiet _ rfl (fun _ => Event.noConfusion)).trans h.timing,
      List.Subset.trans h.trace (List.subset_append_left _ _), h.queue⟩
  · rename_i msg rest hqueue
    refine ⟨h.cooldownInterval, h.answerInterval, h.cooldownTimePoint, h.nextId, h.ticks,
      (timing_snoc_quiet _ rfl (fun _ => Event.noConfusion)).trans h.timing,
      List.Subset.trans h.trace (List.subset_append_left _ _), ?_⟩
    exact fun other hother => h.queue (hqueue ▸ List.mem_cons_of_mem msg hother)

theorem attempted (h : Calm e e') : attempted e'.trace = attempted e.trace := by
  rw [attempted_timed, attempted_timed, timed, h.timing, timed]

end Calm

theorem Pace.calm (h : Pace env cooldown answerTimeout e) (hcalm : Calm e e') :
    Pace env cooldown answerTimeout e' := by
  have htimed : timed e'.trace = timed e.trace := congrArg Prod.snd hcalm.timing
  refine ⟨hcalm.cooldownInterval.trans h.cooldownInterval,
    hcalm.answerInterval.trans h.answerInterval, ?_, ?_, ?_, ?_, ?_⟩
  · rw [htimed, hcalm.cooldownTimePoint]
    exact h.cooldownTimePoint
  · rw [hcalm.attempted, hcalm.nextId]
    exact h.fresh
  · intro msg hmsg
    obtain ⟨item, hitem, hsame⟩ := h.items msg (hcalm.queue hmsg)
    exact ⟨item, hcalm.trace hitem, hsame⟩
  · intro before t w after hsplit id hid
    rw [htimed] at hsplit
    obtain ⟨hcooldown, item, hitem, hsame⟩ := h.paced before t w after hsplit id hid
    exact ⟨hcooldown, item, hcalm.trace hitem, hsame⟩
  · rw [loopTime, hcalm.timing, hcalm.ticks]
    exact h.past

theorem Recorded.calm {P : OutgoingQueueItem → TimePoint × Write → Prop} (h : Recorded P e)
    (hcalm : Calm e e') : Recorded P e' := by
  have htimed : timed e'.trace = timed e.trace := congrArg Prod.snd hcalm.timing
  intro msg hmsg x hx
  rw [htimed] at hx
  exact h msg (hcalm.queue hmsg) x hx

/-! ## Calls -/

/-- A new item has not been attempted. -/
theorem Pace.enqueue {item : OutgoingQueueItem} (h : Pace env cooldown answerTimeout e)
    (hfits : item.noAnswer = false → env.Represents item.retryInterval) :
    Pace env cooldown answerTimeout (e.enqueue item) := by
  have htiming : timing (e.enqueue item).trace = timing e.trace :=
    timing_snoc_quiet _ rfl (fun _ => Event.noConfusion)
  have htimed : timed (e.enqueue item).trace = timed e.trace := congrArg Prod.snd htiming
  refine ⟨h.cooldownInterval, h.answerInterval, ?_, ?_, ?_, ?_, ?_⟩
  · rw [htimed]
    exact h.cooldownTimePoint
  · rw [attempted_timed, htimed, ← attempted_timed]
    exact fun id hmem => Nat.lt_succ_of_lt (h.fresh id hmem)
  · intro msg hmsg
    rcases List.mem_append.mp hmsg with hmsg | hmsg
    · obtain ⟨old, hold, hsame⟩ := h.items msg hmsg
      exact ⟨old, List.mem_append_left _ hold, hsame⟩
    · rw [List.mem_singleton.mp hmsg]
      exact ⟨item, List.mem_append_right _ List.mem_cons_self, rfl, rfl, hfits⟩
  · intro before t w after hsplit id hmem
    rw [htimed] at hsplit
    obtain ⟨hcooldown, old, hold, hsame⟩ := h.paced before t w after hsplit id hmem
    exact ⟨hcooldown, old, List.mem_append_left _ hold, hsame⟩
  · rw [loopTime, htiming]
    exact h.past

theorem Recorded.enqueue {P : OutgoingQueueItem → TimePoint × Write → Prop}
    {item : OutgoingQueueItem} (h : Recorded P e) (hpace : Pace env cooldown answerTimeout e)
    (hid : item.id = e.nextId) : Recorded P (e.enqueue item) := by
  have htimed : timed (e.enqueue item).trace = timed e.trace :=
    congrArg Prod.snd (timing_snoc_quiet _ rfl (fun _ => Event.noConfusion))
  intro msg hmsg x hx
  rw [htimed] at hx
  rcases List.mem_append.mp hmsg with hmsg | hmsg
  · exact h msg hmsg x hx
  · rw [List.mem_singleton.mp hmsg, lastAttempt_none] at hx
    · cases hx
    · exact fun hmem => Nat.ne_of_lt (hpace.fresh _ hmem) hid

/-- An answer is no attempt, and the cooldown begins anew. -/
theorem Pace.answered (hregular : env.Regular cooldown answerTimeout)
    (h : Pace env cooldown answerTimeout e)
    (answer : HaierMessage) (useCrc : Bool) (hprocessing : e.handler.processingMessage = true) :
    Pace env cooldown answerTimeout (e.sendAnswer env answer useCrc) := by
  rw [sendAnswer_eq env e answer useCrc hprocessing]
  let w := e.writeOf env (.answer e.current) answer useCrc
  have hnone : w.request? = none := rfl
  have hsame : attempted (e.trace ++ [.wrote w]) = attempted e.trace :=
    filterMap_snoc_none _ _ hnone
  refine ⟨h.cooldownInterval, h.answerInterval, ?_, ?_, ?_, h.paced.snoc w ?_, ?_⟩
  · intro x hx
    have hlast : (timed (e.trace ++ [.wrote w])).getLast? = some x := hx
    rw [timed_snoc_wrote, List.getLast?_concat] at hlast
    cases hlast
    show addMilliseconds (env.clock e.ticks) e.handler.cooldownInterval = _
    rw [h.cooldownInterval]
    exact hregular.cooldown.add e.ticks
  · exact fun id hmem => h.fresh id (hsame ▸ hmem)
  · intro msg hmsg
    obtain ⟨item, hitem, hitem'⟩ := h.items msg hmsg
    exact ⟨item, List.mem_append_left _ hitem, hitem'⟩
  · intro id hid
    rw [hnone] at hid
    cases hid
  · intro t ht
    obtain ⟨i, hle, hi⟩ := h.past t ((loopTime_snoc_wrote e.trace w).symm.trans ht)
    exact ⟨i, Nat.le_succ_of_le hle, hi⟩

theorem Recorded.answered {P : OutgoingQueueItem → TimePoint × Write → Prop} (h : Recorded P e)
    (answer : HaierMessage) (useCrc : Bool) (hprocessing : e.handler.processingMessage = true) :
    Recorded P (e.sendAnswer env answer useCrc) := by
  rw [sendAnswer_eq env e answer useCrc hprocessing]
  let w := e.writeOf env (.answer e.current) answer useCrc
  intro msg hmsg x hx
  have hlast : lastAttempt msg.id (timed (e.trace ++ [.wrote w])) = some x := hx
  rw [timed_snoc_wrote, lastAttempt_snoc_other] at hlast
  · exact h msg hmsg x hlast
  · exact (Option.some_ne_none msg.id).symm

/-- A call queues an item, sends an answer, or changes nothing that matters here. -/
theorem call_paced (env : Surroundings) (h : Pace env cooldown answerTimeout e) {c : ApiCall}
    (hkeeps : c.Keeps env cooldown answerTimeout) :
    (∃ item, item.id = e.nextId ∧ (item.noAnswer = false → env.Represents item.retryInterval) ∧
        e.call env c = e.enqueue item) ∨
      (∃ answer useCrc, e.handler.processingMessage = true ∧
        e.call env c = e.sendAnswer env answer useCrc) ∨ Calm e (e.call env c) := by
  have hsame := List.Subset.refl e.trace
  have hqueue := List.Subset.refl e.handler.outgoingMessages
  cases c with
  | sendMessage message useCrc numRepeats interval =>
    exact .inl ⟨.request e.nextId message useCrc numRepeats interval, rfl, fun _ => hkeeps, rfl⟩
  | sendMessageWithoutAnswer message useCrc =>
    exact .inl ⟨.notice e.nextId message useCrc, rfl, Bool.noConfusion, rfl⟩
  | sendAnswer answer useCrc =>
    by_cases hprocessing : e.handler.processingMessage = true
    · exact .inr (.inl ⟨_, _, hprocessing, rfl⟩)
    · rw [call, Endpoint.sendAnswer, if_neg hprocessing]
      exact .inr (.inr (.refl e))
  | noAnswer =>
    refine .inr (.inr ?_)
    rw [call, ProtocolHandler.noAnswer]
    split <;> exact ⟨rfl, rfl, rfl, rfl, rfl, rfl, hsame, hqueue⟩
  | setCooldownInterval interval =>
    have hinterval : interval = e.handler.cooldownInterval := hkeeps.trans h.cooldownInterval.symm
    exact .inr (.inr ⟨hinterval, rfl, rfl, rfl, rfl, rfl, hsame, hqueue⟩)
  | setAnswerTimeout interval =>
    have hinterval : interval = e.handler.answerTimeoutInterval :=
      hkeeps.trans h.answerInterval.symm
    exact .inr (.inr ⟨rfl, hinterval, rfl, rfl, rfl, rfl, hsame, hqueue⟩)
  | _ => exact .inr (.inr ⟨rfl, rfl, rfl, rfl, rfl, rfl, hsame, hqueue⟩)

/-- Calls keep the pace and what is known of the last attempts, and see no other time. -/
theorem calls_paced {P : OutgoingQueueItem → TimePoint × Write → Prop}
    (hregular : env.Regular cooldown answerTimeout) :
    ∀ (apiCalls : List ApiCall) {e : Endpoint},
      (∀ c ∈ apiCalls, c.Keeps env cooldown answerTimeout) → Pace env cooldown answerTimeout e →
      Recorded P e → Pace env cooldown answerTimeout (e.calls env apiCalls) ∧
        Recorded P (e.calls env apiCalls) ∧
        loopTime (e.calls env apiCalls).trace = loopTime e.trace
  | [], _, _, h, hrecorded => ⟨h, hrecorded, rfl⟩
  | c :: rest, e, hkeeps, h, hrecorded => by
    have hstep : Pace env cooldown answerTimeout (e.call env c) ∧ Recorded P (e.call env c) ∧
        loopTime (e.call env c).trace = loopTime e.trace := by
      rcases call_paced env h (hkeeps c List.mem_cons_self) with
        ⟨item, hid, hfits, heq⟩ | ⟨answer, useCrc, hprocessing, heq⟩ | hcalm
      · rw [heq]
        exact ⟨h.enqueue hfits, hrecorded.enqueue h hid,
          congrArg Prod.fst (timing_snoc_quiet _ rfl (fun _ => Event.noConfusion))⟩
      · rw [heq]
        refine ⟨h.answered hregular answer useCrc hprocessing,
          hrecorded.answered answer useCrc hprocessing, ?_⟩
        rw [sendAnswer_eq env e answer useCrc hprocessing]
        exact loopTime_snoc_wrote _ _
      · exact ⟨h.calm hcalm, hrecorded.calm hcalm, congrArg Prod.fst hcalm.timing⟩
    obtain ⟨hpace, hrecorded', htime⟩ := calls_paced hregular rest
      (fun c' hc' => hkeeps c' (List.mem_cons_of_mem c hc')) hstep.1 hstep.2.1
    exact ⟨hpace, hrecorded', htime.trans hstep.2.2⟩

theorem invoke_paced {P : OutgoingQueueItem → TimePoint × Write → Prop}
    (hregular : env.Regular cooldown answerTimeout)
    (hkeeps : ∀ invocation, ∀ c ∈ reply invocation, c.Keeps env cooldown answerTimeout)
    (h : Pace env cooldown answerTimeout e) (hrecorded : Recorded P e) (invocation : Invocation) :
    Pace env cooldown answerTimeout (e.invoke env reply invocation) ∧
      Recorded P (e.invoke env reply invocation) ∧
      loopTime (e.invoke env reply invocation).trace = loopTime e.trace := by
  have hcalm : Calm e (e.emit (.invoked invocation)) := (Calm.refl e).invoked invocation
  have hcalls : ∀ c ∈ if invocation.handler = .builtIn then [] else reply invocation,
      c.Keeps env cooldown answerTimeout := by
    split
    · exact fun c hc => absurd hc List.not_mem_nil
    · exact hkeeps invocation
  obtain ⟨hpace, hrecorded', htime⟩ :=
    calls_paced hregular _ hcalls (h.calm hcalm) (hrecorded.calm hcalm)
  exact ⟨hpace, hrecorded', htime.trans (congrArg Prod.fst hcalm.timing)⟩

/-! ## Sending -/

variable {msg : OutgoingQueueItem} {rest : List OutgoingQueueItem} {n : Nat} {phase : Phase}

theorem Recorded.imp {P Q : OutgoingQueueItem → TimePoint × Write → Prop} (h : Recorded P e)
    (himp : ∀ msg ∈ e.handler.outgoingMessages, ∀ x, P msg x → Q msg x) : Recorded Q e :=
  fun msg hmsg x hx => himp msg hmsg x (h msg hmsg x hx)

/-- Only the head of the queue may have been attempted. -/
theorem lastAttempt_rest (h : Service.Follows e ⟨msg :: rest, n, phase⟩) :
    ∀ other ∈ rest, lastAttempt other.id (timed e.trace) = none := by
  intro other hother
  refine lastAttempt_none ?_
  intro hmem
  have hle := (Desk.tally_of_replays h.replays).reached _ hmem msg List.mem_cons_self
  exact Nat.not_lt_of_le hle ((List.pairwise_cons.mp h.order.distinct).1 other hother)

/-- When the head is removed nothing that is left has been attempted. -/
theorem recorded_popOutgoing (P : OutgoingQueueItem → TimePoint × Write → Prop)
    (h : Service.Follows e ⟨msg :: rest, n, phase⟩) : Recorded P e.popOutgoing := by
  have hcalm : timing e.popOutgoing.trace = timing e.trace :=
    ((Calm.refl e).popOutgoing).timing
  have htimed : timed e.popOutgoing.trace = timed e.trace := congrArg Prod.snd hcalm
  have hqueue : e.popOutgoing.handler.outgoingMessages = rest := by
    rw [popOutgoing_cons msg rest h.queue]
    rfl
  intro other hother x hx
  rw [htimed, lastAttempt_rest h other (hqueue ▸ hother)] at hx
  cases hx

theorem Pace.decrement (h : Pace env cooldown answerTimeout e) (id : Nat) :
    Pace env cooldown answerTimeout { e with handler := e.handler.decrementRetries id } := by
  refine ⟨h.cooldownInterval, h.answerInterval, h.cooldownTimePoint, h.fresh, ?_, h.paced, h.past⟩
  intro msg hmsg
  obtain ⟨old, hold, rfl⟩ := List.mem_map.mp hmsg
  obtain ⟨item, hitem, hsame⟩ := h.items old hold
  refine ⟨item, hitem, ?_⟩
  split
  · exact hsame
  · exact hsame

/-- The head of the queue is written when its time has come. -/
theorem Pace.wrote (hregular : env.Regular cooldown answerTimeout)
    (h : Pace env cooldown answerTimeout e)
    (hfollows : Service.Follows e ⟨msg :: rest, n, .idle⟩) {now : TimePoint}
    (hnow : loopTime e.trace = some now) (hcooldown : e.handler.cooldownTimePoint ≤ now)
    (hretry : e.handler.retryTimePoint ≤ now) (hidle : e.handler.state = .idle)
    (hscheduled : Recorded (Scheduled answerTimeout e) e) :
    Pace env cooldown answerTimeout
      (e.wrote (e.writeOf env (.request msg.id) msg.message msg.useCrc)) := by
  let w := e.writeOf env (.request msg.id) msg.message msg.useCrc
  have hmem : msg ∈ e.handler.outgoingMessages := hfollows.queue ▸ List.mem_cons_self
  refine ⟨h.cooldownInterval, h.answerInterval, ?_, ?_, ?_, h.paced.snoc w ?_, ?_⟩
  · intro x hx
    have hlast : (timed (e.trace ++ [.wrote w])).getLast? = some x := hx
    rw [timed_snoc_wrote, List.getLast?_concat] at hlast
    cases hlast
    show addMilliseconds (env.clock e.ticks) e.handler.cooldownInterval = _
    rw [h.cooldownInterval]
    exact hregular.cooldown.add e.ticks
  · intro id hid
    have hmore : attempted (e.trace ++ [.wrote w]) = attempted e.trace ++ [msg.id] :=
      filterMap_snoc_some _ _ rfl
    rcases List.mem_append.mp (hmore ▸ hid) with hid | hid
    · exact h.fresh id hid
    · rw [List.mem_singleton.mp hid]
      show msg.id < e.nextId
      rw [hfollows.nextId]
      exact hfollows.order.fresh msg List.mem_cons_self
  · intro other hother
    obtain ⟨item, hitem, hsame⟩ := h.items other hother
    exact ⟨item, List.mem_append_left _ hitem, hsame⟩
  · rintro _ ⟨⟩
    obtain ⟨item, hitem, hid, hinterval, _⟩ := h.items msg hmem
    rw [hnow, Option.getD_some]
    refine ⟨?_, item, hitem, hid, ?_⟩
    · intro x hx
      rw [← h.cooldownTimePoint x hx]
      exact hcooldown
    · intro t₁ v hlast hsuccess
      obtain ⟨hpoint, hanswer⟩ := hscheduled msg hmem _ hlast hsuccess
      refine ⟨?_, ?_⟩
      · rw [hinterval, ← hpoint]
        exact hretry
      · rcases hanswer with ⟨hwaiting, _⟩ | ⟨t, ht, hlater⟩
        · exact ProtocolState.noConfusion (hidle.symm.trans hwaiting)
        · rw [hnow] at ht
          exact Option.some_inj.mp ht ▸ hlater
  · intro t ht
    obtain ⟨i, hle, hi⟩ := h.past t ((loopTime_snoc_wrote e.trace w).symm.trans ht)
    exact ⟨i, Nat.le_succ_of_le hle, hi⟩

theorem Recorded.decrement {P Q : OutgoingQueueItem → TimePoint × Write → Prop}
    (h : Recorded P e) (id : Nat) (hboth : ∀ msg x, P msg x → Q msg x ∧ Q msg.retried x) :
    Recorded Q { e with handler := e.handler.decrementRetries id } := by
  intro msg hmsg x hx
  obtain ⟨old, hold, rfl⟩ := List.mem_map.mp hmsg
  split
  · rename_i hid
    rw [if_pos hid] at hx
    exact (hboth old x (h old hold x hx)).2
  · rename_i hid
    rw [if_neg hid] at hx
    exact (hboth old x (h old hold x hx)).1

/-- Of the items in the queue only the head has been attempted, just now. -/
theorem recorded_head (h : Service.Follows e ⟨msg :: rest, n, phase⟩) {w : Write}
    (hw : w.request? = some msg.id) {now : TimePoint} (hnow : loopTime e.trace = some now) :
    Recorded (fun m x => m = msg ∧ x = (now, w)) (e.wrote w) := by
  intro m hm x hx
  have hlast : lastAttempt m.id (timed (e.trace ++ [.wrote w])) = some x := hx
  rw [timed_snoc_wrote] at hlast
  have hqueue : e.handler.outgoingMessages = msg :: rest := h.queue
  have hmem : m ∈ msg :: rest := hqueue ▸ hm
  rcases List.mem_cons.mp hmem with rfl | hm
  · rw [lastAttempt_snoc_self _ hw, hnow] at hlast
    exact ⟨rfl, (Option.some_inj.mp hlast).symm⟩
  · have hne : w.request? ≠ some m.id := fun hid =>
      h.order.others m hm (Option.some_inj.mp (hid.symm.trans hw))
    rw [lastAttempt_snoc_other _ hne, lastAttempt_rest h m hm] at hlast
    cases hlast

theorem sendHead_paced (hregular : env.Regular cooldown answerTimeout)
    (h : Pace env cooldown answerTimeout e)
    (hfollows : Service.Follows e ⟨msg :: rest, n, .idle⟩) {now : TimePoint}
    (hnow : loopTime e.trace = some now) (hcooldown : e.handler.cooldownTimePoint ≤ now)
    (hretry : e.handler.retryTimePoint ≤ now) (hidle : e.handler.state = .idle)
    (hscheduled : Recorded (Scheduled answerTimeout e) e) :
    Pace env cooldown answerTimeout (e.sendHead env msg now) ∧
      Recorded (Scheduled answerTimeout (e.sendHead env msg now)) (e.sendHead env msg now) := by
  have haccess : Calm e (e.access msg.id) := (Calm.refl e).access msg.id
  have htime : loopTime (e.access msg.id).trace = loopTime e.trace :=
    congrArg Prod.fst haccess.timing
  have hqueue : e.handler.outgoingMessages = msg :: rest := hfollows.queue
  have hfollows' := hfollows.access msg.id
  let w := (e.access msg.id).writeOf env (.request msg.id) msg.message msg.useCrc
  let e₁ := (e.access msg.id).wrote w
  have hpace : Pace env cooldown answerTimeout e₁ := by
    refine (h.calm haccess).wrote hregular hfollows' (htime.trans hnow) hcooldown hretry hidle ?_
    refine (hscheduled.calm haccess).imp fun m _ x hx hsuccess => ?_
    rw [htime]
    exact hx hsuccess
  have hjust : Recorded (fun m x => m = msg ∧ x = (now, w)) e₁ :=
    recorded_head hfollows' rfl (htime.trans hnow)
  rw [sendHead, write_eq]
  dsimp only
  split
  · split
    · -- A notice is removed.
      let e₂ : Endpoint := { e₁.access msg.id with
        handler := { (e₁.access msg.id).handler with lastMessageType := msg.message.frameType } }
      have hcalm : Calm e₁ e₂ :=
        ⟨rfl, rfl, rfl, rfl, rfl, timing_snoc_quiet _ rfl (fun _ => Event.noConfusion),
          List.subset_append_left _ _, List.Subset.refl _⟩
      have hpop := ((hcalm.popOutgoing).setRetryTimePoint now).access msg.id
      have hrest : e₂.popOutgoing.handler.outgoingMessages = rest := by
        rw [popOutgoing_cons msg rest (show e₂.handler.outgoingMessages = _ from hqueue)]
        rfl
      have hnone : Recorded (fun _ _ => False)
          ((e₂.popOutgoing.setRetryTimePoint now).access msg.id) := by
        refine (hjust.calm hpop).imp fun m hm x hx => ?_
        have hmem : m ∈ rest := by
          rw [← hrest]
          exact hm
        exact hfollows.order.others m hmem (congrArg _ hx.1)
      exact ⟨(hpace.calm hpop).decrement msg.id,
        hnone.decrement msg.id fun _ _ hfalse => hfalse.elim⟩
    · -- A request is waited for.
      rename_i hrequest
      let e₂ : Endpoint := { e₁.access msg.id with
        handler := { (e₁.access msg.id).handler with
          lastMessageType := msg.message.frameType
          answerTimePoint := addMilliseconds now e₁.handler.answerTimeoutInterval
          retryTimePoint := addMilliseconds now msg.retryInterval } }
      have hcalm : Calm e₁ e₂ :=
        ⟨rfl, rfl, rfl, rfl, rfl, timing_snoc_quiet _ rfl (fun _ => Event.noConfusion),
          List.subset_append_left _ _, List.Subset.refl _⟩
      have hlast := (hcalm.setState .waitingForAnswer).access msg.id
      obtain ⟨_, _, _, _, hfits⟩ := h.items msg (hqueue ▸ List.mem_cons_self)
      have hanswer : addMilliseconds now e₁.handler.answerTimeoutInterval =
          now + milliseconds answerTimeout := by
        rw [hpace.answerInterval]
        exact h.add_eq hnow hregular.answerTimeout
      have hretry : addMilliseconds now msg.retryInterval =
          now + milliseconds msg.retryInterval :=
        h.add_eq hnow (hfits (Bool.eq_false_iff.mpr hrequest))
      refine ⟨(hpace.calm hlast).decrement msg.id, (hjust.calm hlast).decrement msg.id ?_⟩
      rintro m x ⟨rfl, rfl⟩
      exact ⟨fun _ => ⟨hretry, .inl ⟨rfl, hanswer⟩⟩, fun _ => ⟨hretry, .inl ⟨rfl, hanswer⟩⟩⟩
  · rename_i hsent
    have hcalm : Calm e₁ (e₁.access msg.id) := (Calm.refl e₁).access msg.id
    refine ⟨(hpace.calm hcalm).decrement msg.id, (hjust.calm hcalm).decrement msg.id ?_⟩
    rintro m x ⟨rfl, rfl⟩
    exact ⟨fun hsuccess => absurd hsuccess hsent, fun hsuccess => absurd hsuccess hsent⟩

/-- The pace and the schedule of an endpoint between its steps. -/
structure Timely (env : Surroundings) (cooldown answerTimeout : Int) (e : Endpoint) : Prop where
  pace : Pace env cooldown answerTimeout e
  scheduled : Recorded (Scheduled answerTimeout e) e

/-- What is scheduled depends on the state and two time points only. -/
theorem Timely.of_recorded (hpace : Pace env cooldown answerTimeout e')
    (hrecorded : Recorded (Scheduled answerTimeout e) e')
    (hstate : e'.handler.state = e.handler.state)
    (hretry : e'.handler.retryTimePoint = e.handler.retryTimePoint)
    (hanswer : e'.handler.answerTimePoint = e.handler.answerTimePoint)
    (htime : loopTime e'.trace = loopTime e.trace) : Timely env cooldown answerTimeout e' := by
  refine ⟨hpace, hrecorded.imp fun m _ x hx hsuccess => ?_⟩
  rw [hstate, hretry, hanswer, htime]
  exact hx hsuccess

theorem sendNext_paced (hregular : env.Regular cooldown answerTimeout)
    (h : Timely env cooldown answerTimeout e)
    (hserves : Service.Serves e d) (hidle : e.handler.state = .idle) {now : TimePoint}
    (hnow : loopTime e.trace = some now) :
    Timely env cooldown answerTimeout (e.sendNext env now) := by
  obtain ⟨queue, n, phase⟩ := d
  obtain rfl : phase = .idle := phase_idle hserves hidle
  have hqueue : e.handler.outgoingMessages = queue := hserves.queue
  rw [sendNext, hqueue]
  cases queue with
  | nil => exact h
  | cons msg rest =>
    dsimp only
    split
    · rename_i hready
      have haccess : Calm e (e.access msg.id) := (Calm.refl e).access msg.id
      have hfollows := hserves.toFollows.access msg.id
      have htime : loopTime (e.access msg.id).trace = loopTime e.trace :=
        congrArg Prod.fst haccess.timing
      split
      · have hscheduled := Timely.of_recorded (h.pace.calm haccess) (h.scheduled.calm haccess)
          rfl rfl rfl htime
        obtain ⟨hpace, hrecorded⟩ := sendHead_paced hregular hscheduled.pace hfollows
          (htime.trans hnow) hready.1 hready.2 hidle hscheduled.scheduled
        exact ⟨hpace, hrecorded⟩
      · have hpop := (haccess.popOutgoing).setRetryTimePoint now
        refine ⟨h.pace.calm hpop, ?_⟩
        exact recorded_popOutgoing _ hfollows
    · exact h

theorem handleIncoming_paced (hregular : env.Regular cooldown answerTimeout)
    (hkeeps : ∀ invocation, ∀ c ∈ reply invocation, c.Keeps env cooldown answerTimeout)
    (h : Timely env cooldown answerTimeout e) (hline : Line e) :
    Timely env cooldown answerTimeout (e.handleIncoming env reply) ∧
      (e.handleIncoming env reply).handler.state = e.handler.state ∧
      loopTime (e.handleIncoming env reply).trace = loopTime e.trace := by
  rcases hline.handleIncoming_cases env reply with ⟨_, heq⟩ | ⟨_, a, transport, _, _, heq⟩
  · rw [heq]
    exact ⟨h, rfl, rfl⟩
  · rw [heq, processMessage]
    dsimp only
    -- The endpoint while the handler runs.
    let e₁ : Endpoint := { e.withFrames transport [] with
      handler := { (e.withFrames transport []).handler with
        incomingMessageCrcStatus := a.frame.frame.useCrc
        processingMessage := true
        answerSent := false }
      current := some a }
    have hcalm : Calm e e₁ :=
      ⟨rfl, rfl, rfl, rfl, rfl, rfl, List.Subset.refl _, List.Subset.refl _⟩
    let invocation := Invocation.message (e₁.handler.messageHandler a.frame.frame.frameType) a
    obtain ⟨hpace, hrecorded, htime⟩ := invoke_paced hregular hkeeps (h.pace.calm hcalm)
      (h.scheduled.calm hcalm) invocation
    have hcalls := invoke_undisturbed env reply e₁ invocation
    have hlast : Calm (e₁.invoke env reply invocation) { e₁.invoke env reply invocation with
        handler := { (e₁.invoke env reply invocation).handler with processingMessage := false }
        current := none } :=
      ⟨rfl, rfl, rfl, rfl, rfl, rfl, List.Subset.refl _, List.Subset.refl _⟩
    exact ⟨Timely.of_recorded (hpace.calm hlast) (hrecorded.calm hlast) hcalls.state
      hcalls.retryTimePoint hcalls.answerTimePoint htime, hcalls.state, htime⟩

/-- The time for the answer is over. -/
theorem answerTimeout_paced (hregular : env.Regular cooldown answerTimeout)
    (hkeeps : ∀ invocation, ∀ c ∈ reply invocation, c.Keeps env cooldown answerTimeout)
    (h : Timely env cooldown answerTimeout e) (hserves : Service.Serves e d)
    {now : TimePoint} (hnow : loopTime e.trace = some now)
    (hover : e.handler.answerTimePoint < now) :
    Timely env cooldown answerTimeout (e.answerTimeout env reply now) := by
  obtain ⟨queue, n, phase⟩ := d
  have hqueue : e.handler.outgoingMessages = queue := hserves.queue
  rw [Endpoint.answerTimeout, hqueue]
  cases queue with
  | nil =>
    have hcalm : Calm e (e.emit .emptyQueue) :=
      ⟨rfl, rfl, rfl, rfl, rfl, timing_snoc_quiet _ rfl (fun _ => Event.noConfusion),
        List.subset_append_left _ _, List.Subset.refl _⟩
    exact Timely.of_recorded (h.pace.calm hcalm) (h.scheduled.calm hcalm) rfl rfl rfl
      (congrArg Prod.fst hcalm.timing)
  | cons msg rest =>
    dsimp only
    have haccess : Calm e (e.access msg.id) := (Calm.refl e).access msg.id
    split
    · let e₁ := (e.access msg.id).popOutgoing.setRetryTimePoint now
      let invocation := Invocation.timeout (e₁.handler.timeoutHandler e₁.handler.lastMessageType)
        e₁.handler.lastMessageType msg.id
      have hpop : Calm e e₁ := (haccess.popOutgoing).setRetryTimePoint now
      have hnone : Recorded (fun _ _ => False) e₁ :=
        recorded_popOutgoing _ (hserves.toFollows.access msg.id)
      obtain ⟨hpace, hnone', _⟩ := invoke_paced hregular hkeeps (h.pace.calm hpop) hnone invocation
      have hlast := (Calm.refl (e₁.invoke env reply invocation)).setState .idle
      exact ⟨hpace.calm hlast, (hnone'.calm hlast).imp fun _ _ _ hfalse => hfalse.elim⟩
    · have hlast := haccess.setState .idle
      have htime : loopTime ((e.access msg.id).setState .idle).trace = loopTime e.trace :=
        congrArg Prod.fst hlast.timing
      refine ⟨h.pace.calm hlast, (h.scheduled.calm hlast).imp fun m _ x hx hsuccess => ?_⟩
      obtain ⟨hretry, hanswer⟩ := hx hsuccess
      refine ⟨hretry, .inr ?_⟩
      rw [htime]
      rcases hanswer with ⟨_, hpoint⟩ | hlater
      · rw [← hpoint]
        exact ⟨now, hnow, hover⟩
      · exact hlater

/-- The answer has come, and the request is removed. -/
theorem answerReceived_paced (hregular : env.Regular cooldown answerTimeout)
    (hkeeps : ∀ invocation, ∀ c ∈ reply invocation, c.Keeps env cooldown answerTimeout)
    (h : Timely env cooldown answerTimeout e) (hserves : Service.Serves e d)
    (hwaiting : e.handler.state = .waitingForAnswer) {a : Arrival} {arrivals : List Arrival}
    (harrivals : e.arrivals = a :: arrivals) (now : TimePoint) :
    Timely env cooldown answerTimeout (e.answerReceived env reply now) := by
  obtain ⟨queue, n, phase⟩ := d
  obtain ⟨w, rfl⟩ : ∃ w, phase = .waiting w := phase_waiting hserves hwaiting
  obtain ⟨msg, rest, transport, more, n', rfl, hpop, _, hf⟩ :=
    hserves.answering env reply harrivals
  rw [answerReceived, hpop]
  dsimp only
  let e₁ := e.withFrames transport arrivals
  let invocation := Invocation.answer (e₁.handler.answerHandler e₁.handler.lastMessageType)
    e₁.handler.lastMessageType (e₁.handler.outgoingMessages.head?.map (·.id)) a
  have hcalm : Calm e e₁ :=
    ⟨rfl, rfl, rfl, rfl, rfl, rfl, List.Subset.refl _, List.Subset.refl _⟩
  obtain ⟨hpace, _, _⟩ :=
    invoke_paced hregular hkeeps (h.pace.calm hcalm) (h.scheduled.calm hcalm) invocation
  let e₂ := (e₁.invoke env reply invocation).popOutgoing
  have hpop : Calm (e₁.invoke env reply invocation) e₂ := (Calm.refl _).popOutgoing
  have hnone : Recorded (fun _ _ => False) e₂ := recorded_popOutgoing _ hf
  have hlast := ((Calm.refl e₂).setRetryTimePoint now).setState .idle
  exact ⟨(hpace.calm hpop).calm hlast, (hnone.calm hlast).imp fun _ _ _ hfalse => hfalse.elim⟩

/-! ## The loop -/

theorem loopTime_look (env : Surroundings) (e : Endpoint) :
    loopTime ((e.receive env).look env).trace = some (env.clock e.ticks) := by
  show loopTime (e.trace ++ [_]) = _
  rw [loopTime, timing_snoc]
  rfl

theorem timed_look (env : Surroundings) (e : Endpoint) :
    timed ((e.receive env).look env).trace = timed e.trace := by
  show timed (e.trace ++ [_]) = _
  rw [timed, timing_snoc]
  rfl

/-- Looking at the clock only lets time pass. -/
theorem Timely.look (hregular : env.Regular cooldown answerTimeout)
    (h : Timely env cooldown answerTimeout e) :
    Timely env cooldown answerTimeout ((e.receive env).look env) := by
  have htime₀ := loopTime_look env e
  have htimed₀ := timed_look env e
  refine ⟨⟨h.pace.cooldownInterval, h.pace.answerInterval, ?_, ?_, ?_, ?_, ?_⟩, ?_⟩
  · rw [htimed₀]
    exact h.pace.cooldownTimePoint
  · rw [attempted_timed, htimed₀, ← attempted_timed]
    exact h.pace.fresh
  · intro msg hmsg
    obtain ⟨item, hitem, hsame⟩ := h.pace.items msg hmsg
    exact ⟨item, List.mem_append_left _ hitem, hsame⟩
  · intro before t w after hsplit id hid
    rw [htimed₀] at hsplit
    obtain ⟨hcooldown, item, hitem, hsame⟩ := h.pace.paced before t w after hsplit id hid
    exact ⟨hcooldown, item, List.mem_append_left _ hitem, hsame⟩
  · intro t ht
    rw [htime₀] at ht
    exact ⟨e.ticks, Nat.le_succ _, (Option.some_inj.mp ht).symm⟩
  · intro msg hmsg x hx hsuccess
    rw [htimed₀] at hx
    obtain ⟨hretry, hanswer⟩ := h.scheduled msg hmsg x hx hsuccess
    refine ⟨hretry, hanswer.imp_right ?_⟩
    rintro ⟨t, ht, hlater⟩
    obtain ⟨i, hle, rfl⟩ := h.pace.past t ht
    exact ⟨_, htime₀, lt_of_lt_of_le hlater (hregular.clock hle)⟩

theorem loop_paced (hregular : env.Regular cooldown answerTimeout)
    (hkeeps : ∀ invocation, ∀ c ∈ reply invocation, c.Keeps env cooldown answerTimeout)
    (h : Timely env cooldown answerTimeout e) (hserves : Service.Serves e d) :
    Timely env cooldown answerTimeout (e.loop env reply) := by
  let e₀ := (e.receive env).look env
  have hserves₀ : Service.Serves e₀ d := (hserves.receive env).look env
  have htime₀ : loopTime e₀.trace = some (env.clock e.ticks) := loopTime_look env e
  have h₀ : Timely env cooldown answerTimeout e₀ := h.look hregular
  rw [loop, turn]
  split
  · rename_i hidle
    obtain ⟨d₁, hserves₁, _⟩ := hserves₀.handleIncoming env reply (phase_idle hserves₀ hidle)
    obtain ⟨h₁, hstate₁, htime₁⟩ := handleIncoming_paced hregular hkeeps h₀ hserves₀.line
    exact sendNext_paced hregular h₁ hserves₁ (hstate₁.trans hidle) (htime₁.trans htime₀)
  · rename_i hwaiting
    split
    · rename_i hover
      exact answerTimeout_paced hregular hkeeps h₀ hserves₀ htime₀ hover
    · split
      · rename_i hany
        rw [← hserves₀.line.length_arrivals] at hany
        obtain ⟨a, arrivals, harrivals⟩ := List.exists_cons_of_length_pos hany
        exact answerReceived_paced hregular hkeeps h₀ hserves₀ hwaiting harrivals _
      · exact h₀

theorem step_paced (hregular : env.Regular cooldown answerTimeout)
    (h : Timely env cooldown answerTimeout e)
    (hserves : Service.Serves e d) {s : Step} (hkeeps : s.Keeps env cooldown answerTimeout) :
    Timely env cooldown answerTimeout (e.step env s) := by
  cases s with
  | arrive bytes =>
    have hcalm : Calm e (e.step env (.arrive bytes)) :=
      ⟨rfl, rfl, rfl, rfl, rfl, rfl, List.Subset.refl _, List.Subset.refl _⟩
    exact ⟨h.pace.calm hcalm, h.scheduled.calm hcalm⟩
  | call c =>
    obtain ⟨hpace, hrecorded, htime⟩ := calls_paced hregular [c]
      (fun c' hc' => List.mem_singleton.mp hc' ▸ hkeeps) h.pace h.scheduled
    have hcalls := calls_undisturbed env e [c]
    exact Timely.of_recorded hpace hrecorded hcalls.state hcalls.retryTimePoint
      hcalls.answerTimePoint htime
  | loop reply => exact loop_paced hregular hkeeps h hserves

/-- The intervals are set before anything happens. -/
def setting (cooldown answerTimeout : Int) : List Step :=
  [.call (.setCooldownInterval cooldown), .call (.setAnswerTimeout answerTimeout)]

theorem timely_run (cells : Nat → UInt8) (bufferSize : Nat)
    (hregular : env.Regular cooldown answerTimeout) (steps : List Step)
    (hkeeps : ∀ s ∈ steps, s.Keeps env cooldown answerTimeout) :
    Timely env cooldown answerTimeout
      ((start cells bufferSize).run env (setting cooldown answerTimeout ++ steps)) := by
  induction steps using List.reverseRecOn with
  | nil =>
    refine ⟨⟨rfl, rfl, ?_, ?_, ?_, ?_, ?_⟩, ?_⟩
    · intro x hx
      cases hx
    · exact fun _ hid => absurd hid List.not_mem_nil
    · exact fun _ hmsg => absurd hmsg List.not_mem_nil
    · intro before t w after hsplit
      exact absurd hsplit.symm (List.append_ne_nil_of_right_ne_nil _ (List.cons_ne_nil _ _))
    · intro t ht
      cases ht
    · exact fun _ hmsg => absurd hmsg List.not_mem_nil
  | append_singleton steps s ih =>
    obtain ⟨d, hserves⟩ :=
      Service.serves_run cells bufferSize env (setting cooldown answerTimeout ++ steps)
    rw [← List.append_assoc, run_snoc]
    exact step_paced hregular (ih fun s' hs' => hkeeps s' (List.mem_append_left _ hs')) hserves
      (hkeeps s (List.mem_append_right _ List.mem_cons_self))

end Endpoint

open Endpoint

theorem Write.request?_eq_some {w : Write} {id : Nat} :
    w.request? = some id ↔ w.origin = .request id := by
  rw [Write.request?]
  cases w.origin with
  | request other =>
    constructor
    · rintro ⟨⟩
      rfl
    · rintro ⟨⟩
      rfl
  | answer processed =>
    constructor
    · rintro ⟨⟩
    · rintro ⟨⟩

/-- In every run with a clock that does not go back, fixed intervals and time points that do not
overflow: a message of the queue is written only when the cooldown after the write before is over.
A request that has been written successfully is written again only when its retry interval and the
answer timeout have passed. -/
theorem run_paced (cells : Nat → UInt8) (bufferSize : Nat) (env : Surroundings)
    (hclock : Monotone env.clock) (cooldown answerTimeout : Int)
    (hcooldown : env.Represents cooldown) (hanswer : env.Represents answerTimeout)
    (steps : List Step) (hkeeps : ∀ s ∈ steps, s.Keeps env cooldown answerTimeout) :
    let trace :=
      ((start cells bufferSize).run env (setting cooldown answerTimeout ++ steps)).trace
    (timed trace).map Prod.snd = writes trace ∧
    (∀ before t w after id, timed trace = before ++ (t, w) :: after → w.origin = .request id →
      ∀ x, before.getLast? = some x → x.2.now + milliseconds cooldown ≤ t) ∧
    ∀ before t₁ v mid t₂ w after id message useCrc numRepeats interval,
      timed trace = before ++ (t₁, v) :: mid ++ (t₂, w) :: after →
      .queued (.request id message useCrc numRepeats interval) ∈ trace →
      v.origin = .request id → v.isSuccess = true → w.origin = .request id →
      (∀ x ∈ mid, x.2.origin ≠ .request id) →
        t₁ + milliseconds interval ≤ t₂ ∧ t₁ + milliseconds answerTimeout < t₂ := by
  intro trace
  have hpaced := (timely_run cells bufferSize ⟨hclock, hcooldown, hanswer⟩ steps hkeeps).pace.paced
  obtain ⟨d, h⟩ :=
    Service.serves_run cells bufferSize env (setting cooldown answerTimeout ++ steps)
  refine ⟨map_snd_timed trace, ?_, ?_⟩
  · intro before t w after id hsplit horigin
    exact (hpaced before t w after hsplit id (Write.request?_eq_some.mpr horigin)).1
  · intro before t₁ v mid t₂ w after id message useCrc numRepeats interval hsplit hqueued hv
      hsuccess hw hmid
    obtain ⟨_, item, hitem, hid, hlater⟩ :=
      hpaced _ t₂ w after hsplit id (Write.request?_eq_some.mpr hw)
    have hlast : lastAttempt id (before ++ (t₁, v) :: mid) = some (t₁, v) :=
      lastAttempt_append before (Write.request?_eq_some.mpr hv) mid
        fun x hx hx' => hmid x hx (Write.request?_eq_some.mp hx')
    have hsame := (Desk.books_of_replays h.replays).unique item _ hitem hqueued hid
    have hdistance := hlater t₁ v hlast hsuccess
    rw [hsame] at hdistance
    exact hdistance

/-! ## A request that is tried again -/

/-- The clock stops after a minute. -/
def oneMinute : Surroundings := ⟨fun n => (min n 60 : Nat) * 1000000000, fun _ _ => 0, fun _ _ => 0⟩

theorem monotone_oneMinute : Monotone oneMinute.clock := by
  intro m n hle
  show ((min m 60 : Nat) : Int) * 1000000000 ≤ (min n 60 : Nat) * 1000000000
  omega

theorem oneMinute_represents {interval : Int} (hlow : 0 ≤ interval) (hhigh : interval ≤ 1000) :
    oneMinute.Represents interval := by
  intro i
  show -2 ^ 63 ≤ ((min i 60 : Nat) : Int) * 1000000000 + interval * 1000000 ∧
    ((min i 60 : Nat) : Int) * 1000000000 + interval * 1000000 < 2 ^ 63
  omega

/-- A request is queued that may be repeated once, and `loop` is called until that has happened. -/
def repeatedRequest : List Step :=
  [.call (.sendMessage ⟨0x61, noSubcommand, []⟩ true 1 1000), .loop fun _ => [], .loop fun _ => [],
    .loop fun _ => []]

theorem run_paced_repeated :
    let trace :=
      ((start (fun _ => 0) 251).run oneMinute (setting 400 200 ++ repeatedRequest)).trace
    (timed trace).map Prod.snd = writes trace ∧
    (∀ before t w after id, timed trace = before ++ (t, w) :: after → w.origin = .request id →
      ∀ x, before.getLast? = some x → x.2.now + milliseconds 400 ≤ t) ∧
    ∀ before t₁ v mid t₂ w after id message useCrc numRepeats interval,
      timed trace = before ++ (t₁, v) :: mid ++ (t₂, w) :: after →
      .queued (.request id message useCrc numRepeats interval) ∈ trace →
      v.origin = .request id → v.isSuccess = true → w.origin = .request id →
      (∀ x ∈ mid, x.2.origin ≠ .request id) →
        t₁ + milliseconds interval ≤ t₂ ∧ t₁ + milliseconds 200 < t₂ := by
  refine run_paced (fun _ => 0) 251 oneMinute monotone_oneMinute 400 200
    (oneMinute_represents (by decide) (by decide)) (oneMinute_represents (by decide) (by decide))
    repeatedRequest ?_
  intro s hs
  simp only [repeatedRequest, List.mem_cons, List.not_mem_nil, or_false] at hs
  rcases hs with rfl | rfl | rfl | rfl
  · exact oneMinute_represents (by decide) (by decide)
  all_goals exact fun _ _ hc => absurd hc List.not_mem_nil

/-! ## A cooldown that is too long -/

/-- The clock stands still. -/
def standing : Surroundings := ⟨fun _ => 0, fun _ _ => 0, fun _ _ => 0⟩

/-- The longest cooldown that `set_cooldown_interval` takes. -/
def longestCooldown : Int := 2 ^ 63 - 1

/-- Two reports are queued, and `loop` is called twice. -/
def twoReports : List Step :=
  [.call (.sendMessageWithoutAnswer ⟨0x61, noSubcommand, []⟩ true),
    .call (.sendMessageWithoutAnswer ⟨0x61, noSubcommand, []⟩ true), .loop fun _ => [],
    .loop fun _ => []]

/-- The end of the cooldown overflows, and the second report goes out at once. -/
theorem overflowingCooldown_not_paced :
    let trace :=
      ((start (fun _ => 0) 251).run standing (setting longestCooldown 200 ++ twoReports)).trace
    Monotone standing.clock ∧
    ¬ ∀ before t w after id, timed trace = before ++ (t, w) :: after → w.origin = .request id →
      ∀ x, before.getLast? = some x → x.2.now + milliseconds longestCooldown ≤ t := by
  intro trace
  refine ⟨fun _ _ _ => Int.le_refl _, fun hpaced => ?_⟩
  have hlength : (timed trace).length = 2 := by decide +kernel
  obtain ⟨x, y, htimed⟩ := List.length_eq_two.mp hlength
  have horigins : (timed trace).map (·.2.origin) = [.request 0, .request 1] := by decide +kernel
  have htimes : (timed trace).map (fun z => (z.1, z.2.now)) = [(0, 0), (0, 0)] := by
    decide +kernel
  rw [htimed] at horigins htimes
  obtain ⟨_, horigin⟩ := List.cons_eq_cons.mp horigins
  obtain ⟨hx, hy⟩ := List.cons_eq_cons.mp htimes
  have hsent : x.2.now = 0 := congrArg Prod.snd hx
  have hnow : y.1 = 0 := congrArg Prod.fst (List.cons_eq_cons.mp hy).1
  have hearly := hpaced [x] y.1 y.2 [] 1 htimed (List.cons_eq_cons.mp horigin).1 x rfl
  rw [hsent, hnow] at hearly
  exact absurd hearly (by decide)

end HaierProtocol
