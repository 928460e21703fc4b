import HaierProtocol.Protocol.Phases

/-!
# Remote calls

In a conversation whose side that asks is never late for an answer, asking is calling: requests are
handled one after another, each once, and what the answer handlers are given is what the side that
answers would return if it were called with the requests directly (`run_answers`).  From every
state that can be reached, one exchange answers one request more (`exchange_answers`).
-/

namespace HaierProtocol

open Endpoint

namespace Conversation

variable {σ : Type} {env : Side → Surroundings} {m : Responder σ} {n₀ n : Network}
  {done : List OutgoingQueueItem}

/-- How the network can have come about. -/
def Reachable (env : Side → Surroundings) (n : Network) : Prop :=
  ∃ cells bufferSize steps, n = (Network.start cells bufferSize).run env steps

theorem Reachable.reached (h : Reachable env n) : Reached n := by
  obtain ⟨cells, bufferSize, steps, rfl⟩ := h
  exact reached_run cells bufferSize env steps

theorem Reachable.step (h : Reachable env n) (s : Network.Step) : Reachable env (n.step env s) := by
  obtain ⟨cells, bufferSize, steps, rfl⟩ := h
  exact ⟨cells, bufferSize, steps ++ [s], (Network.run_snoc env _ steps s).symm⟩

/-- The requests `done` have been answered. -/
inductive Phase (m : Responder σ) (n₀ n : Network) (done : List OutgoingQueueItem) : Prop where
  | resting (h : Resting m n₀ n done)
  | asking {msg : OutgoingQueueItem} {rest : List OutgoingQueueItem}
      (h : Asking m n₀ n done msg rest)
  | answering {msg : OutgoingQueueItem} {rest : List OutgoingQueueItem}
      (h : Answering m n₀ n done msg rest)

/-! ## Steps -/

/-- A proper step answers a request more or none. -/
theorem phase_step (h : Phase m n₀ n done) (hm : m.Fits (capacity n₀ .left))
    (hn : Reachable env n) {s : Step} (hproper : Proper env n₀ n s) :
    ∃ done', Phase m n₀ (step env m n s) done' ∧ done <+: done' := by
  have h' := (hn.step (s.network m n)).reached
  have hsame : Phase m n₀ (step env m n s) done →
      ∃ done', Phase m n₀ (step env m n s) done' ∧ done <+: done' :=
    fun hphase => ⟨done, hphase, List.prefix_refl _⟩
  cases s with
  | call c =>
    cases h with
    | resting h => exact hsame (.resting (h.call hproper h'))
    | asking h =>
      obtain ⟨items, h⟩ := h.call hproper h'
      exact hsame (.asking h)
    | answering h =>
      obtain ⟨items, h⟩ := h.call hproper h'
      exact hsame (.answering h)
  | loop reply =>
    obtain ⟨hasks, htime⟩ := hproper
    cases h with
    | resting h =>
      rcases h.loop h' with h | ⟨msg, rest, h⟩
      · exact hsame (.resting h)
      · exact hsame (.asking h)
    | asking h => exact hsame (.asking (h.loop (htime h.state) h'))
    | @answering msg rest h =>
      rcases h.loop (htime h.state) hasks h' with ⟨_, h⟩ | ⟨_, h⟩
      · exact hsame (.answering h)
      · exact ⟨done ++ [msg], .resting h, List.prefix_append _ _⟩
  | serve =>
    cases h with
    | resting h => exact hsame (.resting (h.serve h'))
    | asking h =>
      rcases h.serve hm h' with ⟨_, h⟩ | ⟨_, h⟩
      · exact hsame (.asking h)
      · exact hsame (.answering h)
    | answering h => exact hsame (.answering (h.serve h'))
  | deliver side count =>
    cases h with
    | resting h => exact hsame (.resting (h.deliver h'))
    | asking h => exact hsame (.asking (h.deliver h'))
    | answering h => exact hsame (.answering (h.deliver h'))

theorem Reachable.run : ∀ (steps : List Step) {n : Network}, Reachable env n →
    Reachable env (run env m n steps)
  | [], _, h => h
  | s :: steps, n, h => run steps (h.step (s.network m n))

theorem phase_run (hm : m.Fits (capacity n₀ .left)) :
    ∀ (steps : List Step) {n : Network} {done : List OutgoingQueueItem}, Phase m n₀ n done →
      Reachable env n → AllProper env m n₀ n steps →
        ∃ done', Phase m n₀ (run env m n steps) done' ∧ done <+: done'
  | [], _, done, h, _, _ => ⟨done, h, List.prefix_refl _⟩
  | s :: steps, n, _, h, hn, ⟨hproper, hrest⟩ => by
    obtain ⟨done₁, h₁, hdone⟩ := phase_step h hm hn hproper
    obtain ⟨done₂, h₂, hdone'⟩ := phase_run hm steps h₁ (hn.step _) hrest
    exact ⟨done₂, h₂, hdone.trans hdone'⟩

/-! ## The beginning -/

theorem items_nil {e e' : Endpoint} {items : List OutgoingQueueItem}
    (h : Queues (fun _ _ => False) e e' items) : items = [] :=
  List.eq_nil_iff_forall_not_mem.mpr fun item hitem => (h.asks item hitem).holds.elim

/-- Setting up queues nothing. -/
theorem setup_queues (cells : Side → Nat → UInt8) (bufferSize : Side → Nat)
    (env : Side → Surroundings) (setup : List (Side × ApiCall))
    (hsetup : ∀ x ∈ setup, x.2.Asks fun _ _ => False) (side : Side) :
    Queues (fun _ _ => False) (Endpoint.start (cells side) (bufferSize side))
      (start env cells bufferSize setup side) [] := by
  induction setup using List.reverseRecOn with
  | nil => exact .nil (.refl _) rfl rfl rfl
  | append_singleton setup x ih =>
    have hbefore := ih fun y hy => hsetup y (List.mem_append_left _ hy)
    have hx := hsetup x (List.mem_append_right _ List.mem_cons_self)
    have hstart : start env cells bufferSize (setup ++ [x]) =
        (start env cells bufferSize setup).step env (.call x.1 x.2) := by
      rw [start, List.map_append]
      exact Network.run_snoc env _ _ _
    rw [hstart]
    by_cases hside : side = x.1
    · subst hside
      have hprocessing : (start env cells bufferSize setup x.1).handler.processingMessage = false :=
        hbefore.same.processing
      obtain ⟨items, hitems⟩ := Queues.call (env x.1) hprocessing hx
      obtain rfl := items_nil hitems
      rw [show (start env cells bufferSize setup).step env (.call x.1 x.2) x.1 =
        (start env cells bufferSize setup x.1).call (env x.1) x.2 from
          Network.step_self env _ (.call x.1 x.2)]
      exact hbefore.append hitems
    · rw [Network.step_of_ne env _ hside]
      exact hbefore

theorem reachable_start (env : Side → Surroundings) (cells : Side → Nat → UInt8)
    (bufferSize : Side → Nat) (setup : List (Side × ApiCall)) :
    Reachable env (start env cells bufferSize setup) := ⟨cells, bufferSize, _, rfl⟩

theorem resting_start (m : Responder σ) (env : Side → Surroundings) (cells : Side → Nat → UInt8)
    (bufferSize : Side → Nat) (setup : List (Side × ApiCall))
    (hsetup : ∀ x ∈ setup, x.2.Asks fun _ _ => False) :
    Resting m (start env cells bufferSize setup) (start env cells bufferSize setup) [] := by
  have hall := setup_queues cells bufferSize env setup hsetup
  have hreached := (reachable_start env cells bufferSize setup).reached
  have hlisten : ∀ side, Listens (capacity (start env cells bufferSize setup) side)
      (start env cells bufferSize setup side) .fresh := by
    intro side
    have hbegin :=
      (Listens.start (cells side) (bufferSize side)).sameLine (hall side).same.toSameLine
    rwa [← hbegin.capacity_eq] at hbegin
  generalize start env cells bufferSize setup = n at hall hreached hlisten ⊢
  have hqueue : ∀ side, (n side).handler.outgoingMessages = [] := fun side => (hall side).queue
  have htrace : ∀ side, (n side).trace = [] := fun side => (hall side).trace
  have hline : ∀ side, toCome n side = [] := by
    intro side
    have heq := output_eq hreached side
    rw [(hall side.peer).output] at heq
    exact (List.append_eq_nil_iff.mp heq.symm).2
  refine ⟨⟨hreached, ⟨(hall .right).same.state, hqueue .right⟩, ⟨rfl, rfl⟩, ?_⟩,
    (hall .left).same.state, ?_, ?_, ?_, fun side => ⟨⟨_, hlisten side,
      Receiver.atBoundary_fresh⟩, hline side⟩⟩
  · rw [htrace]
    rfl
  · rw [hqueue]
    exact fun _ h => absurd h List.not_mem_nil
  · rw [htrace, hqueue]
    rfl
  · rw [htrace]
    rfl

theorem conversation_phase (m : Responder σ) (env : Side → Surroundings)
    (cells : Side → Nat → UInt8) (bufferSize : Side → Nat) (setup : List (Side × ApiCall))
    (steps : List Step) (hsetup : ∀ x ∈ setup, x.2.Asks fun _ _ => False)
    (hm : m.Fits (capacity (start env cells bufferSize setup) .left))
    (hproper : AllProper env m (start env cells bufferSize setup)
      (start env cells bufferSize setup) steps) :
    ∃ done, Phase m (start env cells bufferSize setup)
      (run env m (start env cells bufferSize setup) steps) done := by
  obtain ⟨done, h, _⟩ := phase_run hm steps
    (.resting (resting_start m env cells bufferSize setup hsetup))
    (reachable_start env cells bufferSize setup) hproper
  exact ⟨done, h⟩

/-- One side is set up by its program, the other as it likes. -/
def twoPrograms (left right : List ApiCall) : List (Side × ApiCall) :=
  right.map (Side.right, ·) ++ left.map (Side.left, ·)

theorem asks_twoPrograms {left right : List ApiCall} (hleft : ∀ c ∈ left, c.Asks fun _ _ => False)
    (hright : ∀ c ∈ right, c.Asks fun _ _ => False) :
    ∀ x ∈ twoPrograms left right, x.2.Asks fun _ _ => False := by
  intro x hx
  rcases List.mem_append.mp hx with hx | hx
  · obtain ⟨c, hc, rfl⟩ := List.mem_map.mp hx
    exact hright c hc
  · obtain ⟨c, hc, rfl⟩ := List.mem_map.mp hx
    exact hleft c hc

/-! ## The results -/

/-- What the records say of answers and requests. -/
structure Agrees (m : Responder σ) (n : Network) (requests : List OutgoingQueueItem) : Prop where
  /-- What is handed over are the answers of the requests, in order. -/
  answered : answersOf (n .left).trace <+: m.answers requests
  /-- The requests are handled in order, -/
  heard : heardOf (n .right).trace <+: requests.map OutgoingQueueItem.frame
  /-- each once, and the next not before the answer has been handed over. -/
  turns : (answersOf (n .left).trace).length ≤
      (heardOf (n .right).trace).length ∧
    (heardOf (n .right).trace).length ≤
      (answersOf (n .left).trace).length + 1
  /-- A request leaves the queue when its answer is handed over. -/
  queue : (n .left).handler.outgoingMessages.map (·.id) =
    (requests.drop (answersOf (n .left).trace).length).map (·.id)

theorem answers_prefix (m : Responder σ) (items more : List OutgoingQueueItem) :
    m.answers items <+: m.answers (items ++ more) := Responder.answers_go_append m items more _

theorem Common.length_answered (h : Common m n₀ n done) :
    (answersOf (n .left).trace).length = done.length := by
  rw [h.answered, Responder.length_answers]

theorem Phase.common (h : Phase m n₀ n done) : Common m n₀ n done := by
  cases h with
  | resting h => exact h.toCommon
  | asking h => exact h.toCommon
  | answering h => exact h.toCommon

/-- What has been answered are the first of the requests. -/
theorem Phase.done_prefix (h : Phase m n₀ n done) : done <+: requestsOf (n .left).trace := by
  cases h with
  | resting h => exact h.asked ▸ List.prefix_append _ _
  | asking h => exact h.asked ▸ List.prefix_append _ _
  | answering h => exact h.asked ▸ List.prefix_append _ _

theorem Phase.answered_prefix (h : Phase m n₀ n done) :
    answersOf (n .left).trace <+: m.answers (requestsOf (n .left).trace) := by
  obtain ⟨rest, hrest⟩ := h.done_prefix
  rw [h.common.answered, ← hrest]
  exact answers_prefix m done rest

theorem Awaiting.queue_eq {msg : OutgoingQueueItem} {rest : List OutgoingQueueItem}
    (h : Awaiting m n₀ n done msg rest) :
    (n .left).handler.outgoingMessages.map (·.id) =
      ((requestsOf (n .left).trace).drop done.length).map (·.id) := by
  rw [h.asked, List.drop_left, h.queue]
  rfl

theorem Phase.agrees (h : Phase m n₀ n done) : Agrees m n (requestsOf (n .left).trace) := by
  have hlength := h.common.length_answered
  have htold := h.answered_prefix
  cases h with
  | resting h =>
    refine ⟨htold, ?_, ?_, ?_⟩
    · rw [h.heard, h.asked, List.map_append]
      exact List.prefix_append _ _
    · rw [h.heard, hlength, List.length_map]
      exact ⟨Nat.le_refl _, Nat.le_succ _⟩
    · rw [hlength, h.asked, List.drop_left]
  | asking h =>
    refine ⟨htold, ?_, ?_, ?_⟩
    · rw [h.heard, h.asked, List.map_append]
      exact List.prefix_append _ _
    · rw [h.heard, hlength, List.length_map]
      exact ⟨Nat.le_refl _, Nat.le_succ _⟩
    · rw [hlength]
      exact h.toAwaiting.queue_eq
  | @answering msg rest h =>
    refine ⟨htold, ?_, ?_, ?_⟩
    · rw [h.heard, h.asked]
      exact List.IsPrefix.map _ ⟨rest, List.append_assoc _ _ _⟩
    · rw [h.heard, hlength, List.length_map, List.length_append, List.length_singleton]
      exact ⟨Nat.le_succ _, Nat.le_refl _⟩
    · rw [hlength]
      exact h.toAwaiting.queue_eq

/-- In every conversation whose requests fit and are known, and in which the side that asks is never
late: its answer handlers are given, in order, what the requests are answered that are handled one
after another, and every request is handled once. -/
theorem run_answers (m : Responder σ) (env : Side → Surroundings) (cells : Side → Nat → UInt8)
    (bufferSize : Side → Nat) (setup : List (Side × ApiCall)) (steps : List Step)
    (hsetup : ∀ x ∈ setup, x.2.Asks fun _ _ => False)
    (hm : m.Fits (capacity (start env cells bufferSize setup) .left))
    (hproper : AllProper env m (start env cells bufferSize setup)
      (start env cells bufferSize setup) steps) :
    let n := run env m (start env cells bufferSize setup) steps
    Agrees m n (requestsOf (n .left).trace) := by
  intro n
  obtain ⟨done, h⟩ := conversation_phase m env cells bufferSize setup steps hsetup hm hproper
  exact h.agrees

/-- It counts the frames, and tells the number. -/
def counting : Responder UInt8 :=
  ⟨0, fun count _ => (count + 1, ⟨0x02, noSubcommand, [count]⟩, none)⟩

theorem counting_fits {cap : Nat} (hcap : 26 ≤ cap) : counting.Fits cap := by
  intro count frame
  have hlength : (⟨0x02, noSubcommand, [count]⟩ : HaierMessage).payload.length = 1 := rfl
  obtain ⟨q, hq, hle⟩ := HaierMessage.packet_of_le (hlength.trans_le (by decide)) frame.useCrc
  rw [hlength] at hle
  exact ⟨q, hq, hle.trans (by decide), hle.trans hcap⟩

/-- Clocks that stand still, and no memory to speak of. -/
def still : Side → Surroundings := fun _ => ⟨fun _ => 0, fun _ _ => 0, fun _ _ => 0⟩

/-- A handler for every message is set on the side that answers. -/
def answering : List (Side × ApiCall) := [(.right, .setDefaultMessageHandler (.user 0))]

/-- The beginning with buffers of the default size. -/
def begun : Network := start still (fun _ _ => 0) (fun _ => 251) answering

theorem accepted_begun (type : FrameType) (useCrc : Bool) :
    Accepted begun ⟨type, noSubcommand, []⟩ useCrc := by
  have hlength : (⟨type, noSubcommand, []⟩ : HaierMessage).payload.length = 0 := rfl
  obtain ⟨p, hp, hle⟩ := HaierMessage.packet_of_le (hlength.trans_le (Nat.zero_le _)) useCrc
  rw [hlength] at hle
  have hcapacity : 24 ≤ (begun .right).handler.transport.buffer.capacity := by decide +kernel
  exact ⟨p, hp, hle.trans (by decide), hle.trans hcapacity, HandlerRef.noConfusion⟩

/-- Two requests are queued, and the first is answered in portions. -/
def portions : List Step :=
  [.call (.sendMessage ⟨0x61, noSubcommand, []⟩ true 0 0), .loop fun _ => [],
    .call (.sendMessage ⟨0x70, noSubcommand, []⟩ false 0 0), .deliver .right 4, .serve,
    .deliver .right 100, .serve, .loop fun _ => [], .deliver .left 7, .loop fun _ => [],
    .deliver .left 100, .loop fun _ => []]

theorem proper_portions : AllProper still counting begun begun portions := by
  have hnone : ∀ invocation : Invocation, ∀ c ∈ ([] : List ApiCall), c.Asks (Accepted begun) :=
    fun _ _ h => absurd h List.not_mem_nil
  exact ⟨accepted_begun 0x61 true, ⟨hnone, fun _ => by decide +kernel⟩, accepted_begun 0x70 false,
    trivial, trivial, trivial, trivial, ⟨hnone, fun _ => by decide +kernel⟩, trivial,
    ⟨hnone, fun _ => by decide +kernel⟩, trivial, ⟨hnone, fun _ => by decide +kernel⟩, trivial⟩

theorem asks_answering : ∀ x ∈ answering, x.2.Asks fun _ _ => False := by
  intro x hx
  rw [List.mem_singleton.mp hx]
  trivial

theorem run_answers_portions :
    let n := run still counting begun portions
    Agrees counting n (requestsOf (n .left).trace) :=
  run_answers counting still _ _ answering portions asks_answering
    (counting_fits (by decide +kernel)) proper_portions

/-! ## Progress -/

theorem run_cons (env : Side → Surroundings) (m : Responder σ) (n : Network) (s : Step)
    (steps : List Step) : run env m n (s :: steps) = run env m (step env m n s) steps :=
  List.foldl_cons ..

/-- The bytes of the request arrive, the side that answers is looped, the bytes of the answer
arrive, and the other side is looped. -/
def turnaround (reply : Reply) : List Step :=
  [.deliver .right 255, .serve, .deliver .left 255, .loop reply]

/-- The same with a call of `loop` before it, for the request to be written. -/
def exchange (reply reply' : Reply) : List Step := .loop reply :: turnaround reply'

/-- More requests than `done` have been answered. -/
def Advanced (m : Responder σ) (n₀ n : Network) (done : List OutgoingQueueItem) : Prop :=
  ∃ done', Phase m n₀ n done' ∧ done.length < done'.length

theorem inFlight_deliver (env : Side → Surroundings) (n : Network) (side : Side) {count : Nat}
    (hcount : (n.inFlight side).length ≤ count) :
    (n.step env (.deliver side count)).inFlight side = [] := by
  have hpeer : n.step env (.deliver side count) side.peer = n side.peer :=
    Network.step_of_ne env n side.peer_ne
  rw [Network.inFlight, List.length_drop] at hcount
  rw [Network.inFlight, hpeer, deliver_self env n side count, List.drop_eq_nil_iff]
  show _ ≤ (n side).received.length + ((n side).input ++ _).length
  rw [List.length_append, List.length_take, Network.inFlight, List.length_drop]
  omega

theorem Carrying.inFlight_le {side : Side} {p : Packet} (h : Carrying n₀ n side p) :
    (n.inFlight side).length ≤ p.wire.length := by
  obtain ⟨_, r, _, hexpecting⟩ := h
  have hheld := hexpecting.held_le
  rw [toCome, List.length_append] at hheld
  omega

theorem Asking.inFlight_le {msg : OutgoingQueueItem} {rest : List OutgoingQueueItem}
    (h : Asking m n₀ n done msg rest) : (n.inFlight .right).length ≤ 255 := by
  obtain ⟨p, hpacket, hcarrying⟩ := h.carrying
  obtain ⟨p', hpacket', hlength, _⟩ := (h.asks msg List.mem_cons_self).holds
  obtain rfl := Option.some_inj.mp (hpacket.symm.trans hpacket')
  exact hcarrying.inFlight_le.trans hlength

theorem Answering.inFlight_le {msg : OutgoingQueueItem} {rest : List OutgoingQueueItem}
    (h : Answering m n₀ n done msg rest) (hm : m.Fits (capacity n₀ .left)) :
    (n.inFlight .left).length ≤ 255 := by
  obtain ⟨q, hpacket, hcarrying⟩ := h.carrying
  obtain ⟨q', hpacket', hlength, _⟩ :=
    hm (m.after (done.map OutgoingQueueItem.frame)) msg.frame
  obtain rfl := Option.some_inj.mp (hpacket.symm.trans hpacket')
  exact hcarrying.inFlight_le.trans hlength

/-- What is on its way arrives and is handled. -/
theorem Asking.answer {msg : OutgoingQueueItem} {rest : List OutgoingQueueItem}
    (h : Asking m n₀ n done msg rest) (hm : m.Fits (capacity n₀ .left)) (hn : Reachable env n) :
    Answering m n₀ (run env m n [.deliver .right 255, .serve]) done msg rest := by
  have h₁ := h.deliver (hn.step (.deliver .right 255)).reached
  have hnil : (n.step env (.deliver .right 255)).inFlight .right = [] :=
    inFlight_deliver env n .right h.inFlight_le
  rcases h₁.serve hm ((hn.step _).step _).reached with ⟨hsome, _⟩ | ⟨_, h₂⟩
  · exact absurd hnil hsome
  · exact h₂

theorem Answering.finish {msg : OutgoingQueueItem} {rest : List OutgoingQueueItem}
    {reply : Reply} (h : Answering m n₀ n done msg rest) (hm : m.Fits (capacity n₀ .left))
    (hn : Reachable env n)
    (hproper : Proper env n₀ (step env m n (.deliver .left 255)) (.loop reply)) :
    Advanced m n₀ (run env m n [.deliver .left 255, .loop reply]) done := by
  have h₁ := h.deliver (hn.step (.deliver .left 255)).reached
  have hnil : (n.step env (.deliver .left 255)).inFlight .left = [] :=
    inFlight_deliver env n .left (h.inFlight_le hm)
  rcases h₁.loop (hproper.2 h₁.state) hproper.1 ((hn.step _).step _).reached with
    ⟨hsome, _⟩ | ⟨_, h₂⟩
  · exact absurd hnil hsome
  · refine ⟨done ++ [msg], .resting h₂, ?_⟩
    rw [List.length_append]
    exact Nat.lt_succ_self _

theorem Asking.turnaround {msg : OutgoingQueueItem} {rest : List OutgoingQueueItem}
    {reply : Reply} (h : Asking m n₀ n done msg rest) (hm : m.Fits (capacity n₀ .left))
    (hn : Reachable env n) (hproper : AllProper env m n₀ n (turnaround reply)) :
    Advanced m n₀ (run env m n (turnaround reply)) done := by
  obtain ⟨_, _, _, hlast, _⟩ := hproper
  rw [Conversation.turnaround, run_cons, run_cons]
  exact (h.answer hm hn).finish hm (hn.run [.deliver .right 255, .serve]) hlast

theorem Answering.turnaround {msg : OutgoingQueueItem} {rest : List OutgoingQueueItem}
    {reply : Reply} (h : Answering m n₀ n done msg rest) (hm : m.Fits (capacity n₀ .left))
    (hn : Reachable env n) (hproper : AllProper env m n₀ n (turnaround reply)) :
    Advanced m n₀ (run env m n (turnaround reply)) done := by
  obtain ⟨_, _, _, hlast, _⟩ := hproper
  have h₁ := h.deliver (hn.step (.deliver .right 255)).reached
  rw [Conversation.turnaround, run_cons, run_cons]
  exact (h₁.serve ((hn.step _).step _).reached).finish hm
    (hn.run [.deliver .right 255, .serve]) hlast

/-- One exchange answers a request, whatever is on its way when it starts. -/
theorem phase_exchange (h : Phase m n₀ n done) (hm : m.Fits (capacity n₀ .left))
    (hn : Reachable env n) {reply reply' : Reply}
    (hproper : AllProper env m n₀ n (exchange reply reply'))
    (hready : (n .left).handler.state = .idle → Ready env n)
    (hqueue : (n .left).handler.outgoingMessages ≠ []) :
    Advanced m n₀ (run env m n (exchange reply reply')) done := by
  obtain ⟨hloop, hturn⟩ := hproper
  have hn₁ : Reachable env (step env m n (.loop reply)) := hn.step _
  rw [exchange, run_cons]
  cases h with
  | resting h =>
    obtain ⟨msg, rest, hcons⟩ := List.exists_cons_of_ne_nil hqueue
    exact (h.ask hn₁.reached (hready h.state) hcons).turnaround hm hn₁ hturn
  | asking h => exact (h.loop (hloop.2 h.state) hn₁.reached).turnaround hm hn₁ hturn
  | @answering msg rest h =>
    rcases h.loop (hloop.2 h.state) hloop.1 hn₁.reached with ⟨_, h₁⟩ | ⟨_, h₁⟩
    · exact h₁.turnaround hm hn₁ hturn
    · -- The answer is complete at once, and the rest of the exchange takes nothing back.
      obtain ⟨done', h₂, hdone⟩ := phase_run hm (turnaround reply') (.resting h₁) hn₁ hturn
      refine ⟨done', h₂, ?_⟩
      have hle := hdone.length_le
      rw [List.length_append, List.length_singleton] at hle
      exact hle

theorem allProper_append (s : List Step) : ∀ (steps : List Step) {n : Network},
    AllProper env m n₀ n (steps ++ s) →
      AllProper env m n₀ n steps ∧ AllProper env m n₀ (run env m n steps) s
  | [], _, h => ⟨trivial, h⟩
  | _ :: steps, _, ⟨hproper, hrest⟩ => by
    obtain ⟨hsteps, hs⟩ := allProper_append s steps hrest
    exact ⟨⟨hproper, hsteps⟩, hs⟩

/-- In every conversation, wherever it stands: if a request is in the queue and the pauses of the
line are over, one more exchange answers one more request. -/
theorem exchange_answers (m : Responder σ) (env : Side → Surroundings) (cells : Side → Nat → UInt8)
    (bufferSize : Side → Nat) (setup : List (Side × ApiCall)) (steps : List Step)
    (reply reply' : Reply) (hsetup : ∀ x ∈ setup, x.2.Asks fun _ _ => False)
    (hm : m.Fits (capacity (start env cells bufferSize setup) .left))
    (hproper : AllProper env m (start env cells bufferSize setup)
      (start env cells bufferSize setup) (steps ++ exchange reply reply')) :
    let n := run env m (start env cells bufferSize setup) steps
    let n' := run env m n (exchange reply reply')
    ((n .left).handler.state = .idle → Ready env n) →
      (n .left).handler.outgoingMessages ≠ [] →
        (answersOf (n .left).trace).length < (answersOf (n' .left).trace).length := by
  intro n n' hready hqueue
  obtain ⟨hsteps, hexchange⟩ := allProper_append _ steps hproper
  have hstart := reachable_start env cells bufferSize setup
  obtain ⟨done, h⟩ := conversation_phase m env cells bufferSize setup steps hsetup hm hsteps
  obtain ⟨done', h', hlt⟩ := phase_exchange h hm (hstart.run steps) hexchange hready hqueue
  rw [h.common.length_answered, h'.common.length_answered]
  exact hlt

/-- The first exchange of a conversation. -/
theorem exchange_answers_first :
    let n := run still counting begun [.call (.sendMessage ⟨0x61, noSubcommand, []⟩ true 0 0)]
    let n' := run still counting n (exchange (fun _ => []) fun _ => [])
    (answersOf (n .left).trace).length < (answersOf (n' .left).trace).length := by
  have hnone : ∀ invocation : Invocation, ∀ c ∈ ([] : List ApiCall), c.Asks (Accepted begun) :=
    fun _ _ h => absurd h List.not_mem_nil
  have hready : ∀ n : Network, (0 : TimePoint) ≥ (n .left).handler.cooldownTimePoint →
      (0 : TimePoint) ≥ (n .left).handler.retryTimePoint → Ready still n := fun _ => And.intro
  intro n n'
  exact exchange_answers counting still _ _ answering _ _ _ asks_answering
    (counting_fits (by decide +kernel)) ⟨accepted_begun 0x61 true,
      ⟨hnone, fun _ => by decide +kernel⟩, trivial, trivial, trivial,
      ⟨hnone, fun _ => by decide +kernel⟩, trivial⟩
    (fun _ => hready n (by decide +kernel) (by decide +kernel)) (by decide +kernel)

end Conversation
end HaierProtocol
