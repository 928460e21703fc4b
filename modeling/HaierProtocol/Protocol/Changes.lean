import Mathlib.Logic.Relation
import HaierProtocol.Protocol.Service

/-!
# Changes

Calls and `loop` are made of a few kinds of change that concern the line and the record,
`Change`.  What each of them keeps every run keeps (`run_invariant`), so what is true of the
record at any moment need not look at the loop again.  A change also says which handlers it may
call: `loop` calls those that its tables hold when it starts (`changes_loop`), and calls from
outside call none (`changes_call`).
-/

namespace HaierProtocol

open Relation

/-- The frame that a handler is given. -/
def Event.arrival? : Event → Option Arrival
  | .invoked (.message _ arrival) => some arrival
  | .invoked (.answer _ _ _ arrival) => some arrival
  | _ => none

/-- The handler is the one registered for the type, or the default. -/
def Invocation.Chosen (h : ProtocolHandler) : Invocation → Prop
  | .message handler arrival => handler = h.messageHandler arrival.frame.frame.frameType
  | .answer handler requestType _ _ => handler = h.answerHandler requestType
  | .timeout handler requestType _ => handler = h.timeoutHandler requestType

namespace Endpoint

/-- Nothing is received, taken or written. -/
structure Kept (e e' : Endpoint) : Prop where
  transport : e'.handler.transport = e.handler.transport
  input : e'.input = e.input
  output : e'.output = e.output
  received : e'.received = e.received
  pushed : e'.pushed = e.pushed
  arrivals : e'.arrivals = e.arrivals
  current : e'.current = e.current
  loops : e'.loops = e.loops

/-- Answers are sent while a frame is processed. -/
def Sends (e : Endpoint) : Origin → Prop
  | .request _ => True
  | .answer processed => ∃ a, processed = some a ∧ e.current = some a

/-- Handlers are called only with `P`. -/
inductive Change (env : Surroundings) (P : Invocation → Prop) (e : Endpoint) : Endpoint → Prop where
  | received : Change env P e (e.receive env)
  | kept {e' : Endpoint} (h : Kept e e') (htrace : e'.trace = e.trace) : Change env P e e'
  | emitted {e' : Endpoint} (event : Event) (h : Kept e e') (htrace : e'.trace = e.trace ++ [event])
      (hwrite : event.write? = none) (harrival : event.arrival? = none)
      (hcalled : ∀ invocation, event = .invoked invocation → P invocation) : Change env P e e'
  | wrote {origin : Origin} (message : HaierMessage) (useCrc : Bool) (horigin : e.Sends origin) :
      Change env P e (e.wrote (e.writeOf env origin message useCrc))
  /-- A handler is given a frame of the queue; those before it are dropped. -/
  | taken {transport : TransportLevelHandler} {before rest : List Arrival} {a : Arrival}
      {invocation : Invocation} {current : Option Arrival}
      (harrivals : e.arrivals = before ++ a :: rest) (hline : Line (e.withFrames transport rest))
      (hinvocation : (Event.invoked invocation).arrival? = some a)
      (hcurrent : current = e.current ∨
        current = some a ∧ ∃ handler, invocation = .message handler a)
      (hcalled : P invocation) :
      Change env P e ({ e.withFrames transport rest with current }.emit (.invoked invocation))
  | finished : Change env P e { e with current := none }

/-- Some changes, one after another. -/
abbrev Changes (env : Surroundings) (P : Invocation → Prop) : Endpoint → Endpoint → Prop :=
  ReflTransGen (Change env P)

variable {env : Surroundings} {P : Invocation → Prop} {reply : Reply} {e e' e'' : Endpoint}

namespace Changes

theorem kept (h : Changes env P e e') (hkept : Kept e' e'') (htrace : e''.trace = e'.trace) :
    Changes env P e e'' :=
  h.tail (.kept hkept htrace)

theorem emitted (h : Changes env P e e') (event : Event) (hkept : Kept e' e'')
    (htrace : e''.trace = e'.trace ++ [event]) (hwrite : event.write? = none)
    (harrival : event.arrival? = none)
    (hcalled : ∀ invocation, event = .invoked invocation → P invocation) : Changes env P e e'' :=
  h.tail (.emitted event hkept htrace hwrite harrival hcalled)

theorem access (h : Changes env P e e') (id : Nat) : Changes env P e (e'.access id) :=
  h.emitted (.accessed id _) ⟨rfl, rfl, rfl, rfl, rfl, rfl, rfl, rfl⟩ rfl rfl rfl
      (fun _ => Event.noConfusion)

theorem popOutgoing (h : Changes env P e e') : Changes env P e e'.popOutgoing := by
  rw [Endpoint.popOutgoing]
  split
  · exact h.emitted .emptyQueue ⟨rfl, rfl, rfl, rfl, rfl, rfl, rfl, rfl⟩ rfl rfl rfl
      (fun _ => Event.noConfusion)
  · exact h.emitted (.removed _) ⟨rfl, rfl, rfl, rfl, rfl, rfl, rfl, rfl⟩ rfl rfl rfl
      (fun _ => Event.noConfusion)

theorem setRetryTimePoint (h : Changes env P e e') (now : TimePoint) :
    Changes env P e (e'.setRetryTimePoint now) :=
  h.kept ⟨rfl, rfl, rfl, rfl, rfl, rfl, rfl, rfl⟩ rfl

theorem setState (h : Changes env P e e') (state : ProtocolState) :
    Changes env P e (e'.setState state) :=
  h.emitted (.entered state) ⟨rfl, rfl, rfl, rfl, rfl, rfl, rfl, rfl⟩ rfl rfl rfl
      (fun _ => Event.noConfusion)

/-- Handlers send answers only while a frame is processed. -/
theorem calls (h : Changes env P e e')
    (hcurrent : e'.handler.processingMessage = true → ∃ a, e'.current = some a)
    (apiCalls : List ApiCall) : Changes env P e (e'.calls env apiCalls) := by
  have hall := calls_induction env (motive := fun e'' => Undisturbed e' e'' ∧ Changes env P e e'')
    ?_ apiCalls ⟨.refl e', h⟩
  · exact hall.2
  · rintro e₁ e₂ ⟨hsame, h₁⟩ hcalled
    refine ⟨hsame.trans hcalled.undisturbed, ?_⟩
    cases hcalled with
    | queued item =>
      exact h₁.emitted (.queued item) ⟨rfl, rfl, rfl, rfl, rfl, rfl, rfl, rfl⟩ rfl rfl rfl
        (fun _ => Event.noConfusion)
    | answered answer useCrc hprocessing =>
      obtain ⟨a, ha⟩ := hcurrent (hsame.processing ▸ hprocessing)
      have ha₁ : e₁.current = some a := hsame.current.trans ha
      have horigin : e₁.Sends (.answer e₁.current) := ⟨a, ha₁, ha₁⟩
      rw [sendAnswer_eq env e₁ answer useCrc hprocessing]
      exact kept (h₁.tail (.wrote answer useCrc horigin))
        ⟨rfl, rfl, rfl, rfl, rfl, rfl, rfl, rfl⟩ rfl
    | set handler hqueue hrest =>
      exact h₁.kept ⟨hrest.transport, rfl, rfl, rfl, rfl, rfl, rfl, rfl⟩ rfl

theorem sendHead (h : Changes env P e e') (msg : OutgoingQueueItem) (now : TimePoint) :
    Changes env P e (e'.sendHead env msg now) := by
  have hwrote : Changes env P e ((e'.access msg.id).wrote
      ((e'.access msg.id).writeOf env (.request msg.id) msg.message msg.useCrc)) :=
    (h.access msg.id).tail (.wrote msg.message msg.useCrc trivial)
  have hlast : ∀ {e₁ : Endpoint}, Changes env P e e₁ → Changes env P e
      { e₁.access msg.id with handler := (e₁.access msg.id).handler.decrementRetries msg.id } :=
    fun h₁ => (h₁.access msg.id).kept ⟨rfl, rfl, rfl, rfl, rfl, rfl, rfl, rfl⟩ rfl
  rw [Endpoint.sendHead, write_eq]
  dsimp only
  apply hlast
  split
  · have hsent := hwrote.access msg.id
    split
    · apply setRetryTimePoint
      apply popOutgoing
      exact hsent.kept ⟨rfl, rfl, rfl, rfl, rfl, rfl, rfl, rfl⟩ rfl
    · exact hsent.emitted (.entered .waitingForAnswer) ⟨rfl, rfl, rfl, rfl, rfl, rfl, rfl, rfl⟩
        rfl rfl rfl (fun _ => Event.noConfusion)
  · exact hwrote

theorem sendNext (h : Changes env P e e') (now : TimePoint) :
    Changes env P e (e'.sendNext env now) := by
  rw [Endpoint.sendNext]
  split
  · exact h
  · rename_i msg _ _
    split
    · dsimp only
      split
      · exact (h.access msg.id).sendHead msg now
      · exact (h.access msg.id).popOutgoing.setRetryTimePoint now
    · exact h

/-- A handler that sends no answers. -/
theorem invoke_timeout (h : Changes env P e e') (hprocessing : e'.handler.processingMessage = false)
    {handler : HandlerRef} {requestType : FrameType} {request : Nat}
    (hcalled : P (.timeout handler requestType request)) :
    Changes env P e (e'.invoke env reply (.timeout handler requestType request)) := by
  have hemit : Changes env P e (e'.emit (.invoked (.timeout handler requestType request))) := by
    refine h.emitted (.invoked (.timeout handler requestType request))
      ⟨rfl, rfl, rfl, rfl, rfl, rfl, rfl, rfl⟩ rfl rfl rfl ?_
    rintro _ ⟨⟩
    exact hcalled
  exact hemit.calls (fun htrue => absurd (hprocessing.symm.trans htrue) Bool.false_ne_true) _

theorem answerTimeout (h : Changes env P e e') (hprocessing : e'.handler.processingMessage = false)
    (hcalled : ∀ invocation, invocation.Chosen e'.handler → P invocation) (now : TimePoint) :
    Changes env P e (e'.answerTimeout env reply now) := by
  rw [Endpoint.answerTimeout]
  split
  · exact h.emitted .emptyQueue ⟨rfl, rfl, rfl, rfl, rfl, rfl, rfl, rfl⟩ rfl rfl rfl
      (fun _ => Event.noConfusion)
  · rename_i msg rest hqueue
    dsimp only
    apply setState
    split
    · apply invoke_timeout
      · exact (h.access msg.id).popOutgoing.setRetryTimePoint now
      · exact (((SameLine.access e' msg.id).popOutgoing).setRetryTimePoint now).processing.trans
          hprocessing
      · apply hcalled
        rw [popOutgoing_cons msg rest (show (e'.access msg.id).handler.outgoingMessages = _ from
          hqueue)]
        rfl
    · exact h.access msg.id

theorem answerReceived (h : Changes env P e e') (hline : Line e')
    (hprocessing : e'.handler.processingMessage = false)
    (hcalled : ∀ invocation, invocation.Chosen e'.handler → P invocation) {a : Arrival}
    {rest : List Arrival} (harrivals : e'.arrivals = a :: rest) (now : TimePoint) :
    Changes env P e (e'.answerReceived env reply now) := by
  obtain ⟨transport, hpop, hline'⟩ := hline.popFrame_cons harrivals
  rw [Endpoint.answerReceived, hpop]
  dsimp only
  apply setState
  apply setRetryTimePoint
  apply popOutgoing
  have htaken : ∀ requestType request, Changes env P e ((e'.withFrames transport rest).emit
      (.invoked (.answer (e'.handler.answerHandler requestType) requestType request a))) :=
    fun requestType request =>
      h.tail (.taken (show e'.arrivals = [] ++ a :: rest from harrivals) hline' rfl (.inl rfl)
        (hcalled _ rfl))
  exact (htaken _ _).calls
    (fun htrue => absurd (hprocessing.symm.trans htrue) Bool.false_ne_true) _

theorem processMessage (h : Changes env P e e')
    (hcalled : ∀ invocation, invocation.Chosen e'.handler → P invocation)
    {transport : TransportLevelHandler} {before : List Arrival} {a : Arrival}
    (harrivals : e'.arrivals = before ++ [a])
    (hline : Line (e'.withFrames transport [])) :
    Changes env P e ((e'.withFrames transport []).processMessage env reply a) := by
  -- The flags are set, and the frame is taken.
  let e₁ : Endpoint := { e' with handler := { e'.handler with
    incomingMessageCrcStatus := a.frame.frame.useCrc
    processingMessage := true
    answerSent := false } }
  have h₁ : Changes env P e e₁ := h.kept ⟨rfl, rfl, rfl, rfl, rfl, rfl, rfl, rfl⟩ rfl
  have hline₁ : Line (e₁.withFrames transport []) := hline.of_eq rfl rfl rfl rfl rfl rfl
  let handler := e₁.handler.messageHandler a.frame.frame.frameType
  let e₂ : Endpoint :=
    { e₁.withFrames transport [] with current := some a }.emit (.invoked (.message handler a))
  have h₂ : Changes env P e e₂ := h₁.tail
    (.taken harrivals hline₁ rfl (.inr ⟨rfl, handler, rfl⟩) (hcalled _ rfl))
  have h₃ := h₂.calls (fun _ => ⟨a, rfl⟩)
    (if handler = .builtIn then [] else reply (.message handler a))
  exact kept (h₃.tail .finished) ⟨rfl, rfl, rfl, rfl, rfl, rfl, rfl, rfl⟩ rfl

theorem handleIncoming (h : Changes env P e e') (hline : Line e')
    (hcalled : ∀ invocation, invocation.Chosen e'.handler → P invocation) :
    Changes env P e (e'.handleIncoming env reply) := by
  rcases hline.handleIncoming_cases env reply with
    ⟨_, heq⟩ | ⟨before, a, transport, harrivals, hline', heq⟩
  · rw [heq]
    exact h
  · rw [heq]
    exact h.processMessage hcalled harrivals hline'

theorem turn (h : Changes env P e e') (hline : Line e')
    (hprocessing : e'.handler.processingMessage = false)
    (hcalled : ∀ invocation, invocation.Chosen e'.handler → P invocation) (now : TimePoint) :
    Changes env P e (e'.turn env reply now) := by
  rw [Endpoint.turn]
  split
  · exact (h.handleIncoming hline hcalled).sendNext now
  · split
    · exact h.answerTimeout hprocessing hcalled now
    · split
      · rename_i hany
        rw [← hline.length_arrivals] at hany
        obtain ⟨a, rest, harrivals⟩ := List.exists_cons_of_length_pos hany
        exact h.answerReceived hline hprocessing hcalled harrivals now
      · exact h

end Changes

/-- Calls are made of changes and call no handlers. -/
theorem changes_call (env : Surroundings) (hprocessing : e.handler.processingMessage = false)
    (c : ApiCall) : Changes env (fun _ => False) e (e.call env c) :=
  Changes.calls .refl (fun htrue => absurd (hprocessing.symm.trans htrue) Bool.false_ne_true) [c]

/-- So is `loop`, and it finds the tables it starts with. -/
theorem changes_loop (env : Surroundings) (reply : Reply) (hline : Line e)
    (hprocessing : e.handler.processingMessage = false) :
    Changes env (Invocation.Chosen e.handler) e (e.loop env reply) := by
  have hlook : Changes env (Invocation.Chosen e.handler) e ((e.receive env).look env) :=
    Changes.emitted (.single .received) (.began (env.clock (e.receive env).ticks))
      ⟨rfl, rfl, rfl, rfl, rfl, rfl, rfl, rfl⟩ rfl rfl rfl (fun _ => Event.noConfusion)
  have hline' : Line ((e.receive env).look env) :=
    (hline.receive env).of_eq rfl rfl rfl rfl rfl rfl
  exact hlook.turn hline' hprocessing (fun _ hchosen => hchosen) _

/-- Events are recorded, and handlers called only with `P`. -/
def Adds (P : Invocation → Prop) (e e' : Endpoint) : Prop :=
  ∃ more, e'.trace = e.trace ++ more ∧ ∀ invocation, .invoked invocation ∈ more → P invocation

theorem Adds.of_eq (htrace : e'.trace = e.trace) : Adds P e e' :=
  ⟨[], by rw [htrace, List.append_nil], fun _ h => absurd h List.not_mem_nil⟩

theorem Adds.of_snoc {event : Event} (htrace : e'.trace = e.trace ++ [event])
    (hcalled : ∀ invocation, event = .invoked invocation → P invocation) : Adds P e e' :=
  ⟨[event], htrace, fun invocation h => hcalled invocation (List.mem_singleton.mp h).symm⟩

theorem Adds.trans (h : Adds P e e') (h' : Adds P e' e'') : Adds P e e'' := by
  obtain ⟨more, htrace, hmore⟩ := h
  obtain ⟨more', htrace', hmore'⟩ := h'
  refine ⟨more ++ more', by rw [htrace', htrace, List.append_assoc], ?_⟩
  intro invocation hmem
  rcases List.mem_append.mp hmem with hmem | hmem
  · exact hmore invocation hmem
  · exact hmore' invocation hmem

theorem Change.adds (h : Change env P e e') : Adds P e e' := by
  cases h with
  | received => exact .of_eq rfl
  | kept _ htrace => exact .of_eq htrace
  | emitted event _ htrace _ _ hcalled => exact .of_snoc htrace hcalled
  | wrote => exact .of_snoc rfl (fun _ => Event.noConfusion)
  | taken _ _ _ _ hcalled =>
    refine .of_snoc rfl ?_
    rintro _ ⟨⟩
    exact hcalled
  | finished => exact .of_eq rfl

theorem Changes.adds (h : Changes env P e e') : Adds P e e' :=
  ReflTransGen.rec (.of_eq rfl) (fun _ hc hadds => hadds.trans hc.adds) h

theorem run_snoc (env : Surroundings) (e : Endpoint) (steps : List Step) (s : Step) :
    e.run env (steps ++ [s]) = (e.run env steps).step env s := List.foldl_append ..

/-- What every change and every arrival keeps, every run keeps. -/
theorem run_invariant {I : Endpoint → Prop} {cells : Nat → UInt8} {bufferSize : Nat}
    (hstart : I (.start cells bufferSize))
    (harrive : ∀ e bytes, I e → I { e with input := e.input ++ bytes })
    (hchange : ∀ P e e', I e → Change env P e e' → I e') (steps : List Step) :
      I ((start cells bufferSize).run env steps) := by
  induction steps using List.reverseRecOn with
  | nil => exact hstart
  | append_singleton steps s ih =>
    obtain ⟨d, hserves⟩ := Service.serves_run cells bufferSize env steps
    have hall : ∀ {P} {e e' : Endpoint}, Changes env P e e' → I e → I e' :=
      fun hchanges hi => ReflTransGen.rec hi (fun _ hc hi' => hchange _ _ _ hi' hc) hchanges
    rw [run_snoc]
    cases s with
    | arrive bytes => exact harrive _ bytes ih
    | call c => exact hall (changes_call env hserves.processing c) ih
    | loop reply => exact hall (changes_loop env reply hserves.line hserves.processing) ih

end Endpoint
end HaierProtocol
