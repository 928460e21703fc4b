import HaierProtocol.Protocol.Network
import HaierProtocol.Protocol.Turns

/-!
# Conversations

One side of a network asks, and the other one answers.  A `Responder` is what the handlers of the
side that answers amount to: a state, and for every frame an answer and the next state.  In a
conversation the side that asks is called and looped at will, the other side is looped, and bytes
arrive in portions of any size, in any order.

What is on its way tells three phases apart: nothing (`Resting`), a request (`Asking`) or its answer
(`Answering`).
-/

namespace HaierProtocol

open Endpoint ProtocolHandler

/-- The frame in which the item is sent. -/
def OutgoingQueueItem.frame (item : OutgoingQueueItem) : HaierFrame :=
  ((item.message.packet item.useCrc).map Packet.frame).getD .empty

/-- What a handler is given of a request. -/
structure Presents (frame : HaierFrame) (message : HaierMessage) (useCrc : Bool) : Prop where
  frameType : frame.frameType = message.frameType
  useCrc : frame.useCrc = useCrc
  dataSize : frame.dataSize.toNat = message.payload.length
  dataByte : ∀ i, frame.dataByte i = message.payload.getD i 0

theorem OutgoingQueueItem.presents {item : OutgoingQueueItem}
    (h : item.message.payload.length ≤ 233) : Presents item.frame item.message item.useCrc := by
  have hframe : item.frame =
      Packet.frame ⟨item.message.frameType, item.message.payload, item.useCrc, h⟩ := by
    rw [OutgoingQueueItem.frame, HaierMessage.packet, dif_pos h]
    rfl
  rw [hframe]
  refine ⟨rfl, rfl, ?_, fun i => ?_⟩
  · exact UInt8.toNat_ofNat_of_lt' (h.trans_lt (by decide))
  · have hdata : (if item.message.payload = [] then none else some item.message.payload).getD [] =
        item.message.payload := by
      split
      · next hnil => exact hnil.symm
      · rfl
    exact congrArg (·.getD i 0) hdata

/-- The frame of an answer, which has a CRC where the request has one, unless the handler says. -/
def answerFrame (item : OutgoingQueueItem) (x : HaierMessage × Option Bool) : HaierFrame :=
  ((x.1.packet (x.2.getD item.useCrc)).map Packet.frame).getD .empty

structure Responder (σ : Type) where
  initial : σ
  /-- The next state, and the arguments of `send_answer`. -/
  handle : σ → HaierFrame → σ × HaierMessage × Option Bool

namespace Responder

variable {σ : Type}

/-- The state after some frames. -/
def after (m : Responder σ) (frames : List HaierFrame) : σ :=
  frames.foldl (fun s frame => (m.handle s frame).1) m.initial

/-- The packet in which the answer is sent. -/
def packet (m : Responder σ) (s : σ) (frame : HaierFrame) : Option Packet :=
  let (answer, useCrc) := (m.handle s frame).2
  answer.packet (useCrc.getD frame.useCrc)

def answer (m : Responder σ) (s : σ) (frame : HaierFrame) : HaierFrame :=
  ((m.packet s frame).map Packet.frame).getD .empty

/-- What requests are answered that are handled one after another. -/
def answers (m : Responder σ) : List OutgoingQueueItem → List (Nat × HaierFrame) :=
  let rec go (s : σ) : List OutgoingQueueItem → List (Nat × HaierFrame)
    | [] => []
    | item :: rest => (item.id, m.answer s item.frame) :: go (m.handle s item.frame).1 rest
  go m.initial

/-- What the handlers do when the endpoint's `loop` is called now. -/
def reply (m : Responder σ) (e : Endpoint) : Reply
  | .message _ arrival =>
    let (answer, useCrc) := (m.handle (m.after (heardOf e.trace)) arrival.frame.frame).2
    [.sendAnswer answer useCrc]
  | _ => []

/-- All answers fit the line and a buffer. -/
def Fits (m : Responder σ) (capacity : Nat) : Prop :=
  ∀ s frame, ∃ q, m.packet s frame = some q ∧ q.wire.length ≤ 255 ∧ q.wire.length ≤ capacity

theorem answers_go_snoc (m : Responder σ) (msg : OutgoingQueueItem) :
    ∀ (items : List OutgoingQueueItem) (s : σ),
      answers.go m s (items ++ [msg]) = answers.go m s items ++ [(msg.id, m.answer
        ((items.map OutgoingQueueItem.frame).foldl (fun s frame => (m.handle s frame).1) s)
          msg.frame)]
  | [], _ => rfl
  | item :: items, s => congrArg (_ :: ·) (answers_go_snoc m msg items (m.handle s item.frame).1)

theorem answers_snoc (m : Responder σ) (items : List OutgoingQueueItem) (msg : OutgoingQueueItem) :
    m.answers (items ++ [msg]) =
      m.answers items ++ [(msg.id, m.answer (m.after (items.map OutgoingQueueItem.frame))
        msg.frame)] := answers_go_snoc m msg items m.initial

theorem answers_go_append (m : Responder σ) :
    ∀ (items more : List OutgoingQueueItem) (s : σ),
      answers.go m s items <+: answers.go m s (items ++ more)
  | [], _, _ => List.nil_prefix
  | item :: items, more, s =>
    (List.prefix_cons_inj _).mpr (answers_go_append m items more (m.handle s item.frame).1)

theorem length_answers (m : Responder σ) (items : List OutgoingQueueItem) :
    (m.answers items).length = items.length := by
  have hgo : ∀ s, (answers.go m s items).length = items.length := by
    induction items with
    | nil => exact fun _ => rfl
    | cons item items ih => exact fun s => congrArg (· + 1) (ih (m.handle s item.frame).1)
  exact hgo m.initial

end Responder

/-! ## Steps -/

namespace Conversation

inductive Step where
  | call (apiCall : ApiCall)
  | loop (reply : Reply)
  | serve
  | deliver (side : Side) (count : Nat)

variable {σ : Type}

/-- What the step is in the network.  The side that asks is the left one. -/
def Step.network (m : Responder σ) (n : Network) : Step → Network.Step
  | .call apiCall => .call .left apiCall
  | .loop reply => .loop .left reply
  | .serve => .loop .right (m.reply (n .right))
  | .deliver side count => .deliver side count

def step (env : Side → Surroundings) (m : Responder σ) (n : Network) (s : Step) : Network :=
  n.step env (s.network m n)

def run (env : Side → Surroundings) (m : Responder σ) (n : Network) (steps : List Step) : Network :=
  steps.foldl (step env m) n

/-- Before anything is sent, both sides are set up. -/
def start (env : Side → Surroundings) (cells : Side → Nat → UInt8) (bufferSize : Side → Nat)
    (setup : List (Side × ApiCall)) : Network :=
  (Network.start cells bufferSize).run env (setup.map fun x => .call x.1 x.2)

/-- The side that answers has room for the request and a handler of its own for it. -/
def Accepted (n₀ : Network) (message : HaierMessage) (useCrc : Bool) : Prop :=
  ∃ p, message.packet useCrc = some p ∧ p.wire.length ≤ 255 ∧
    p.wire.length ≤ (n₀ .right).handler.transport.buffer.capacity ∧
    (n₀ .right).handler.messageHandler message.frameType ≠ .builtIn

/-- Only such requests are made, and `loop` is not called too late for an answer. -/
def Proper (env : Side → Surroundings) (n₀ n : Network) : Step → Prop
  | .call apiCall => apiCall.Asks (Accepted n₀)
  | .loop reply => (∀ invocation, ∀ c ∈ reply invocation, c.Asks (Accepted n₀)) ∧
    ((n .left).handler.state = .waitingForAnswer →
      (env .left).clock (n .left).ticks ≤ (n .left).handler.answerTimePoint)
  | _ => True

/-- Every step is proper where it is taken. -/
def AllProper (env : Side → Surroundings) (m : Responder σ) (n₀ : Network) :
    Network → List Step → Prop
  | _, [] => True
  | n, s :: rest => Proper env n₀ n s ∧ AllProper env m n₀ (step env m n s) rest

/-! ## What is to come -/

/-- The bytes that the other side has written and this side has not read. -/
def toCome (n : Network) (side : Side) : List UInt8 := (n side).input ++ n.inFlight side

/-- What follows from how the network was reached, whatever was said. -/
structure Reached (n : Network) : Prop where
  served : ∀ side, ∃ d, Service.Serves (n side) d
  carried : Network.Carried n

theorem reached_run (cells : Side → Nat → UInt8) (bufferSize : Side → Nat)
    (env : Side → Surroundings) (steps : List Network.Step) :
    Reached ((Network.start cells bufferSize).run env steps) :=
  ⟨Network.served_run cells bufferSize env steps, Network.carried_run cells bufferSize env steps⟩

variable {env : Side → Surroundings} {m : Responder σ} {n₀ n n' : Network} {side : Side}

theorem output_eq (h : Reached n) (side : Side) :
    (n side.peer).output = (n side).received ++ toCome n side := by
  obtain ⟨more, hmore⟩ := h.carried side
  rw [toCome, Network.inFlight, ← List.length_append, ← hmore, List.drop_left, List.append_assoc]

/-- Bytes that were written join the others, bytes that were read have left. -/
theorem toCome_eq (h : Reached n) (h' : Reached n') (before bytes : List UInt8) {after : List UInt8}
    (houtput : (n' side.peer).output = (n side.peer).output ++ bytes)
    (hreceived : (n' side).received = (n side).received ++ before)
    (hline : toCome n side = before ++ after) : toCome n' side = after ++ bytes := by
  have heq := output_eq h' side
  rw [houtput, output_eq h side, hline, hreceived, List.append_assoc, List.append_assoc,
    List.append_assoc] at heq
  exact (List.append_cancel_left (List.append_cancel_left heq)).symm

theorem toCome_same (h : Reached n) (h' : Reached n')
    (houtput : (n' side.peer).output = (n side.peer).output)
    (hreceived : (n' side).received = (n side).received) : toCome n' side = toCome n side := by
  have heq := toCome_eq h h' [] [] (by rw [houtput, List.append_nil])
    (by rw [hreceived, List.append_nil]) rfl
  exact heq.trans (List.append_nil _)

theorem deliver_self (env : Side → Surroundings) (n : Network) (side : Side) (count : Nat) :
    n.step env (.deliver side count) side =
      { n side with input := (n side).input ++ (n.inFlight side).take count } :=
  Network.step_self env n (.deliver side count)

theorem loop_self (env : Side → Surroundings) (n : Network) (side : Side) (reply : Reply) :
    n.step env (.loop side reply) side = (n side).loop (env side) reply :=
  Network.step_self env n (.loop side reply)

/-- What a call of `loop` leaves to come. -/
theorem toCome_loop (h : Reached n) {reply : Reply}
    (h' : Reached (n.step env (.loop side reply))) {bytes : List UInt8}
    (hinput : (n.step env (.loop side reply) side).input = [])
    (houtput : (n.step env (.loop side reply) side).output = (n side).output ++ bytes) :
    toCome (n.step env (.loop side reply)) side = n.inFlight side ∧
      toCome (n.step env (.loop side reply)) side.peer = toCome n side.peer ++ bytes := by
  have hpeer : n.step env (.loop side reply) side.peer = n side.peer :=
    Network.step_of_ne env n side.peer_ne
  obtain ⟨d, hd⟩ := h.served side
  have hown := loop_self env n side reply
  have hgrows : Network.Grows (n side) (n.step env (.loop side reply) side) :=
    hown ▸ .changes (changes_loop (env side) reply hd.line hd.processing)
  have hdelivered := hgrows.delivered
  rw [hinput, List.append_nil] at hdelivered
  constructor
  · have heq := toCome_eq h h' (n side).input [] (by rw [hpeer, List.append_nil]) hdelivered rfl
    rw [heq, List.append_nil]
  · refine toCome_eq h h' [] bytes ?_ (by rw [hpeer, List.append_nil]) rfl
    rw [side.peer_peer]
    exact houtput

theorem toCome_deliver (h : Reached n) {count : Nat}
    (h' : Reached (n.step env (.deliver side count))) (other : Side) :
    toCome (n.step env (.deliver side count)) other = toCome n other := by
  have hsame : ∀ s, (n.step env (.deliver side count) s).output = (n s).output ∧
      (n.step env (.deliver side count) s).received = (n s).received := by
    intro s
    by_cases hs : s = side
    · subst hs
      rw [deliver_self env n s count]
      exact ⟨rfl, rfl⟩
    · rw [Network.step_of_ne env n hs]
      exact ⟨rfl, rfl⟩
  exact toCome_same h h' (hsame other.peer).1 (hsame other).2

end Conversation
end HaierProtocol
