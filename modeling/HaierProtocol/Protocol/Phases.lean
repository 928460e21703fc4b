import HaierProtocol.Protocol.Conversation

/-!
# The phases of a conversation

What every step does to the phases.  Asking leads from `Resting` to `Asking`, the last byte of the
request to `Answering`, and the last byte of the answer back to `Resting`, with one request more
that is done.  All other steps keep the phase.
-/

namespace HaierProtocol

open Endpoint ProtocolHandler

namespace Conversation

variable {σ : Type} {env : Side → Surroundings} {m : Responder σ} {n₀ n n' : Network} {side : Side}
  {done rest : List OutgoingQueueItem} {msg : OutgoingQueueItem} {reply : Reply} {count : Nat}

def capacity (n₀ : Network) (side : Side) : Nat :=
  (n₀ side).handler.transport.buffer.capacity

/-- Nothing is on its way to the side, and it has handled what it got. -/
structure Still (n₀ n : Network) (side : Side) : Prop where
  listens : ∃ r, Listens (capacity n₀ side) (n side) r ∧ r.AtBoundary
  line : toCome n side = []

/-- The packet is on its way to the side. -/
def Carrying (n₀ n : Network) (side : Side) (p : Packet) : Prop :=
  p.wire.length ≤ capacity n₀ side ∧
    ∃ r, Listens (capacity n₀ side) (n side) r ∧ Expecting p (toCome n side) r

/-- What is true in all phases when the requests `done` have been answered. -/
structure Common (m : Responder σ) (n₀ n : Network) (done : List OutgoingQueueItem) : Prop where
  reached : Reached n
  duty : OnDuty (n .right)
  tables : SameTables (n₀ .right) (n .right)
  answered : answersOf (n .left).trace = m.answers done

structure Resting (m : Responder σ) (n₀ n : Network) (done : List OutgoingQueueItem) : Prop
    extends Common m n₀ n done where
  state : (n .left).handler.state = .idle
  asks : ∀ item ∈ (n .left).handler.outgoingMessages, item.Asks (Accepted n₀)
  asked : requestsOf (n .left).trace = done ++ (n .left).handler.outgoingMessages
  heard : heardOf (n .right).trace = done.map OutgoingQueueItem.frame
  still : ∀ side, Still n₀ n side

/-- The side that asks has written `msg`. -/
structure Awaiting (m : Responder σ) (n₀ n : Network) (done : List OutgoingQueueItem)
    (msg : OutgoingQueueItem) (rest : List OutgoingQueueItem) : Prop
    extends Common m n₀ n done where
  state : (n .left).handler.state = .waitingForAnswer
  queue : (n .left).handler.outgoingMessages = msg.retried :: rest
  asks : ∀ item ∈ msg :: rest, item.Asks (Accepted n₀)
  asked : requestsOf (n .left).trace = done ++ msg :: rest

structure Asking (m : Responder σ) (n₀ n : Network) (done : List OutgoingQueueItem)
    (msg : OutgoingQueueItem) (rest : List OutgoingQueueItem) : Prop
    extends Awaiting m n₀ n done msg rest where
  heard : heardOf (n .right).trace = done.map OutgoingQueueItem.frame
  still : Still n₀ n .left
  carrying : ∃ p, msg.message.packet msg.useCrc = some p ∧ Carrying n₀ n .right p

structure Answering (m : Responder σ) (n₀ n : Network) (done : List OutgoingQueueItem)
    (msg : OutgoingQueueItem) (rest : List OutgoingQueueItem) : Prop
    extends Awaiting m n₀ n done msg rest where
  heard : heardOf (n .right).trace = (done ++ [msg]).map OutgoingQueueItem.frame
  still : Still n₀ n .right
  carrying : ∃ q, m.packet (m.after (done.map OutgoingQueueItem.frame)) msg.frame = some q ∧
    Carrying n₀ n .left q

/-! ## One side -/

theorem Still.input_nil (h : Still n₀ n side) : (n side).input = [] :=
  (List.append_eq_nil_iff.mp h.line).1

theorem Still.inFlight_nil (h : Still n₀ n side) : n.inFlight side = [] :=
  (List.append_eq_nil_iff.mp h.line).2

theorem Still.arrivals_receive (h : Still n₀ n side) (env : Surroundings) :
    Line ((n side).receive env) ∧ ((n side).receive env).arrivals = [] := by
  obtain ⟨r, hlisten, hboundary⟩ := h.listens
  have hreceive := (hlisten.receive_nothing hboundary h.input_nil env).2
  exact ⟨hreceive.line, hreceive.arrivals⟩

/-- A side that has nothing to read stays so, whatever it writes. -/
theorem Still.loop (h : Still n₀ n side) (hn : Reached n)
    (h' : Reached (n.step env (.loop side reply))) {bytes : List UInt8}
    (hsame : SameLine ((n side).receive (env side)) ((n side).loop (env side) reply))
    (houtput : ((n side).loop (env side) reply).output = (n side).output ++ bytes) :
    Still n₀ (n.step env (.loop side reply)) side ∧
      toCome (n.step env (.loop side reply)) side.peer = toCome n side.peer ++ bytes := by
  obtain ⟨r, hlisten, hboundary⟩ := h.listens
  obtain ⟨hinput, hreceive⟩ := hlisten.receive_nothing hboundary h.input_nil (env side)
  have hown := loop_self env n side reply
  obtain ⟨hline, hpeer⟩ := toCome_loop hn h' (hown ▸ hsame.input.trans hinput) (hown ▸ houtput)
  exact ⟨⟨⟨r, hown ▸ hreceive.sameLine hsame, hboundary⟩, hline.trans h.inFlight_nil⟩, hpeer⟩

/-- What a step of the other side leaves alone. -/
theorem Still.of_eq (h : Still n₀ n side) (hside : n' side = n side)
    (hline : toCome n' side = toCome n side) : Still n₀ n' side :=
  ⟨hside ▸ h.listens, hline.trans h.line⟩

theorem Carrying.of_eq {p : Packet} (h : Carrying n₀ n side p) (hside : n' side = n side)
    (hline : toCome n' side = toCome n side) : Carrying n₀ n' side p := by
  rw [Carrying, hside, hline]
  exact h

/-- A packet is written to a side that has nothing to read. -/
theorem Still.carrying {p : Packet} (h : Still n₀ n side) (hside : n' side = n side)
    (hline : toCome n' side = toCome n side ++ p.wire)
    (hcapacity : p.wire.length ≤ capacity n₀ side) : Carrying n₀ n' side p := by
  obtain ⟨r, hlisten, hboundary⟩ := h.listens
  rw [h.line, List.nil_append] at hline
  rw [Carrying, hside, hline]
  exact ⟨hcapacity, r, hlisten, .of_boundary hboundary hlisten.matched.inv p⟩

theorem listens_deliver {cap : Nat} {r : Receiver} {other : Side} (h : Listens cap (n other) r) :
    Listens cap (n.step env (.deliver side count) other) r := by
  by_cases hother : other = side
  · subst hother
    rw [deliver_self env n other count]
    exact h.arrive _
  · rw [Network.step_of_ne env n hother]
    exact h

theorem Still.deliver {other : Side} (h : Still n₀ n other) (hn : Reached n)
    (h' : Reached (n.step env (.deliver side count))) :
    Still n₀ (n.step env (.deliver side count)) other := by
  obtain ⟨r, hlisten, hboundary⟩ := h.listens
  exact ⟨⟨r, listens_deliver hlisten, hboundary⟩, (toCome_deliver hn h' other).trans h.line⟩

theorem Carrying.deliver {p : Packet} {other : Side} (h : Carrying n₀ n other p) (hn : Reached n)
    (h' : Reached (n.step env (.deliver side count))) :
    Carrying n₀ (n.step env (.deliver side count)) other p := by
  obtain ⟨hcapacity, r, hlisten, hexpecting⟩ := h
  exact ⟨hcapacity, r, listens_deliver hlisten, (toCome_deliver hn h' other).symm ▸ hexpecting⟩

/-! ## Both sides -/

/-- What arriving bytes leave alone. -/
theorem deliver_kept (env : Side → Surroundings) (n : Network) (side other : Side) (count : Nat) :
    (n.step env (.deliver side count) other).handler = (n other).handler ∧
      (n.step env (.deliver side count) other).trace = (n other).trace := by
  by_cases hother : other = side
  · subst hother
    rw [deliver_self env n other count]
    exact ⟨rfl, rfl⟩
  · rw [Network.step_of_ne env n hother]
    exact ⟨rfl, rfl⟩

theorem Common.deliver (h : Common m n₀ n done)
    (h' : Reached (n.step env (.deliver side count))) :
    Common m n₀ (n.step env (.deliver side count)) done := by
  obtain ⟨hleft, htrace⟩ := deliver_kept env n side .left count
  obtain ⟨hright, _⟩ := deliver_kept env n side .right count
  exact ⟨h', ⟨hright ▸ h.duty.state, hright ▸ h.duty.queue⟩,
    ⟨hright ▸ h.tables.map, hright ▸ h.tables.default⟩, htrace ▸ h.answered⟩

theorem Resting.deliver (h : Resting m n₀ n done)
    (h' : Reached (n.step env (.deliver side count))) :
    Resting m n₀ (n.step env (.deliver side count)) done := by
  obtain ⟨hleft, htrace⟩ := deliver_kept env n side .left count
  obtain ⟨_, hheard⟩ := deliver_kept env n side .right count
  refine ⟨h.toCommon.deliver h', hleft ▸ h.state, hleft ▸ h.asks, ?_, hheard ▸ h.heard,
    fun other => (h.still other).deliver h.reached h'⟩
  rw [htrace, hleft]
  exact h.asked

theorem Awaiting.deliver (h : Awaiting m n₀ n done msg rest)
    (h' : Reached (n.step env (.deliver side count))) :
    Awaiting m n₀ (n.step env (.deliver side count)) done msg rest := by
  obtain ⟨hleft, htrace⟩ := deliver_kept env n side .left count
  exact ⟨h.toCommon.deliver h', hleft ▸ h.state, hleft ▸ h.queue, h.asks, htrace ▸ h.asked⟩

theorem Asking.deliver (h : Asking m n₀ n done msg rest)
    (h' : Reached (n.step env (.deliver side count))) :
    Asking m n₀ (n.step env (.deliver side count)) done msg rest := by
  obtain ⟨_, hheard⟩ := deliver_kept env n side .right count
  obtain ⟨p, hpacket, hcarrying⟩ := h.carrying
  exact ⟨h.toAwaiting.deliver h', hheard ▸ h.heard, h.still.deliver h.reached h', p, hpacket,
    hcarrying.deliver h.reached h'⟩

theorem Answering.deliver (h : Answering m n₀ n done msg rest)
    (h' : Reached (n.step env (.deliver side count))) :
    Answering m n₀ (n.step env (.deliver side count)) done msg rest := by
  obtain ⟨_, hheard⟩ := deliver_kept env n side .right count
  obtain ⟨q, hpacket, hcarrying⟩ := h.carrying
  exact ⟨h.toAwaiting.deliver h', hheard ▸ h.heard, h.still.deliver h.reached h', q, hpacket,
    hcarrying.deliver h.reached h'⟩

/-! ## Calls -/

/-- What a call leaves alone, and the requests that it queues. -/
theorem call_queues (hn : Reached n) {c : ApiCall} (hc : c.Asks (Accepted n₀))
    (h' : Reached (n.step env (.call .left c))) :
    (∃ items, Queues (Accepted n₀) (n .left) (n.step env (.call .left c) .left) items) ∧
      n.step env (.call .left c) .right = n .right ∧
      ∀ other, toCome (n.step env (.call .left c)) other = toCome n other := by
  obtain ⟨d, hd⟩ := hn.served .left
  have hown : n.step env (.call .left c) .left = (n .left).call (env .left) c :=
    Network.step_self env n (.call .left c)
  have hpeer : n.step env (.call .left c) .right = n .right :=
    Network.step_of_ne env n (Side.peer_ne .left)
  obtain ⟨items, hitems⟩ := Queues.call (env .left) hd.processing hc
  rw [← hown] at hitems
  refine ⟨⟨items, hitems⟩, hpeer, fun other => ?_⟩
  cases other with
  | left => exact toCome_same hn h' (congrArg Endpoint.output hpeer) hitems.same.received
  | right => exact toCome_same hn h' hitems.output (congrArg Endpoint.received hpeer)

theorem Still.call (h : Still n₀ n side) {items : List OutgoingQueueItem}
    {Q : HaierMessage → Bool → Prop} (hitems : Queues Q (n .left) (n' .left) items)
    (hpeer : n' .right = n .right) (hline : toCome n' side = toCome n side) : Still n₀ n' side := by
  cases side with
  | left =>
    obtain ⟨r, hlisten, hboundary⟩ := h.listens
    exact ⟨⟨r, hlisten.sameLine hitems.same.toSameLine, hboundary⟩, hline.trans h.line⟩
  | right => exact h.of_eq hpeer hline

theorem Carrying.call {p : Packet} (h : Carrying n₀ n side p) {items : List OutgoingQueueItem}
    {Q : HaierMessage → Bool → Prop} (hitems : Queues Q (n .left) (n' .left) items)
    (hpeer : n' .right = n .right) (hline : toCome n' side = toCome n side) :
    Carrying n₀ n' side p := by
  cases side with
  | left =>
    obtain ⟨hcapacity, r, hlisten, hexpecting⟩ := h
    exact ⟨hcapacity, r, hlisten.sameLine hitems.same.toSameLine, hline.symm ▸ hexpecting⟩
  | right => exact h.of_eq hpeer hline

theorem Common.call (h : Common m n₀ n done) (h' : Reached n') {items : List OutgoingQueueItem}
    {Q : HaierMessage → Bool → Prop} (hitems : Queues Q (n .left) (n' .left) items)
    (hpeer : n' .right = n .right) : Common m n₀ n' done := by
  refine ⟨h', hpeer ▸ h.duty, hpeer ▸ h.tables, ?_⟩
  rw [hitems.trace, answersOf_append, answersOf_queued, List.append_nil]
  exact h.answered

theorem asked_queues {Q : HaierMessage → Bool → Prop} {e e' : Endpoint}
    {items : List OutgoingQueueItem} (h : Queues Q e e' items) :
    requestsOf e'.trace = requestsOf e.trace ++ items := by
  rw [h.trace, requestsOf_append, requestsOf_queued]

theorem Resting.call (h : Resting m n₀ n done) {c : ApiCall} (hc : c.Asks (Accepted n₀))
    (h' : Reached (n.step env (.call .left c))) :
    Resting m n₀ (n.step env (.call .left c)) done := by
  obtain ⟨⟨items, hitems⟩, hpeer, hline⟩ := call_queues h.reached hc h'
  refine ⟨h.toCommon.call h' hitems hpeer, hitems.same.state.trans h.state, ?_, ?_,
    hpeer ▸ h.heard, fun other => (h.still other).call hitems hpeer (hline other)⟩
  · rw [hitems.queue]
    exact List.forall_mem_append.mpr ⟨h.asks, hitems.asks⟩
  · rw [asked_queues hitems, h.asked, hitems.queue, List.append_assoc]

theorem Awaiting.call (h : Awaiting m n₀ n done msg rest) (h' : Reached n')
    {items : List OutgoingQueueItem} (hitems : Queues (Accepted n₀) (n .left) (n' .left) items)
    (hpeer : n' .right = n .right) : Awaiting m n₀ n' done msg (rest ++ items) := by
  refine ⟨h.toCommon.call h' hitems hpeer, hitems.same.state.trans h.state, ?_, ?_, ?_⟩
  · rw [hitems.queue, h.queue]
    rfl
  · rw [← List.cons_append]
    exact List.forall_mem_append.mpr ⟨h.asks, hitems.asks⟩
  · rw [asked_queues hitems, h.asked, List.append_assoc]
    rfl

theorem Asking.call (h : Asking m n₀ n done msg rest) {c : ApiCall} (hc : c.Asks (Accepted n₀))
    (h' : Reached (n.step env (.call .left c))) :
    ∃ items, Asking m n₀ (n.step env (.call .left c)) done msg (rest ++ items) := by
  obtain ⟨⟨items, hitems⟩, hpeer, hline⟩ := call_queues h.reached hc h'
  obtain ⟨p, hpacket, hcarrying⟩ := h.carrying
  exact ⟨items, h.toAwaiting.call h' hitems hpeer, hpeer ▸ h.heard,
    h.still.call hitems hpeer (hline .left), p, hpacket, hcarrying.call hitems hpeer (hline .right)⟩

theorem Answering.call (h : Answering m n₀ n done msg rest) {c : ApiCall}
    (hc : c.Asks (Accepted n₀)) (h' : Reached (n.step env (.call .left c))) :
    ∃ items, Answering m n₀ (n.step env (.call .left c)) done msg (rest ++ items) := by
  obtain ⟨⟨items, hitems⟩, hpeer, hline⟩ := call_queues h.reached hc h'
  obtain ⟨q, hpacket, hcarrying⟩ := h.carrying
  exact ⟨items, h.toAwaiting.call h' hitems hpeer, hpeer ▸ h.heard,
    h.still.call hitems hpeer (hline .right), q, hpacket, hcarrying.call hitems hpeer (hline .left)⟩

/-! ## Turns of the side that answers -/

theorem Common.serve (h : Common m n₀ n done) (h' : Reached n') (hleft : n' .left = n .left)
    (hduty : OnDuty (n' .right)) (htables : SameTables (n .right) (n' .right)) :
    Common m n₀ n' done :=
  ⟨h', hduty, ⟨htables.map.trans h.tables.map, htables.default.trans h.tables.default⟩,
    hleft ▸ h.answered⟩

theorem Awaiting.serve (h : Awaiting m n₀ n done msg rest) (h' : Reached n')
    (hleft : n' .left = n .left) (hduty : OnDuty (n' .right))
    (htables : SameTables (n .right) (n' .right)) : Awaiting m n₀ n' done msg rest :=
  ⟨h.toCommon.serve h' hleft hduty htables, hleft ▸ h.state, hleft ▸ h.queue, h.asks,
    hleft ▸ h.asked⟩

/-- The side that answers has nothing to do. -/
theorem Still.serve (h : Still n₀ n .right) (hn : Reached n) (hduty : OnDuty (n .right))
    (h' : Reached (n.step env (.loop .right reply))) :
    Still n₀ (n.step env (.loop .right reply)) .right ∧
      toCome (n.step env (.loop .right reply)) .left = toCome n .left ∧
      OnDuty (n.step env (.loop .right reply) .right) ∧
      SameTables (n .right) (n.step env (.loop .right reply) .right) ∧
      heardOf (n.step env (.loop .right reply) .right).trace = heardOf (n .right).trace := by
  obtain ⟨hline, harrivals⟩ := h.arrivals_receive (env .right)
  have hloop := loop_quiet (env .right) reply hduty.state hline hduty.queue harrivals
  have hsame : SameLine ((n .right).receive (env .right)) ((n .right).loop (env .right) reply) :=
    hloop ▸ receive_sameLine_look (env .right) _
  have houtput : ((n .right).loop (env .right) reply).output = (n .right).output ++ [] := by
    rw [hloop, List.append_nil]
    rfl
  obtain ⟨hstill, hpeer⟩ := h.loop hn h' hsame houtput
  rw [List.append_nil] at hpeer
  rw [loop_self, hloop]
  refine ⟨hstill, hpeer, ⟨hduty.state, hduty.queue⟩, ⟨rfl, rfl⟩, ?_⟩
  exact (heardOf_append _ _).trans (List.append_nil _)

theorem loop_peer (env : Side → Surroundings) (n : Network) (reply : Reply) :
    n.step env (.loop .right reply) .left = n .left :=
  Network.step_of_ne env n (Side.peer_ne .right)

theorem Resting.serve (h : Resting m n₀ n done) (h' : Reached (n.step env (.loop .right reply))) :
    Resting m n₀ (n.step env (.loop .right reply)) done := by
  obtain ⟨hstill, hline, hduty, htables, hheard⟩ := (h.still .right).serve h.reached h.duty h'
  have hleft := loop_peer env n reply
  refine ⟨h.toCommon.serve h' hleft hduty htables, hleft ▸ h.state, hleft ▸ h.asks, ?_,
    hheard.trans h.heard, fun side => ?_⟩
  · rw [hleft]
    exact h.asked
  · cases side with
    | left => exact (h.still .left).of_eq hleft hline
    | right => exact hstill

theorem Answering.serve (h : Answering m n₀ n done msg rest)
    (h' : Reached (n.step env (.loop .right reply))) :
    Answering m n₀ (n.step env (.loop .right reply)) done msg rest := by
  obtain ⟨hstill, hline, hduty, htables, hheard⟩ := h.still.serve h.reached h.duty h'
  have hleft := loop_peer env n reply
  obtain ⟨q, hpacket, hcarrying⟩ := h.carrying
  exact ⟨h.toAwaiting.serve h' hleft hduty htables, hheard.trans h.heard, hstill, q, hpacket,
    hcarrying.of_eq hleft hline⟩

theorem frame_eq {p : Packet} (h : msg.message.packet msg.useCrc = some p) :
    msg.frame = p.frame := by
  rw [OutgoingQueueItem.frame, h]
  rfl

theorem frameType_packet {message : HaierMessage} {useCrc : Bool} {p : Packet}
    (h : message.packet useCrc = some p) : p.frame.frameType = message.frameType := by
  rw [HaierMessage.packet] at h
  split at h
  · rw [← Option.some_inj.mp h]
    rfl
  · exact absurd h.symm (Option.some_ne_none p)

/-- The side that answers gets some of the request, or the rest of it. -/
theorem Asking.serve (h : Asking m n₀ n done msg rest) (hm : m.Fits (capacity n₀ .left))
    (h' : Reached (n.step env (.loop .right (m.reply (n .right))))) :
    n.inFlight .right ≠ [] ∧
        Asking m n₀ (n.step env (.loop .right (m.reply (n .right)))) done msg rest ∨
      n.inFlight .right = [] ∧
        Answering m n₀ (n.step env (.loop .right (m.reply (n .right)))) done msg rest := by
  obtain ⟨p, hpacket, hcapacity, r, hlisten, hexpecting⟩ := h.carrying
  obtain ⟨q, hq, hlength, hroom⟩ := hm (m.after (heardOf (n .right).trace)) p.frame
  obtain ⟨_, _, _, _, hhandler⟩ := (h.asks msg List.mem_cons_self).holds
  rw [← frameType_packet hpacket, ← h.tables.messageHandler] at hhandler
  have hreply : ∀ a : Arrival, a.frame.frame = p.frame →
      m.reply (n .right) (.message ((n .right).handler.messageHandler p.frame.frameType) a) =
        [.sendAnswer (m.handle (m.after (heardOf (n .right).trace)) p.frame).2.1
          (m.handle (m.after (heardOf (n .right).trace)) p.frame).2.2] := by
    intro a ha
    rw [← ha]
    rfl
  obtain ⟨hinput, hduty, htables, hserved⟩ := serve_packet (env .right) hlisten h.duty hexpecting
    hcapacity hhandler hreply hq (Nat.le_succ_of_le hlength)
  have hleft := loop_peer env n (m.reply (n .right))
  have hown := loop_self env n .right (m.reply (n .right))
  rw [← hown] at hinput hduty htables hserved
  cases hserved with
  | waits hline hlisten' houtput hheard =>
    obtain ⟨r', hlisten', hexpecting'⟩ := hlisten'
    obtain ⟨hright, hback⟩ :=
      toCome_loop h.reached h' hinput (houtput.trans (List.append_nil _).symm)
    rw [List.append_nil] at hback
    refine .inl ⟨hline, h.toAwaiting.serve h' hleft hduty htables, hheard.trans h.heard,
      h.still.of_eq hleft hback, p, hpacket, hcapacity, r', hlisten', hright.symm ▸ hexpecting'⟩
  | answers hline hlisten' houtput hheard =>
    obtain ⟨r', hlisten', hboundary⟩ := hlisten'
    obtain ⟨hright, hback⟩ := toCome_loop h.reached h' hinput houtput
    refine .inr ⟨hline, h.toAwaiting.serve h' hleft hduty htables, ?_,
      ⟨⟨r', hlisten', hboundary⟩, hright.trans hline⟩, q, ?_,
      h.still.carrying hleft hback hroom⟩
    · rw [hheard, h.heard, List.map_append, List.map_singleton, frame_eq hpacket]
    · rw [frame_eq hpacket, ← h.heard]
      exact hq

/-! ## Turns of the side that asks -/

theorem loop_other (env : Side → Surroundings) (n : Network) (reply : Reply) :
    n.step env (.loop .left reply) .right = n .right :=
  Network.step_of_ne env n (Side.peer_ne .left)

theorem Common.wait (h : Common m n₀ n done) (h' : Reached n') (hright : n' .right = n .right)
    (hwaited : Waited (n .left) (n' .left)) : Common m n₀ n' done :=
  ⟨h', hright ▸ h.duty, hright ▸ h.tables, hwaited.answered.trans h.answered⟩

/-- Nothing is written or handed over. -/
theorem Still.wait (h : Still n₀ n .left) (hn : Reached n)
    (h' : Reached (n.step env (.loop .left reply)))
    (hloop : (n .left).loop (env .left) reply = ((n .left).receive (env .left)).look (env .left)) :
    Still n₀ (n.step env (.loop .left reply)) .left ∧
      toCome (n.step env (.loop .left reply)) .right = toCome n .right ∧
      Waited (n .left) (n.step env (.loop .left reply) .left) := by
  have hsame : SameLine ((n .left).receive (env .left)) ((n .left).loop (env .left) reply) :=
    hloop ▸ receive_sameLine_look (env .left) _
  have hwaited := hloop ▸ waited_look (env .left) (n .left)
  obtain ⟨hstill, hpeer⟩ := h.loop hn h' hsame (hwaited.output.trans (List.append_nil _).symm)
  rw [List.append_nil] at hpeer
  exact ⟨hstill, hpeer, loop_self env n .left reply ▸ hwaited⟩

theorem Resting.hold (h : Resting m n₀ n done) (h' : Reached (n.step env (.loop .left reply)))
    (hloop : (n .left).loop (env .left) reply = ((n .left).receive (env .left)).look (env .left)) :
    Resting m n₀ (n.step env (.loop .left reply)) done := by
  obtain ⟨hstill, hline, hwaited⟩ := (h.still .left).wait h.reached h' hloop
  have hright := loop_other env n reply
  refine ⟨h.toCommon.wait h' hright hwaited, hwaited.state.trans h.state, ?_, ?_,
    hright ▸ h.heard, fun side => ?_⟩
  · rw [hwaited.queue]
    exact h.asks
  · rw [hwaited.asked, hwaited.queue]
    exact h.asked
  · cases side with
    | left => exact hstill
    | right => exact (h.still .right).of_eq hright hline

/-- May the head of the queue be written now? -/
def Ready (env : Side → Surroundings) (n : Network) : Prop :=
  (env .left).clock (n .left).ticks ≥ (n .left).handler.cooldownTimePoint ∧
    (env .left).clock (n .left).ticks ≥ (n .left).handler.retryTimePoint

/-- The head of the queue is written if it may be. -/
theorem Resting.ask (h : Resting m n₀ n done) (h' : Reached (n.step env (.loop .left reply)))
    (hready : Ready env n) (hqueue : (n .left).handler.outgoingMessages = msg :: rest) :
    Asking m n₀ (n.step env (.loop .left reply)) done msg rest := by
  obtain ⟨d, hd⟩ := h.reached.served .left
  have hasks : ∀ item ∈ msg :: rest, item.Asks (Accepted n₀) := hqueue ▸ h.asks
  have hmsg := hasks msg List.mem_cons_self
  obtain ⟨p, hpacket, hlength, hcapacity, _⟩ := hmsg.holds
  obtain ⟨_, harrivals⟩ := (h.still .left).arrivals_receive (env .left)
  obtain ⟨hsame, hwritten⟩ := loop_ask (env .left) reply hd h.state hqueue hmsg harrivals hready
    hpacket hlength
  obtain ⟨hstill, hline⟩ := (h.still .left).loop h.reached h' hsame hwritten.output
  have hright := loop_other env n reply
  have hown := loop_self env n .left reply
  rw [← hown] at hwritten
  refine ⟨⟨⟨h', hright ▸ h.duty, hright ▸ h.tables, hwritten.answered.trans h.answered⟩,
    hwritten.state, hwritten.queue, hasks, ?_⟩, hright ▸ h.heard, hstill, p, hpacket,
    (h.still .right).carrying hright hline hcapacity⟩
  rw [hwritten.asked, h.asked, hqueue]

theorem Resting.loop (h : Resting m n₀ n done) (h' : Reached (n.step env (.loop .left reply))) :
    Resting m n₀ (n.step env (.loop .left reply)) done ∨
      ∃ msg rest, Asking m n₀ (n.step env (.loop .left reply)) done msg rest := by
  obtain ⟨hline, harrivals⟩ := (h.still .left).arrivals_receive (env .left)
  cases hqueue : (n .left).handler.outgoingMessages with
  | nil => exact .inl (h.hold h' (loop_quiet _ _ h.state hline hqueue harrivals))
  | cons msg rest =>
    by_cases hready : Ready env n
    · exact .inr ⟨msg, rest, h.ask h' hready hqueue⟩
    · exact .inl (h.hold h' (loop_hold _ _ h.state hline harrivals hready))

/-- Not too late for an answer. -/
def InTime (env : Side → Surroundings) (n : Network) : Prop :=
  (env .left).clock (n .left).ticks ≤ (n .left).handler.answerTimePoint

theorem Awaiting.wait (h : Awaiting m n₀ n done msg rest) (h' : Reached n')
    (hright : n' .right = n .right) (hwaited : Waited (n .left) (n' .left)) :
    Awaiting m n₀ n' done msg rest :=
  ⟨h.toCommon.wait h' hright hwaited, hwaited.state.trans h.state, hwaited.queue.trans h.queue,
    h.asks, hwaited.asked.trans h.asked⟩

theorem Asking.loop (h : Asking m n₀ n done msg rest) (htime : InTime env n)
    (h' : Reached (n.step env (.loop .left reply))) :
    Asking m n₀ (n.step env (.loop .left reply)) done msg rest := by
  obtain ⟨hline, harrivals⟩ := h.still.arrivals_receive (env .left)
  obtain ⟨hstill, hpeer, hwaited⟩ :=
    h.still.wait h.reached h' (loop_wait _ _ h.state hline harrivals htime)
  have hright := loop_other env n reply
  obtain ⟨p, hpacket, hcarrying⟩ := h.carrying
  exact ⟨h.toAwaiting.wait h' hright hwaited, hright ▸ h.heard, hstill, p, hpacket,
    hcarrying.of_eq hright hpeer⟩

/-- The side that asks gets some of the answer, or the rest of it. -/
theorem Answering.loop (h : Answering m n₀ n done msg rest) (htime : InTime env n)
    (hasks : ∀ invocation, ∀ c ∈ reply invocation, c.Asks (Accepted n₀))
    (h' : Reached (n.step env (.loop .left reply))) :
    n.inFlight .left ≠ [] ∧ Answering m n₀ (n.step env (.loop .left reply)) done msg rest ∨
      n.inFlight .left = [] ∧ Resting m n₀ (n.step env (.loop .left reply)) (done ++ [msg]) := by
  obtain ⟨d, hd⟩ := h.reached.served .left
  obtain ⟨q, hpacket, hcapacity, r, hlisten, hexpecting⟩ := h.carrying
  have hright := loop_other env n reply
  have hown := loop_self env n .left reply
  obtain ⟨hinput, hcases⟩ := hlisten.receive_packet hexpecting hcapacity (env .left)
  rcases hcases with ⟨hline, r', hlisten', hexpecting'⟩ |
    ⟨hline, a, r', harrivals, hframe, hlisten', hboundary⟩
  · have hloop := loop_wait (env .left) reply h.state hlisten'.line hlisten'.arrivals htime
    have hwaited := hown.trans hloop ▸ waited_look (env .left) (n .left)
    have hsame := receive_sameLine_look (env .left) ((n .left).receive (env .left))
    rw [← hown.trans hloop] at hsame
    obtain ⟨hleft, hback⟩ := toCome_loop h.reached h' (hsame.input.trans hinput)
      (hwaited.output.trans (List.append_nil _).symm)
    rw [List.append_nil] at hback
    exact .inl ⟨hline, h.toAwaiting.wait h' hright hwaited, hright ▸ h.heard,
      h.still.of_eq hright hback, q, hpacket, hcapacity, r', hlisten'.sameLine hsame,
      hleft.symm ▸ hexpecting'⟩
  · obtain ⟨hsame, items, hresolved⟩ :=
      loop_answer (env .left) reply hd h.state h.queue hasks harrivals hframe htime
    rw [← hown] at hsame hresolved
    obtain ⟨hleft, hback⟩ := toCome_loop h.reached h' (hsame.input.trans hinput)
      (hresolved.output.trans (List.append_nil _).symm)
    rw [List.append_nil] at hback
    have hanswer : m.answer (m.after (done.map OutgoingQueueItem.frame)) msg.frame = q.frame := by
      rw [Responder.answer, hpacket]
      rfl
    refine .inr ⟨hline, ⟨h', hright ▸ h.duty, hright ▸ h.tables, ?_⟩, hresolved.state, ?_, ?_,
      hright ▸ h.heard, fun side => ?_⟩
    · rw [hresolved.answered, h.answered, Responder.answers_snoc, hanswer]
      rfl
    · rw [hresolved.queue]
      exact List.forall_mem_append.mpr
        ⟨fun item hitem => h.asks item (List.mem_cons_of_mem _ hitem), hresolved.asks⟩
    · rw [hresolved.asked, h.asked, hresolved.queue, List.append_assoc, List.append_assoc]
      rfl
    · cases side with
      | left => exact ⟨⟨r', hlisten'.sameLine hsame, hboundary⟩, hleft.trans hline⟩
      | right => exact h.still.of_eq hright hback

end Conversation
end HaierProtocol
