import HaierProtocol.Protocol.References

/-!
# What the results say

`send_data` returns the number of bytes it wrote, in eight bits, and its callers take zero for
failure.  A frame of 256 bytes counts as none.  `write_message_` passes that on, and `loop` neither
waits for the answer to such a request nor removes such a notice, though the bytes went out.  No
other length is lost (`mod_length_wire`), so everywhere else the results tell the truth
(`results_tellTruth_iff`).
-/

namespace HaierProtocol

open ProtocolHandler

namespace Packet

theorem length_wire_lt (p : Packet) : p.wire.length < 512 := by
  have hlogical := p.count_logical_le
  have htrailer := List.count_le_length (a := 0xFF) (l := p.trailer)
  have hpayload := p.payload_le
  rw [length_trailer] at htrailer
  rw [length_wire, marks, List.count_append]
  split at htrailer <;> split <;> omega

theorem mod_length_wire (p : Packet) : p.wire.length % 256 = 0 ↔ p.wire.length = 256 := by
  have hlt := p.length_wire_lt
  have hle := p.le_length_wire
  omega

end Packet

/-! ## Sending data -/

namespace TransportLevelHandler

/-- The result is zero if and only if nothing goes out, whatever the block held before. -/
def TellsTruth (frameType : UInt8) (data : List UInt8) (useCrc : Bool) : Prop :=
  ∀ heap : Nat → UInt8, (sendData heap frameType data useCrc).2 = 0 ↔
    (sendData heap frameType data useCrc).1 = none

/-- The data make a frame of 256 bytes. -/
def WrapsToZero (frameType : UInt8) (data : List UInt8) (useCrc : Bool) : Prop :=
  ∃ h : data.length ≤ 233, (⟨frameType, data, useCrc, h⟩ : Packet).wire.length = 256

theorem tellsTruth_iff (frameType : UInt8) (data : List UInt8) (useCrc : Bool) :
    TellsTruth frameType data useCrc ↔ ¬ WrapsToZero frameType data useCrc := by
  by_cases h : data.length ≤ 233
  · let p : Packet := ⟨frameType, data, useCrc, h⟩
    have hsend : ∀ heap, sendData heap frameType data useCrc = _ :=
      fun heap => sendData_packet heap p
    have hzero : UInt8.ofNat p.wire.length = 0 ↔ p.wire.length = 256 := by
      rw [← p.mod_length_wire, ← UInt8.toNat_inj, UInt8.toNat_ofNat']
      rfl
    have hwraps : WrapsToZero frameType data useCrc ↔ p.wire.length = 256 :=
      ⟨fun hwraps => hwraps.2, fun hlen => ⟨h, hlen⟩⟩
    rw [hwraps, TellsTruth]
    simp only [hsend, hzero]
    exact ⟨fun hall hlen => Option.some_ne_none _ ((hall fun _ => 0).mp hlen),
      fun hne _ => iff_of_false hne (Option.some_ne_none _)⟩
  · have hlarge : data.length > (maxFrameSize - pureHeaderSize).toNat := Nat.lt_of_not_le h
    refine iff_of_true (fun heap => ?_) fun hwraps => h hwraps.1
    rw [sendData, if_pos hlarge]
    exact iff_of_true rfl rfl

end TransportLevelHandler

/-! ## Writing a message -/

/-- The message makes a frame of 256 bytes. -/
def HaierMessage.WrapsToZero (message : HaierMessage) (useCrc : Bool) : Prop :=
  TransportLevelHandler.WrapsToZero message.frameType message.payload useCrc

/-- The result agrees with whether there is a frame for the message. -/
theorem countsAsSent_iff (message : HaierMessage) (useCrc : Bool) :
    (countsAsSent message useCrc = true ↔ message.packet useCrc ≠ none) ↔
      ¬ message.WrapsToZero useCrc := by
  rw [countsAsSent, HaierMessage.WrapsToZero, TransportLevelHandler.WrapsToZero,
    HaierMessage.packet]
  by_cases h : message.payload.length ≤ 233
  · let p : Packet := ⟨message.frameType, message.payload, useCrc, h⟩
    rw [dif_pos h]
    show ((p.wire.length % 256 != 0) = true ↔ some p ≠ none) ↔ _
    rw [bne_iff_ne, ne_eq, p.mod_length_wire, iff_true_right (Option.some_ne_none p)]
    exact not_congr ⟨fun hlen => ⟨h, hlen⟩, fun hwraps => hwraps.2⟩
  · rw [dif_neg h]
    exact iff_of_true (iff_of_false Bool.false_ne_true (not_not.mpr rfl)) fun hwraps => h hwraps.1

theorem bytesFor_ne_none_iff (frameBlock : Nat → UInt8) (message : HaierMessage) (useCrc : Bool) :
    bytesFor frameBlock message useCrc ≠ none ↔ message.packet useCrc ≠ none := by
  rw [bytesFor, ne_eq, Option.map_eq_none_iff]

/-- A frame has bytes. -/
theorem getD_bytesFor_ne_nil (frameBlock : Nat → UInt8) (message : HaierMessage) (useCrc : Bool) :
    (bytesFor frameBlock message useCrc).getD [] ≠ [] ↔ message.packet useCrc ≠ none := by
  rw [bytesFor]
  cases message.packet useCrc with
  | none => exact iff_of_false (not_not.mpr rfl) (not_not.mpr rfl)
  | some p =>
    refine iff_of_true (fun hnil => ?_) (Option.some_ne_none p)
    have hlen := congrArg List.length hnil
    rw [Option.map_some, Option.getD_some, HaierFrame.length_putBytes, List.length_map,
      List.length_range] at hlen
    have := p.le_length_wire
    exact absurd hlen (by rw [List.length_nil]; omega)

namespace ProtocolHandler

/-- The result is true if and only if a frame goes out. -/
def TellsTruth (message : HaierMessage) (useCrc : Bool) : Prop :=
  ∀ (h : ProtocolHandler) (messageBlock frameBlock : Nat → UInt8) (now : TimePoint),
    (h.writeMessage messageBlock frameBlock now message useCrc).2.2 = true ↔
      (h.writeMessage messageBlock frameBlock now message useCrc).2.1 ≠ none

theorem tellsTruth_iff (message : HaierMessage) (useCrc : Bool) :
    TellsTruth message useCrc ↔ ¬ message.WrapsToZero useCrc := by
  rw [← countsAsSent_iff, TellsTruth]
  simp only [writeMessage_eq, bytesFor_ne_none_iff]
  exact ⟨fun hall => hall (.ofBufferSize (fun _ => 0) 0) (fun _ => 0) (fun _ => 0) 0,
    fun hiff _ _ _ _ => hiff⟩

end ProtocolHandler

/-! ## The loop -/

namespace Endpoint

/-- What follows when an item counts as sent: a notice leaves the queue, and the answer to a request
is waited for. -/
def TakenAsSent (msg : OutgoingQueueItem) (after : Endpoint) : Prop :=
  if msg.noAnswer then ∀ item ∈ after.handler.outgoingMessages, item.id ≠ msg.id
  else after.handler.state = .waitingForAnswer

/-- Items are taken as sent if and only if bytes went out for them, and no wait begins otherwise. -/
structure TellsTruth (env : Surroundings) (reply : Reply) (e : Endpoint) : Prop where
  attempts : ∀ msg, Attempts env reply e msg → (TakenAsSent msg (e.loop env reply) ↔
    (e.loop env reply).output ≠ (e.beforeSend env reply).output)
  waits : e.handler.state = .idle → (e.loop env reply).handler.state = .waitingForAnswer →
    ∃ msg, Attempts env reply e msg ∧ msg.noAnswer = false

variable {env : Surroundings} {reply : Reply} {e : Endpoint} {d : Desk} {now : TimePoint}
  {msg : OutgoingQueueItem}

theorem output_popOutgoing (e : Endpoint) : e.popOutgoing.output = e.output := by
  rw [popOutgoing]
  split <;> rfl

theorem output_sendHead (env : Surroundings) (e : Endpoint) (msg : OutgoingQueueItem)
    (now : TimePoint) : (e.sendHead env msg now).output =
      e.output ++ (bytesFor (env.frameBlock e.ticks) msg.message msg.useCrc).getD [] := by
  rw [sendHead, write_eq]
  dsimp only
  split
  · split
    · exact output_popOutgoing _
    · rfl
  · rfl

theorem sendNext_due (h : Due e now msg) (env : Surroundings) :
    e.sendNext env now = (e.access msg.id).sendHead env msg now := by
  obtain ⟨hhead, hretries, hcooldown, hretry⟩ := h
  obtain ⟨rest, hqueue⟩ := List.head?_eq_some_iff.mp hhead
  rw [sendNext, hqueue]
  dsimp only
  rw [if_pos ⟨hcooldown, hretry⟩, if_pos hretries]

/-- The second block leaves the state alone where no item is due. -/
theorem state_sendNext (h : ∀ msg, ¬ Due e now msg) (env : Surroundings) :
    (e.sendNext env now).handler.state = e.handler.state := by
  rw [sendNext]
  split
  · rfl
  · rename_i msg rest hqueue
    split
    · rename_i hready
      dsimp only
      split
      · rename_i hretries
        exact absurd ⟨by rw [hqueue]; rfl, hretries, hready.1, hready.2⟩ (h msg)
      · exact state_popOutgoing _
    · rfl

/-- Whether the head of the queue is taken as sent is the result of the write. -/
theorem takenAsSent_iff {rest : List OutgoingQueueItem} {n : Nat}
    (h : Service.Serves e ⟨msg :: rest, n, .idle⟩) (hretries : 0 < msg.numberOfRetries)
    (env : Surroundings) (now : TimePoint) :
    TakenAsSent msg (e.sendHead env msg now) ↔ countsAsSent msg.message msg.useCrc = true := by
  have hidle : e.handler.state = .idle := h.phase
  rw [TakenAsSent]
  cases hsent : countsAsSent msg.message msg.useCrc with
  | false =>
    obtain ⟨hfollows, hstate⟩ := Service.sendHead_failed env now h.toFollows hretries hsent
    refine iff_of_false ?_ Bool.false_ne_true
    split
    · intro hgone
      refine hgone msg.retried ?_ rfl
      rw [hfollows.queue]
      exact List.mem_cons_self
    · rw [hstate, hidle]
      exact ProtocolState.noConfusion
  | true =>
    refine iff_of_true ?_ rfl
    cases hkind : msg.noAnswer with
    | true =>
      obtain ⟨hfollows, _⟩ := Service.sendHead_notice env now h.toFollows hretries hsent hkind
      rw [if_pos rfl, hfollows.queue]
      exact h.order.others
    | false =>
      obtain ⟨_, _, _, _, hstate, _⟩ :=
        Service.sendHead_request env now h.toFollows hretries hsent hkind
      rw [if_neg Bool.false_ne_true]
      exact hstate

/-- The desk before the second block, when an item is due. -/
theorem attempts_head (h : Service.Serves e d) (hattempts : Attempts env reply e msg) :
    ∃ rest n, Service.Serves ((e.beforeSend env reply).access msg.id) ⟨msg :: rest, n, .idle⟩ := by
  obtain ⟨⟨queue, n, phase⟩, h₁, hidle, _⟩ := serves_beforeSend h env reply hattempts.1
  obtain rfl : phase = .idle := hidle
  obtain ⟨rest, hqueue⟩ := List.head?_eq_some_iff.mp hattempts.2.1
  obtain rfl : queue = msg :: rest := h₁.queue.symm.trans hqueue
  have hstate : (e.beforeSend env reply).handler.state = .idle := h₁.phase
  exact ⟨rest, n, h₁.of_sameLine (h₁.toFollows.access msg.id) rfl (.access _ msg.id) hstate⟩

theorem loop_attempts (hattempts : Attempts env reply e msg) :
    e.loop env reply =
      ((e.beforeSend env reply).access msg.id).sendHead env msg (env.clock e.ticks) := by
  rw [loop_idle env reply hattempts.1, sendNext_due hattempts.2]

/-- An attempt tells the truth if and only if the item does not make a frame of 256 bytes. -/
theorem attempt_tellsTruth_iff (h : Service.Serves e d) (hattempts : Attempts env reply e msg) :
    (TakenAsSent msg (e.loop env reply) ↔
        (e.loop env reply).output ≠ (e.beforeSend env reply).output) ↔
      ¬ msg.message.WrapsToZero msg.useCrc := by
  obtain ⟨rest, n, hserves⟩ := attempts_head h hattempts
  have houtput : ∀ l : List UInt8, (e.beforeSend env reply).output ++ l ≠
      (e.beforeSend env reply).output ↔ l ≠ [] := by
    intro l
    rw [ne_eq, List.append_right_eq_self]
  rw [loop_attempts hattempts, takenAsSent_iff hserves hattempts.2.2.1, output_sendHead,
    ← countsAsSent_iff]
  show (_ ↔ (e.beforeSend env reply).output ++ _ ≠ (e.beforeSend env reply).output) ↔ _
  rw [houtput, getD_bytesFor_ne_nil]

/-- No wait begins without a request that was attempted. -/
theorem exists_request (h : Service.Serves e d) (hidle : e.handler.state = .idle)
    (hwaiting : (e.loop env reply).handler.state = .waitingForAnswer) :
    ∃ msg, Attempts env reply e msg ∧ msg.noAnswer = false := by
  by_cases hany : ∃ msg, Attempts env reply e msg
  · obtain ⟨msg, hattempts⟩ := hany
    refine ⟨msg, hattempts, ?_⟩
    by_contra hkind
    rw [Bool.not_eq_false] at hkind
    obtain ⟨rest, n, hserves⟩ := attempts_head h hattempts
    have hretries := hattempts.2.2.1
    -- Writing a notice leaves the state as it was.
    have hstate : (e.loop env reply).handler.state = .idle := by
      rw [loop_attempts hattempts]
      cases hsent : countsAsSent msg.message msg.useCrc with
      | false =>
        exact (Service.sendHead_failed env _ hserves.toFollows hretries hsent).2.trans hserves.phase
      | true =>
        exact (Service.sendHead_notice env _ hserves.toFollows hretries hsent hkind).2.trans
          hserves.phase
    rw [hstate] at hwaiting
    exact ProtocolState.noConfusion hwaiting
  · obtain ⟨⟨queue, n, phase⟩, h₁, hphase, _⟩ := serves_beforeSend h env reply hidle
    obtain rfl : phase = .idle := hphase
    have hnone : ∀ msg, ¬ Due (e.beforeSend env reply) (env.clock e.ticks) msg :=
      fun msg hdue => hany ⟨msg, hidle, hdue⟩
    have hstate : (e.beforeSend env reply).handler.state = .idle := h₁.phase
    rw [loop_idle env reply hidle, state_sendNext hnone, hstate] at hwaiting
    exact ProtocolState.noConfusion hwaiting

theorem tellsTruth_iff (h : Service.Serves e d) (env : Surroundings) (reply : Reply) :
    TellsTruth env reply e ↔
      ∀ msg, Attempts env reply e msg → ¬ msg.message.WrapsToZero msg.useCrc := by
  constructor
  · intro htruth msg hattempts
    exact (attempt_tellsTruth_iff h hattempts).mp (htruth.attempts msg hattempts)
  · intro hall
    exact ⟨fun msg hattempts => (attempt_tellsTruth_iff h hattempts).mpr (hall msg hattempts),
      exists_request h⟩

end Endpoint

/-- The results of sending data, of writing a message and, in every run, what the loop makes of them
tell the truth if and only if no frame of 256 bytes is involved. -/
theorem results_tellTruth_iff (frameType : UInt8) (data : List UInt8) (message : HaierMessage)
    (useCrc : Bool) (cells : Nat → UInt8) (bufferSize : Nat) (env : Surroundings)
    (steps : List Endpoint.Step) :
    (TransportLevelHandler.TellsTruth frameType data useCrc ↔
      ¬ TransportLevelHandler.WrapsToZero frameType data useCrc) ∧
    (ProtocolHandler.TellsTruth message useCrc ↔ ¬ message.WrapsToZero useCrc) ∧
    ((∀ before reply after, steps = before ++ .loop reply :: after →
        Endpoint.TellsTruth env reply ((Endpoint.start cells bufferSize).run env before)) ↔
      ∀ before reply after, steps = before ++ .loop reply :: after →
        ∀ msg, Endpoint.Attempts env reply ((Endpoint.start cells bufferSize).run env before) msg →
          ¬ msg.message.WrapsToZero msg.useCrc) := by
  refine ⟨TransportLevelHandler.tellsTruth_iff frameType data useCrc,
    ProtocolHandler.tellsTruth_iff message useCrc, ?_⟩
  refine forall_congr' fun before => forall_congr' fun reply => forall_congr' fun after =>
    imp_congr_right fun _ => ?_
  obtain ⟨d, h⟩ := Service.serves_run cells bufferSize env before
  exact Endpoint.tellsTruth_iff h env reply

/-- The longest payload, with as many separators as make a frame of 256 bytes. -/
def wrappingPayload : List UInt8 := List.replicate 12 0xFF ++ List.replicate 221 0x00

theorem length_wrappingPayload : wrappingPayload.length ≤ 233 := by
  rw [wrappingPayload, List.length_append, List.length_replicate, List.length_replicate]

def wrappingPacket : Packet := ⟨0x06, wrappingPayload, false, length_wrappingPayload⟩

theorem length_wrappingPacket : wrappingPacket.wire.length = 256 := by decide +kernel

/-- All bytes of the frame go out, and the result says that none did. -/
theorem wrappingPacket_counts_as_failed :
    (∀ heap, (TransportLevelHandler.sendData heap 0x06 wrappingPayload false).2 = 0 ∧
      (TransportLevelHandler.sendData heap 0x06 wrappingPayload false).1 ≠ none) ∧
    ¬ ∀ frameType data useCrc, TransportLevelHandler.TellsTruth frameType data useCrc := by
  have hsend : ∀ heap, (TransportLevelHandler.sendData heap 0x06 wrappingPayload false).2 =
      0 ∧ (TransportLevelHandler.sendData heap 0x06 wrappingPayload false).1 ≠ none := by
    intro heap
    have hpacket := sendData_packet heap wrappingPacket
    rw [length_wrappingPacket] at hpacket
    rw [show TransportLevelHandler.sendData heap 0x06 wrappingPayload false = _ from hpacket]
    exact ⟨rfl, Option.some_ne_none _⟩
  refine ⟨hsend, fun hall => ?_⟩
  obtain ⟨hzero, hsome⟩ := hsend fun _ => 0
  exact hsome ((hall 0x06 wrappingPayload false fun _ => 0).mp hzero)

end HaierProtocol
