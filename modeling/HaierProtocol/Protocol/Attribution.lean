import HaierProtocol.Protocol.Network
import HaierProtocol.Protocol.Outstanding
import HaierProtocol.Transport.Segmentation
import Mathlib.Data.List.Forall2

/-!
# The attribution of answers

Where the frame comes from that an answer handler is given.  Frames carry nothing that relates
an answer to a request, so the next frame that comes in after a request has been written is
taken for its answer.  As long as all messages are encoded in at most 256 bytes, that frame is
one message that the other side has written, from its first byte to its last: one of its own
queue, or an answer it sent for a message that this side had written before.
-/

namespace HaierProtocol

open ProtocolHandler

/-- The packet a write puts on the line. -/
def Write.packet (w : Write) : Option Packet := w.message.packet w.useCrc

/-- The encoding is not longer than the encoder can count. -/
def Write.Fits (w : Write) : Prop := ∀ p ∈ w.packet, p.wire.length ≤ 256

instance (w : Write) : Decidable w.Fits :=
  inferInstanceAs (Decidable (∀ p ∈ w.packet, p.wire.length ≤ 256))

/-- The frame is that of the message written, and its last byte is the last of the message. -/
def Write.Conveys (ws : List Write) (w : Write) (a : Arrival) : Prop :=
  ∃ before after p, ws = before ++ w :: after ∧ w.packet = some p ∧ a.frame.frame = p.frame ∧
    a.stop = (before.flatMap Write.sent).length + p.wire.length

namespace Write

variable {ws : List Write} {w : Write} {a b : Arrival}

theorem Conveys.append (h : Conveys ws w a) (more : List Write) : Conveys (ws ++ more) w a := by
  obtain ⟨before, after, p, rfl, hrest⟩ := h
  exact ⟨before, after ++ more, p, by rw [List.append_assoc, List.cons_append], hrest⟩

theorem Conveys.of_prefix {ws' : List Write} (h : Conveys ws w a) (hws : ws <+: ws') :
    Conveys ws' w a := by
  obtain ⟨more, rfl⟩ := hws
  exact h.append more

theorem Conveys.mem (h : Conveys ws w a) : w ∈ ws := by
  obtain ⟨before, after, p, rfl, _⟩ := h
  exact List.mem_append_right _ List.mem_cons_self

/-- What a write puts on the line if its encoding fits. -/
theorem sent_eq (hbytes : ∃ block, w.bytes = bytesFor block w.message w.useCrc) (hfits : w.Fits) :
    w.sent = wires w.packet.toList := by
  obtain ⟨block, hbytes⟩ := hbytes
  rw [sent, hbytes, bytesFor, show w.message.packet w.useCrc = w.packet from rfl]
  cases hp : w.packet with
  | none => rfl
  | some p =>
    have hlen : ((List.range p.wire.length).map block).length = p.wire.length := by
      rw [List.length_map, List.length_range]
    show (HaierFrame.putBytes ((List.range p.wire.length).map block, 0) p.wire).1 = p.wire ++ []
    rw [HaierFrame.putBytes_whole (hfits p hp) (Nat.le_of_eq hlen.symm),
      List.drop_of_length_le (Nat.le_of_eq hlen)]

/-- The line carries the packets written and nothing else. -/
theorem flatMap_sent : ∀ {ws : List Write},
    (∀ w ∈ ws, ∃ block, w.bytes = bytesFor block w.message w.useCrc) → (∀ w ∈ ws, w.Fits) →
    ws.flatMap sent = wires (ws.filterMap packet)
  | [], _, _ => rfl
  | w :: rest, hbytes, hfits => by
    have hrest := flatMap_sent (fun v hv => hbytes v (List.mem_cons_of_mem w hv))
      (fun v hv => hfits v (List.mem_cons_of_mem w hv))
    rw [List.flatMap_cons, hrest,
      sent_eq (hbytes w List.mem_cons_self) (hfits w List.mem_cons_self), ← wires_append]
    cases hp : w.packet with
    | none => rw [List.filterMap_cons_none hp]; rfl
    | some p => rw [List.filterMap_cons_some hp]; rfl

/-- What decodes on the line is one of the messages written. -/
theorem conveys_of_decodes {stream : List UInt8} {start : Nat}
    (hbytes : ∀ w ∈ ws, ∃ block, w.bytes = bytesFor block w.message w.useCrc)
    (hfits : ∀ w ∈ ws, w.Fits) (hstream : stream <+: ws.flatMap sent)
    (h : Decodes stream start a.stop a.frame.frame) : ∃ w, Conveys ws w a := by
  rw [flatMap_sent hbytes hfits] at hstream
  obtain ⟨before, p, after, hpackets, rfl, hstop, hframe⟩ := decodes_wires h hstream
  obtain ⟨earlier, rest, rfl, rfl, hrest⟩ := List.filterMap_eq_append_iff.mp hpackets
  obtain ⟨silent, w, later, rfl, hsilent, hw, _⟩ := List.filterMap_eq_cons_iff.mp hrest
  have hpart : ∀ v ∈ earlier ++ silent, v ∈ earlier ++ (silent ++ w :: later) := by
    intro v hv
    rw [← List.append_assoc]
    exact List.mem_append_left _ hv
  refine ⟨w, earlier ++ silent, later, p, by rw [List.append_assoc], hw, hframe, ?_⟩
  rw [hstop, flatMap_sent (fun v hv => hbytes v (hpart v hv)) (fun v hv => hfits v (hpart v hv)),
    List.filterMap_append, List.filterMap_eq_nil_iff.mpr hsilent, List.append_nil]

/-- The frame is that of the message written at this place. -/
structure ConveysAt (ws : List Write) (i : Fin ws.length) (p : Packet) (a : Arrival) : Prop where
  packet : (ws.get i).packet = some p
  frame : a.frame.frame = p.frame
  stop : a.stop = ((ws.take i).flatMap sent).length + p.wire.length

theorem Conveys.exists_place (h : Conveys ws w a) : ∃ i p, ConveysAt ws i p a := by
  obtain ⟨before, after, p, rfl, hpacket, hframe, hstop⟩ := h
  have hlt : before.length < (before ++ w :: after).length := by
    rw [List.length_append, List.length_cons]
    omega
  refine ⟨⟨before.length, hlt⟩, p, ?_, hframe, ?_⟩
  · rw [List.get_eq_getElem, List.getElem_of_append rfl rfl]
    exact hpacket
  · rw [List.take_left]
    exact hstop

theorem ConveysAt.conveys {i : Fin ws.length} {p : Packet} (h : ConveysAt ws i p a) :
    Conveys ws (ws.get i) a :=
  ⟨ws.take i, ws.drop (i + 1), p, by rw [List.get_eq_getElem, List.getElem_cons_drop,
    List.take_append_drop], h.packet, h.frame, h.stop⟩

/-- Messages are on the line in the order in which they were written. -/
theorem ConveysAt.lt (hbytes : ∀ w ∈ ws, ∃ block, w.bytes = bytesFor block w.message w.useCrc)
    (hfits : ∀ w ∈ ws, w.Fits) {i j : Fin ws.length} {p q : Packet} (hi : ConveysAt ws i p a)
    (hj : ConveysAt ws j q b) (hlt : a.stop < b.stop) : i < j := by
  by_contra hle
  rcases Nat.eq_or_lt_of_le (Nat.not_lt.mp hle) with heq | hless
  · -- One message ends at one place.
    obtain rfl : j = i := Fin.ext heq
    obtain rfl : p = q := Option.some_inj.mp (hi.packet.symm.trans hj.packet)
    rw [hi.stop, hj.stop] at hlt
    exact Nat.lt_irrefl _ hlt
  · have hmem : ws.get j ∈ ws := ws.get_mem j
    have hsent : (ws.get j).sent.length = q.wire.length := by
      rw [sent_eq (hbytes _ hmem) (hfits _ hmem), hj.packet]
      exact congrArg List.length (List.append_nil q.wire)
    have htake : ws.take (j + 1) <+: ws.take i := List.take_prefix_take_left hless
    obtain ⟨more, hmore⟩ := htake
    have hlength : b.stop ≤ ((ws.take i).flatMap sent).length := by
      rw [hj.stop, ← hmore, List.flatMap_append, List.length_append,
        ← List.take_concat_get' ws j j.isLt, List.flatMap_append, List.length_append,
        List.flatMap_singleton]
      show _ ≤ _ + (ws.get j).sent.length + _
      omega
    rw [hi.stop] at hlt
    omega

/-- Frames that came in one after the other are messages that were written one after the
other. -/
theorem exists_sublist (hbytes : ∀ w ∈ ws, ∃ block, w.bytes = bytesFor block w.message w.useCrc)
    (hfits : ∀ w ∈ ws, w.Fits) {arrivals : List Arrival}
    (hordered : arrivals.Pairwise fun a b => a.stop < b.stop)
    (hall : ∀ a ∈ arrivals, ∃ w, Conveys ws w a) :
    ∃ given, given.Sublist ws ∧ List.Forall₂ (Conveys ws) given arrivals := by
  have hplaces : ∀ a ∈ arrivals, ∃ i p, ConveysAt ws i p a := fun a ha => by
    obtain ⟨w, hw⟩ := hall a ha
    exact hw.exists_place
  cases harrivals : arrivals with
  | nil => exact ⟨[], List.nil_sublist ws, .nil⟩
  | cons first rest =>
    obtain ⟨i, _⟩ := hplaces first (harrivals ▸ List.mem_cons_self)
    have : Nonempty (Fin ws.length) := ⟨i⟩
    choose! place hplace using hplaces
    rw [← harrivals]
    refine ⟨(arrivals.map place).map ws.get, List.map_getElem_sublist ?_, ?_⟩
    · refine List.pairwise_map.mpr (hordered.imp_of_mem fun ha hb hlt => ?_)
      obtain ⟨p, hp⟩ := hplace _ ha
      obtain ⟨q, hq⟩ := hplace _ hb
      exact hp.lt hbytes hfits hq hlt
    · rw [List.map_map, List.forall₂_map_left_iff, List.forall₂_same]
      intro a ha
      obtain ⟨p, hp⟩ := hplace a ha
      exact hp.conveys

end Write

namespace Endpoint

theorem Ledger.blocks {e : Endpoint} (h : Ledger e) :
    ∀ w ∈ writes e.trace, ∃ block, w.bytes = bytesFor block w.message w.useCrc := by
  intro w hw
  obtain ⟨block, hbytes, _⟩ := h.bytes w hw
  exact ⟨block, hbytes⟩

/-- A frame received on a line is a message that was written on it. -/
theorem Ledger.conveys {e other : Endpoint} (h : Ledger e) (hother : Ledger other)
    (hfits : ∀ w ∈ writes other.trace, w.Fits) (hline : e.received <+: other.output)
    {a : Arrival} (ha : a.placed ∈ e.pushed) : ∃ w, Write.Conveys (writes other.trace) w a := by
  obtain ⟨start, hdecodes⟩ := h.line.pushed_spec.1 a.placed ha
  rw [hother.output] at hline
  exact Write.conveys_of_decodes hother.blocks hfits hline hdecodes

/-- What handlers are given are messages of the other side, in the order of its writes. -/
theorem Ledger.given {e other : Endpoint} (h : Ledger e) (hother : Ledger other)
    (hfits : ∀ w ∈ writes other.trace, w.Fits) (hline : e.received <+: other.output) :
    ∃ given, given.Sublist (writes other.trace) ∧
      List.Forall₂ (Write.Conveys (writes other.trace)) given (arrivalsOf e.trace) := by
  refine Write.exists_sublist hother.blocks hfits h.arrivals_increase fun a ha => ?_
  obtain ⟨event, hmem, harrival⟩ := List.mem_filterMap.mp ha
  exact h.conveys hother hfits hline (h.placed_mem hmem harrival)

end Endpoint

/-! ## Attribution -/

namespace Network

open Endpoint

/-- The frame is a message of the peer's own queue, or the answer that a message handler of the
peer sent for something this side had written. -/
def Attributed (before : List Event) (peer : Endpoint) (a : Arrival) : Prop :=
  ∃ w, Write.Conveys (writes peer.trace) w a ∧
    ((∃ id, w.origin = .request id) ∨
      ∃ b handler v, w.origin = .answer (some b) ∧ .invoked (.message handler b) ∈ peer.trace ∧
        Write.Conveys (writes before) v b)

/-- All messages that have been written are short enough. -/
def Fits (n : Network) : Prop := ∀ side, ∀ w ∈ writes (n side).trace, w.Fits

theorem writes_mono {before trace : List Event} (h : before <+: trace) :
    writes before <+: writes trace := by
  obtain ⟨more, rfl⟩ := h
  rw [writes_append]
  exact List.prefix_append _ _

theorem Attributed.grow {before : List Event} {peer peer' : Endpoint} {a : Arrival}
    (h : Attributed before peer a) (htrace : peer.trace <+: peer'.trace) :
    Attributed before peer' a := by
  obtain ⟨w, hw, horigin⟩ := h
  refine ⟨w, hw.of_prefix (writes_mono htrace), horigin.imp_right ?_⟩
  rintro ⟨b, handler, v, hb, hmem, hv⟩
  exact ⟨b, handler, v, hb, htrace.subset hmem, hv⟩

/-- A frame that is taken now. -/
theorem attributed_now {e peer : Endpoint} {before : List Event} {a : Arrival} (h : Ledger e)
    (hpeer : Ledger peer) (hfits : ∀ w ∈ writes peer.trace, w.Fits) (ha : a.placed ∈ e.pushed)
    (hline : e.received <+: peer.output) {earlier : Endpoint} (hearlier : Ledger earlier)
    (hfits' : ∀ w ∈ writes earlier.trace, w.Fits) (hback : peer.received <+: earlier.output)
    (hbefore : earlier.trace <+: before) : Attributed before peer a := by
  obtain ⟨w, hw⟩ := h.conveys hpeer hfits hline ha
  refine ⟨w, hw, ?_⟩
  cases horigin : w.origin with
  | request id => exact .inl ⟨id, rfl⟩
  | answer processed =>
    obtain ⟨b, handler, rfl, hmem⟩ := hpeer.answers w hw.mem processed horigin
    obtain ⟨v, hv⟩ := hpeer.conveys hearlier hfits' hback (hpeer.placed_mem hmem rfl)
    exact .inr ⟨b, handler, v, rfl, hmem, hv.of_prefix (writes_mono hbefore)⟩

theorem attributed_run (cells : Side → Nat → UInt8) (bufferSize : Side → Nat)
    (env : Side → Surroundings) (steps : List Step) :
    let n := (start cells bufferSize).run env steps
    n.Fits → ∀ side before handler requestType request a after,
      (n side).trace = before ++ .invoked (.answer handler requestType request a) :: after →
        Attributed before (n side.peer) a := by
  induction steps using List.reverseRecOn with
  | nil =>
    intro n _ side before _ _ _ a after htrace
    exact absurd (congrArg List.length htrace) (by simp [n, start, run, Endpoint.start])
  | append_singleton steps s ih =>
    rw [run_snoc]
    intro n hfits side before handler requestType request a after htrace
    have hserved := served_run cells bufferSize env steps
    have hgrow := output_step env hserved s
    have hledger := ledger_run_side cells bufferSize env steps
    have hledger' := ledger_run_side cells bufferSize env (steps ++ [s])
    have hcarried := carried_run cells bufferSize env steps
    have hcarried' := carried_run cells bufferSize env (steps ++ [s])
    rw [run_snoc] at hledger' hcarried'
    have hfits' : ((start cells bufferSize).run env steps).Fits :=
      fun side' w hw => hfits side' w ((writes_mono (hgrow side').2).subset hw)
    have hold : ∀ after', ((start cells bufferSize).run env steps side).trace =
        before ++ .invoked (.answer handler requestType request a) :: after' →
          Attributed before (n side.peer) a :=
      fun after' h => (ih hfits' _ _ _ _ _ _ after' h).grow (hgrow side.peer).2
    have hwhole : before ++ [.invoked (.answer handler requestType request a)] <+: (n side).trace :=
      ⟨after, by rw [htrace, List.append_assoc, List.singleton_append]⟩
    rcases List.prefix_or_prefix_of_prefix hwhole (hgrow side).2 with ⟨after', h⟩ | h
    · refine hold after' ?_
      rw [← h, List.append_assoc, List.singleton_append]
    · rcases List.prefix_concat_iff.mp h with h | h
      · exact hold [] h
      · -- The handler is called in this step, so this side makes it.
        have hside : side = s.side := by
          by_contra hne
          have hsame : n side = (start cells bufferSize).run env steps side := step_of_ne env _ hne
          have hlen := h.length_le
          rw [← hsame, htrace, List.length_append, List.length_cons] at hlen
          omega
        have hpeer : n side.peer = (start cells bufferSize).run env steps side.peer :=
          step_of_ne env _ (hside ▸ side.peer_ne)
        have hmem : .invoked (.answer handler requestType request a) ∈ (n side).trace := by
          rw [htrace]
          exact List.mem_append_right _ List.mem_cons_self
        have hback := hcarried side.peer
        rw [side.peer_peer, ← hpeer] at hback
        exact attributed_now (hledger' side) (hledger' side.peer) (hfits side.peer)
          ((hledger' side).placed_mem hmem rfl) ((List.prefix_append _ _).trans (hcarried' side))
          (hledger side) (hfits' side) ((List.prefix_append _ _).trans hback) h

/-- In every run of two connected endpoints whose messages are all encoded in at most 256 bytes:
when an answer handler is called, this side has written the pending request last, and the frame,
which came in later, is a message of the peer's own queue or the answer that a message handler of
the peer sent for something this side had written.  Handlers of either kind are given messages of
the peer, in the order in which they were written and each at most once. -/
theorem network_attributes (cells : Side → Nat → UInt8) (bufferSize : Side → Nat)
    (env : Side → Surroundings) (steps : List Step)
    (hfits : ((start cells bufferSize).run env steps).Fits) :
    let n := (start cells bufferSize).run env steps
    ∀ side, (arrivalsOf (n side).trace).Pairwise (fun a b => a.stop < b.stop) ∧
      (∃ given, given.Sublist (writes (n side.peer).trace) ∧ List.Forall₂
        (Write.Conveys (writes (n side.peer).trace)) given (arrivalsOf (n side).trace)) ∧
      ∀ before handler requestType request a after,
        (n side).trace = before ++ .invoked (.answer handler requestType request a) :: after →
          (∃ r id, request = some id ∧ (writes before).getLast? = some r ∧
            r.origin = .request id ∧ r.message.frameType = requestType ∧ r.loop < a.loop) ∧
          Attributed before (n side.peer) a := by
  intro n side
  have hledger := ledger_run_side cells bufferSize env steps
  have hline : (n side).received <+: (n side.peer).output :=
    (List.prefix_append _ _).trans (carried_run cells bufferSize env steps side)
  refine ⟨(hledger side).arrivals_increase,
    (hledger side).given (hledger side.peer) (hfits side.peer) hline, ?_⟩
  intro before handler requestType request a after htrace
  obtain ⟨d, hd⟩ := served_run cells bufferSize env steps side
  exact ⟨answered_later hd.replays htrace,
    attributed_run cells bufferSize env steps hfits side _ _ _ _ _ _ htrace⟩

/-! ## A report taken for an answer -/

/-- The frame is the answer that a message handler of the peer sent for the request. -/
def Answers (before : List Event) (peer : Endpoint) (request : Option Nat) (a : Arrival) : Prop :=
  ∃ w b handler v id, Write.Conveys (writes peer.trace) w a ∧ w.origin = .answer (some b) ∧
    .invoked (.message handler b) ∈ peer.trace ∧ Write.Conveys (writes before) v b ∧
    request = some id ∧ v.origin = .request id

/-- One side sends a request while a report of the other is on its way. -/
def crossing : List Step :=
  [.call .left (.sendMessage ⟨0x61, noSubcommand, []⟩ true 0 0), .loop .left fun _ => [],
    .call .right (.sendMessageWithoutAnswer ⟨0x06, noSubcommand, [1, 2]⟩ true),
    .loop .right fun _ => [], .deliver .left 100, .loop .left fun _ => []]

/-- The state after that, with clocks that stand still. -/
def crossed : Network :=
  (start (fun _ _ => 0) (fun _ => 251)).run (fun _ => ⟨fun _ => 0, fun _ _ => 0, fun _ _ => 0⟩)
    crossing

/-- The frame of the report. -/
def report : Arrival := (arrivalsOf (crossed .left).trace).headD ⟨⟨.empty, 0⟩, 0, 0⟩

theorem crossed_trace : (crossed .left).trace = (crossed .left).trace.take 9 ++
    .invoked (.answer .builtIn 0x61 (some 0) report) :: (crossed .left).trace.drop 10 := by
  decide +kernel

theorem crossed_not_answers :
    ¬∀ side before handler requestType request a after,
      (crossed side).trace = before ++ .invoked (.answer handler requestType request a) :: after →
        Answers before (crossed side.peer) request a := by
  intro h
  have hwrites : ∀ w ∈ writes (crossed .right).trace, w.origin = .request 0 := by decide +kernel
  obtain ⟨w, _, _, _, _, hw, horigin, _⟩ := h .left _ _ _ _ _ _ crossed_trace
  rw [hwrites w hw.mem] at horigin
  cases horigin

/-- It is attributed to the message that the other side has queued. -/
theorem crossed_attributed :
    Attributed ((crossed .left).trace.take 9) (crossed .right) report := by
  have hfits : crossed.Fits := by
    intro side
    cases side <;> decide +kernel
  exact ((network_attributes _ _ _ crossing hfits .left).2.2 _ _ _ _ _ _ crossed_trace).2

end Network
end HaierProtocol
