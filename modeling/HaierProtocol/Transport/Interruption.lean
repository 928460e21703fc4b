import HaierProtocol.Transport.Resynchronisation
import HaierProtocol.Transport.StaleFrames

/-!
# Interrupted frames

A packet is cut short in its body, the line is silent for longer than the frame timeout, and
then another packet arrives.  No status ever passes the test that guards the timeout, so the
handler goes on collecting the first body.  It gives the body up when enough logical bytes have
arrived to complete it: then the separators of the second packet show, and that packet is
received after all.  `frameTimeout_iff` says exactly when this happens.
-/

namespace HaierProtocol

open Stuffing (stuff unstuff accepted completed)
open TransportLevelHandler

structure Interruption where
  cells : Nat → UInt8
  bufferSize : Nat
  /-- The packet that is cut short, and what arrives of it. -/
  packet : Packet
  part : List UInt8
  isPrefix : part <+: packet.wire
  proper : part.length < packet.wire.length
  header_le : packet.headWire.length ≤ part.length
  /-- The packet that arrives complete. -/
  next : Packet
  chunks : List Chunk
  later : List Chunk
  stream_chunks : Chunk.stream chunks = part
  stream_later : Chunk.stream later = next.wire
  fits : (ofBufferSize cells bufferSize).Fits (chunks ++ later)
  /-- Only calls that find nothing to read come between the two packets. -/
  pause : ∀ c ∈ chunks, c.bytes ≠ [] → ∀ d ∈ later, d.now - c.now > milliseconds frameTimeout

namespace Interruption

variable (s : Interruption)

def start : History := .start s.cells s.bufferSize

def calls : List Call := feedCalls (s.chunks ++ s.later)

/-- The second packet has been received. -/
def Recovers : Prop :=
  s.next.frame ∈ (s.start.run s.calls).handler.incomingQueue.map TimestampedFrame.frame

/-- The logical bytes of the first body that have not arrived. -/
def missing : Nat :=
  s.packet.body.length - completed 0xFF (s.part.drop s.packet.headWire.length)

/-- Still collecting the first packet's body. -/
structure Stale (r : Receiver) : Prop where
  found : r.found = true
  frame : r.frame = s.packet.headerFrame
  front : r.front = s.packet.headWire.length
  log : r.log = []

/-- The first body has been given up. -/
inductive Resumed (r : Receiver) : Prop where
  | hunting (hfound : r.found = false) (hnear : s.part.length ≤ r.front + 1)
      (hfront : r.front ≤ s.part.length) (hmarks : ∀ i, i < r.pos → r.byteAt i = 0xFF)
  | collecting (hc : Collecting s.next s.part.length r)
  | received (hlog : ⟨s.next.frame, s.part.length + s.next.wire.length⟩ ∈ r.log)

/-- Enough logical bytes have arrived to complete the first body. -/
def Reaches : Prop :=
  s.packet.body.length ≤
    completed 0xFF (s.part.drop s.packet.headWire.length) + completed 0xFF s.next.wire

variable {s} {r r' : Receiver}

theorem drop_stream (hstream : r.stream = s.part ++ s.next.wire) :
    r.stream.drop s.part.length ++ [] = s.next.wire ++ [] := by
  rw [hstream, List.drop_left]

theorem drop_stream_body (hstream : r.stream = s.part ++ s.next.wire) :
    r.stream.drop s.packet.headWire.length =
      s.part.drop s.packet.headWire.length ++ s.next.wire := by
  rw [hstream, List.drop_append_of_le_length s.header_le]

/-- What arrived of the first body is the beginning of its encoding. -/
theorem bodyWire_eq : ∃ more, more ≠ [] ∧
    stuff 0xFF 0x55 s.packet.body = s.part.drop s.packet.headWire.length ++ more := by
  obtain ⟨more, hmore⟩ := s.isPrefix
  refine ⟨more, ?_, ?_⟩
  · intro hnil
    have := congrArg List.length hmore
    have := s.proper
    rw [hnil, List.append_nil] at hmore
    rw [hmore] at this
    omega
  · have hdrop := congrArg (List.drop s.packet.headWire.length) hmore
    rw [List.drop_append_of_le_length s.header_le, s.packet.wire_eq, List.drop_left] at hdrop
    exact hdrop.symm

/-- It does not complete the body. -/
theorem completed_part_lt :
    completed 0xFF (s.part.drop s.packet.headWire.length) < s.packet.body.length := by
  obtain ⟨more, hne, hsplit⟩ := s.bodyWire_eq
  exact Stuffing.completed_lt (by decide) hsplit hne

theorem stale_move (hinv : r.Inv) (hr : r.ready = true) (hm : r.Move r')
    (hstream : r.stream = s.part ++ s.next.wire) (h : s.Stale r) :
    s.Stale r' ∨ s.Reaches ∧ s.Resumed r' := by
  have hmark := markedAt_of_wire (drop_stream hstream)
  have hle := s.header_le
  have hfront : r.front + 0 ≤ s.part.length := by
    rw [h.front]
    exact hle
  have hstatus : r.frame.status = .frameHeaderOnly := by rw [h.frame]; rfl
  have hseen := Sound.seen_prefix (r := r)
  rw [h.front, drop_stream_body hstream] at hseen
  have hbody : r.frame.bodySize = s.packet.body.length := by
    rw [h.frame, s.packet.bodySize_headerFrame]
  have hpart := s.completed_part_lt
  -- The body is complete only when bytes of the second packet have been counted.
  have hbeyond : completed 0xFF r.seen = r.frame.bodySize → s.part.length ≤ r.front + r.pos := by
    intro hlast
    by_contra hshort
    have hpre : r.seen <+: s.part.drop s.packet.headWire.length := by
      refine List.prefix_of_prefix_length_le hseen (List.prefix_append _ _) ?_
      rw [Receiver.length_seen hr, List.length_drop, ← h.front]
      omega
    have := Stuffing.completed_mono 0xFF hpre
    omega
  obtain ⟨hf, _⟩ | ⟨_, he, _⟩ | ⟨_, _, hm⟩ := hm
  · exact absurd (hf.symm.trans h.found) (by decide)
  · exact absurd (h.frame.symm.trans he) (Collecting.headerFrame_ne_empty _)
  · cases hm with
    | byte => exact .inl ⟨h.found, h.frame, h.front, h.log⟩
    | escape hlast =>
      have hmost := OnTrack.rewind_le hr hmark hfront (Nat.zero_le _)
      rw [List.drop_zero, Nat.zero_add] at hmost
      have hreach := Stuffing.completed_mono 0xFF hseen
      rw [Stuffing.completed_append, hlast, hbody] at hreach
      refine .inr ⟨hreach, .hunting rfl ?_ hmost (fun i hi => absurd hi (Nat.not_lt_zero i))⟩
      show s.part.length ≤ r.front + (accepted 0xFF 0x55 false r.seen - 1) + 1
      obtain ⟨more, _, hsplit⟩ := s.bodyWire_eq
      obtain ⟨unseen, hunseen⟩ := hseen
      have hend := hbeyond hlast
      rw [h.front] at hend ⊢
      have htake : r.seen.take (s.part.drop s.packet.headWire.length).length =
          s.part.drop s.packet.headWire.length := by
        have hlen : (s.part.drop s.packet.headWire.length).length ≤ r.seen.length := by
          rw [Receiver.length_seen hr, List.length_drop]
          omega
        have hcut := congrArg (List.take (s.part.drop s.packet.headWire.length).length) hunseen
        rwa [List.take_append_of_le_length hlen, List.take_left] at hcut
      have hleast := Stuffing.le_accepted_of_prefix hsplit htake
      rw [List.length_drop] at hleast
      omega
    | reject hlast hgood =>
      have := hbeyond hlast
      have := OnTrack.stop_le_start (k := 0) hmark hfront hgood (hinv.body_last hr hstatus hlast)
      omega
    | accept hlast hgood =>
      have := hbeyond hlast
      have := OnTrack.stop_le_start (k := 0) hmark hfront hgood (hinv.body_last hr hstatus hlast)
      omega

theorem resumed_move (hinv : r.Inv) (hr : r.ready = true) (hm : r.Move r')
    (hstream : r.stream = s.part ++ s.next.wire) (h : s.Resumed r) : s.Resumed r' := by
  have hcar := drop_stream hstream
  have hnext := hm.front_le
  cases h with
  | hunting hfound hnear hfront hmarks =>
    have hempty : r.frame.status = .frameEmpty := by rw [(hinv.of_seeking hfound).1]; rfl
    obtain ⟨_, hm⟩ | ⟨hf, _⟩ | ⟨hf, _⟩ := hm
    · have htrack := OnTrack.seekMove (p := s.next) hinv hfound hfront hmarks hm hr
        (markedAt_of_wire hcar)
      cases htrack with
      | hunting hfound' hfront' hmarks' => exact .hunting hfound' (by omega) hfront' hmarks'
      | header _ _ hfront' => omega
      | body _ hstatus' =>
        have hframe : r'.frame = r.frame := by cases hm <;> rfl
        rw [hframe, hempty] at hstatus'
        cases hstatus'
      | collecting hc => exact .collecting hc
      | received hlog => exact .received hlog
    · exact absurd (hfound.symm.trans hf) (by decide)
    · exact absurd (hfound.symm.trans hf) (by decide)
  | collecting hc =>
    rcases hc.move hinv hr hm hcar with ⟨hc', _⟩ | hfin
    · exact .collecting hc'
    · rw [hfin]
      exact .received (List.mem_append_right _ (List.mem_singleton_self _))
  | received hlog => exact .received (hm.mem_log hlog)

/-- A receiver that has given the first body up and looked at everything has the second packet. -/
theorem resumed_settled (hinv : r.Inv) (hr : r.ready = false)
    (hstream : r.stream = s.part ++ s.next.wire) (h : s.Resumed r) :
    ⟨s.next.frame, s.part.length + s.next.wire.length⟩ ∈ r.log := by
  have hend := Receiver.le_of_not_ready hr
  have hwire := s.next.le_length_wire
  have hlen := congrArg List.length hstream
  rw [List.length_append] at hlen
  cases h with
  | hunting hfound _ hfront =>
    have := (hinv.of_seeking hfound).2.2
    omega
  | collecting hc =>
    have := hc.not_settled hinv hr (drop_stream hstream)
    omega
  | received hlog => exact hlog

/-- One that has not had enough bytes is collecting the first body still. -/
theorem stale_settled (hinv : r.Inv) (hr : r.ready = false)
    (hstream : r.stream = s.part ++ s.next.wire) (h : s.Stale r) : ¬ s.Reaches := by
  have hstatus : r.frame.status = .frameHeaderOnly := by rw [h.frame]; rfl
  have hmore := (hinv.of_body hstatus).1
  rw [Receiver.window_of_settled hinv hr, h.front, drop_stream_body hstream, h.frame,
    s.packet.bodySize_headerFrame, Stuffing.completed_append] at hmore
  exact Nat.not_le_of_lt hmore

variable (s)

/-- The receiver at the end, and how it got there. -/
theorem settle_eq :
    let r := ((Receiver.fresh.push s.part).settle.push s.next.wire).settle
    (s.Stale r ∧ ¬ s.Reaches) ∨
      s.Reaches ∧ ⟨s.next.frame, s.part.length + s.next.wire.length⟩ ∈ r.log := by
  have htake : s.part = s.packet.wire.take s.part.length := (List.prefix_iff_eq_take.mp s.isPrefix)
  have hpush := Receiver.inv_push s.part Receiver.inv_fresh
  have hinv1 := Receiver.inv_settle hpush
  have hof := Collecting.of_take s.proper
  rw [← htake] at hof
  obtain ⟨hstream1, hc, hlog⟩ := hof
  have hcar : (Receiver.fresh.push s.part).settle.stream.drop 0 ++
      s.packet.wire.drop s.part.length = s.packet.wire ++ [] := by
    obtain ⟨more, hmore⟩ := s.isPrefix
    rw [hstream1, List.drop_zero, List.append_nil, ← hmore, List.drop_left]
  have hheader : 0 + s.packet.headWire.length ≤
      (Receiver.fresh.push s.part).settle.stream.length := by
    rw [hstream1, Nat.zero_add]
    exact s.header_le
  obtain ⟨hfound, hframe, hfront⟩ :=
    hc.body_of_settled hinv1 (Receiver.settle_not_ready hpush) hcar hheader
  rw [Nat.zero_add] at hfront
  have hinv2 := Receiver.inv_push s.next.wire hinv1
  have hstart : ((Receiver.fresh.push s.part).settle.push s.next.wire).stream =
      s.part ++ s.next.wire := congrArg (· ++ s.next.wire) hstream1
  obtain ⟨hstream, hend⟩ := Receiver.settle_moves
    (P := fun r => r.stream = s.part ++ s.next.wire ∧ (s.Stale r ∨ s.Reaches ∧ s.Resumed r))
    (fun hi hr hm hP => ⟨hm.stream_eq.trans hP.1, by
      rcases hP.2 with h | ⟨hreach, h⟩
      · exact stale_move hi hr hm hP.1 h
      · exact .inr ⟨hreach, resumed_move hi hr hm hP.1 h⟩⟩)
    hinv2 ⟨hstart, .inl ⟨hfound, hframe, hfront, hlog⟩⟩
  have hinv := Receiver.inv_settle hinv2
  have hr := Receiver.settle_not_ready hinv2
  rcases hend with h | ⟨hreach, h⟩
  · exact .inl ⟨h, stale_settled hinv hr hstream h⟩
  · exact .inr ⟨hreach, resumed_settled hinv hr hstream h⟩

theorem reaches_iff : s.Reaches ↔ s.missing ≤ s.next.logical.length + s.next.trailer.length := by
  rw [Reaches, missing, completed_wire]
  omega

theorem stream_eq : Chunk.stream (s.chunks ++ s.later) = s.part ++ s.next.wire := by
  rw [Chunk.stream, List.flatMap_append, ← s.stream_chunks, ← s.stream_later]
  rfl

/-- Two packets are little for any buffer. -/
theorem storesLittle : s.start.StoresLittle s.calls := by
  refine History.storesLittle_of_arrived s.cells s.bufferSize ?_
  rw [calls, History.bytes_feedCalls, s.stream_eq, List.length_append]
  have hpart := s.proper
  have hpacket := s.packet.length_wire_le
  have hnext := s.next.length_wire_le
  have hpayload := s.packet.payload_le
  have hpayload' := s.next.payload_le
  omega

theorem recovers_iff_reaches : s.Recovers ↔ s.Reaches := by
  have hmatch := (MatchesFed.start s.cells s.bufferSize).feed _ s.fits
  have htaken := Receiver.settle_taken
    (Receiver.inv_push (Chunk.stream (s.chunks ++ s.later)) Receiver.inv_fresh)
  rw [Recovers, start, calls, hmatch.tracks.map_frame htaken, s.stream_eq, ← push_push,
    ← Receiver.settle_push _ (Receiver.inv_push s.part Receiver.inv_fresh)]
  rcases s.settle_eq with ⟨hstale, hno⟩ | ⟨hreach, hlog⟩
  · rw [hstale.log]
    exact iff_of_false List.not_mem_nil hno
  · exact iff_of_true (List.mem_map_of_mem hlog) hreach

end Interruption

/-- After the pause the second packet is received, and no call leaves a frame in the making whose
start was seen more than the frame timeout before, exactly when two things hold.  The second packet
has at least as many logical bytes as the first body lacks, however long the pause, and no call that
comes later than the timeout finds stored all of a header but not all of the body.  In any other
run, too, it is the calls that have to come in time. -/
theorem frameTimeout_iff (s : Interruption) :
    (s.start.runChecked s.calls = .ok (s.start.run s.calls) ∧
      (s.Recovers ∧ s.start.Prompt s.calls ↔
        s.missing ≤ s.next.logical.length + s.next.trailer.length ∧ s.start.Punctual s.calls)) ∧
    ∀ (cells : Nat → UInt8) (bufferSize : Nat) (calls : List Call),
      (History.start cells bufferSize).StoresLittle calls →
        (History.start cells bufferSize).runChecked calls =
          .ok ((History.start cells bufferSize).run calls) ∧
        ((History.start cells bufferSize).Prompt calls ↔
          (History.start cells bufferSize).Punctual calls) := by
  constructor
  · exact ⟨History.runChecked_ok s.storesLittle,
      and_congr (s.recovers_iff_reaches.trans s.reaches_iff) (History.prompt_iff _ _ _)⟩
  · intro cells bufferSize calls hsmall
    exact ⟨History.runChecked_ok hsmall, History.prompt_iff cells bufferSize calls⟩

/-- A header that promises twenty bytes, a second of silence, and a packet without payload. -/
def interruptedHeader : Interruption where
  cells := fun _ => 0
  bufferSize := defaultBufferSize
  packet := ⟨0x01, List.replicate 20 0, false, by decide⟩
  part := [0xFF, 0xFF, 28, 0, 0, 0, 0, 0, 0, 0x01]
  isPrefix := by decide +kernel
  proper := by decide +kernel
  header_le := by decide +kernel
  next := ⟨0x02, [], false, by decide⟩
  chunks := [⟨[0xFF, 0xFF, 28, 0, 0, 0, 0, 0, 0, 0x01], 0⟩]
  later := [⟨[0xFF, 0xFF, 8, 0, 0, 0, 0, 0, 0, 0x02, 10], milliseconds 1000⟩]
  stream_chunks := by decide +kernel
  stream_later := by decide +kernel
  fits := by decide +kernel
  pause := by decide +kernel

theorem frameTimeout_iff_interruptedHeader :
    (History.start (fun _ => 0) defaultBufferSize).runChecked interruptedHeader.calls =
        .ok ((History.start (fun _ => 0) defaultBufferSize).run interruptedHeader.calls) ∧
      ((History.start (fun _ => 0) defaultBufferSize).Prompt interruptedHeader.calls ↔
        (History.start (fun _ => 0) defaultBufferSize).Punctual interruptedHeader.calls) :=
  (frameTimeout_iff interruptedHeader).2 (fun _ => 0) defaultBufferSize interruptedHeader.calls
    (History.storesLittle_of_lt _ (by decide) _)

theorem interruptedHeader_not_recovers :
    ¬ ∀ s : Interruption, s.Recovers ∧ s.start.Prompt s.calls := by
  intro hall
  have hreach := interruptedHeader.recovers_iff_reaches.mp (hall interruptedHeader).1
  rw [Interruption.reaches_iff] at hreach
  exact absurd hreach (by decide +kernel)

end HaierProtocol
