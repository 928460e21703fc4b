import HaierProtocol.Transport.Chunking
import HaierProtocol.Transport.Collecting

/-!
# Resynchronisation

A packet that lies whole in the stream is not lost to what comes before it.  `OnTrack` says
that a receiver has not passed the packet's beginning, or is collecting it, or has accepted it.
A false frame that runs into the packet meets its two separators, where every correct escape
is missing, and the rewind stops no later than at the first of them (`rewind_le`).
-/

namespace HaierProtocol

open Stuffing (stuff unstuff accepted completed)

/-- What stands at the beginning of a packet. -/
structure MarkedAt (stream : List UInt8) (start : Nat) : Prop where
  first : stream[start]? = some 0xFF
  second : stream[start + 1]? = some 0xFF
  third : stream[start + 2]? ≠ some 0xFF

theorem markedAt_of_wire {stream rest : List UInt8} {start : Nat} {p : Packet}
    (h : stream.drop start ++ [] = p.wire ++ rest) : MarkedAt stream start := by
  rw [List.append_nil, p.wire_cons] at h
  have hget : ∀ i, stream[start + i]? = (stream.drop start)[i]? :=
    fun i => (List.getElem?_drop ..).symm
  refine ⟨?_, ?_, ?_⟩
  · have h0 := hget 0
    rw [h] at h0
    exact h0
  · have h1 := hget 1
    rw [h] at h1
    exact h1
  · have h2 := hget 2
    rw [h] at h2
    rw [h2]
    exact fun he => p.lengthByte_ne (Option.some_inj.mp he)

inductive OnTrack (p : Packet) (start : Nat) (r : Receiver) : Prop where
  | hunting (hfound : r.found = false) (hfront : r.front ≤ start)
      (hmarks : ∀ i, i < r.pos → r.byteAt i = 0xFF)
  | header (hfound : r.found = true) (hframe : r.frame = .empty) (hfront : r.front + 3 ≤ start)
  | body (hfound : r.found = true) (hstatus : r.frame.status = .frameHeaderOnly)
      (hfront : r.front ≤ start)
  | collecting (hc : Collecting p start r)
  | received (hlog : ⟨p.frame, start + p.wire.length⟩ ∈ r.log)

namespace OnTrack

variable {r r' : Receiver} {p : Packet} {start : Nat} {rest : List UInt8}

theorem byteAt_of_getElem? {i : Nat} {b : UInt8} (h : r.stream[r.front + i]? = some b) :
    r.byteAt i = b := by
  rw [Receiver.byteAt, List.getD_eq_getElem?_getD, h]
  rfl

/-- The bytes seen from the `k`-th on, by their place in the stream. -/
theorem getElem?_seen {k i : Nat} (hi : k + i ≤ r.pos) :
    (r.seen.drop k)[i]? = r.stream[r.front + k + i]? := by
  rw [List.getElem?_drop, Receiver.seen, Receiver.window, List.getElem?_take_of_lt (by omega),
    List.getElem?_drop, Nat.add_assoc]

/-- A rewind gives up nothing from the packet's beginning on. -/
theorem rewind_le (hr : r.ready = true) (hmark : MarkedAt r.stream start) {k : Nat}
    (hk : r.front + k ≤ start) (hpos : k ≤ r.pos) :
    r.front + (k + accepted 0xFF 0x55 false (r.seen.drop k) - 1) ≤ start := by
  by_cases hreach : r.front + r.pos ≤ start
  · have hle := Stuffing.accepted_le 0xFF 0x55 false (r.seen.drop k)
    rw [List.length_drop, Receiver.length_seen hr] at hle
    omega
  · -- Both separators have been seen.
    have h1 := getElem?_seen (r := r) (k := k) (i := start - r.front - k) (by omega)
    have h2 := getElem?_seen (r := r) (k := k) (i := start - r.front - k + 1) (by omega)
    rw [show r.front + k + (start - r.front - k) = start by omega, hmark.first] at h1
    rw [show r.front + k + (start - r.front - k + 1) = start + 1 by omega, hmark.second] at h2
    have := (Stuffing.unstuff_pair_at (show (0x55 : UInt8) ≠ 0xFF by decide) h1 h2 false).2
    omega

/-- What has been read without an error ends before the packet. -/
theorem stop_le_start (hmark : MarkedAt r.stream start) {k : Nat}
    (hk : r.front + k ≤ start) {word : List UInt8}
    (hgood : unstuff 0xFF 0x55 false (r.seen.drop k) = some word) (hlast : r.byteAt r.pos ≠ 0xFF) :
    r.front + (r.pos + 1) ≤ start := by
  by_contra hreach
  by_cases hend : r.front + r.pos = start
  · exact hlast (byteAt_of_getElem? (by rw [hend]; exact hmark.first))
  · have h1 := getElem?_seen (r := r) (k := k) (i := start - r.front - k) (by omega)
    have h2 := getElem?_seen (r := r) (k := k) (i := start - r.front - k + 1) (by omega)
    rw [show r.front + k + (start - r.front - k) = start by omega, hmark.first] at h1
    rw [show r.front + k + (start - r.front - k + 1) = start + 1 by omega, hmark.second] at h2
    have := (Stuffing.unstuff_pair_at (show (0x55 : UInt8) ≠ 0xFF by decide) h1 h2 false).1
    rw [hgood] at this
    cases this

/-- A receiver that has given up bytes short of the packet hunts again. -/
theorem of_reset (hfront : r.front ≤ start) (hfound : r.found = false) (hpos : r.pos = 0) :
    OnTrack p start r :=
  .hunting hfound hfront (fun i hi => by omega)

theorem seekMove (hinv : r.Inv) (hfound : r.found = false) (hfront : r.front ≤ start)
    (hmarks : ∀ i, i < r.pos → r.byteAt i = 0xFF) (hm : r.SeekMove r') (hr : r.ready = true)
    (hmark : MarkedAt r.stream start) : OnTrack p start r' := by
  obtain ⟨hframe, _, hpos⟩ := hinv.of_seeking hfound
  have hfirst : r.byteAt r.pos ≠ 0xFF → r.front + r.pos ≠ start := by
    intro hb h
    exact hb (byteAt_of_getElem? (by rw [h]; exact hmark.first))
  have hsecond : r.byteAt r.pos ≠ 0xFF → r.front + r.pos ≠ start + 1 := by
    intro hb h
    exact hb (byteAt_of_getElem? (by rw [h]; exact hmark.second))
  cases hm with
  | mark hbyte =>
    refine .hunting hfound ?_ ?_
    · show r.front + (r.pos + 1 - 2) ≤ start
      by_contra hpast
      have hplace : r.front + r.pos = start + 2 := by omega
      refine hmark.third ?_
      have hlt := Receiver.ready_iff.mp hr
      rw [← hplace, List.getElem?_eq_getElem hlt]
      rw [Receiver.byteAt, List.getD_eq_getElem?_getD, List.getElem?_eq_getElem hlt] at hbyte
      exact congrArg some hbyte
    · intro i hi
      have hi : i < r.pos + 1 - (r.pos + 1 - 2) := hi
      show r.stream.getD (r.front + (r.pos + 1 - 2) + i) 0 = 0xFF
      rw [Nat.add_assoc]
      by_cases hcur : r.pos + 1 - 2 + i = r.pos
      · rw [hcur]
        exact hbyte
      · exact hmarks (r.pos + 1 - 2 + i) (by omega)
  | start hbyte hp =>
    have h1 := hfirst hbyte
    have h2 := hsecond hbyte
    by_cases hat : r.front = start
    · exact .collecting (.header rfl hframe hat)
    · refine .header rfl hframe ?_
      show r.front + 3 ≤ start
      omega
  | garbage hbyte hp =>
    have h1 := hfirst hbyte
    have h2 := hsecond hbyte
    refine of_reset ?_ hfound rfl
    show r.front + (r.pos + 1) ≤ start
    omega

theorem headerMove (hinv : r.Inv) (hr : r.ready = true) (hfound : r.found = true)
    (hframe : r.frame = .empty) (hfront : r.front + 3 ≤ start) (hm : r.HeaderMove r')
    (hmark : MarkedAt r.stream start) : OnTrack p start r' := by
  have hpos := (hinv.of_header hfound hframe).1
  cases hm with
  | byte => exact .header hfound hframe hfront
  | escape => exact of_reset (rewind_le hr hmark hfront hpos) rfl rfl
  | reject hlast hgood =>
    exact of_reset (stop_le_start hmark hfront hgood
      (hinv.header_last hr hfound hframe hlast)) rfl rfl
  | accept hlast hgood herr =>
    have hle := stop_le_start hmark hfront hgood (hinv.header_last hr hfound hframe hlast)
    obtain ⟨header, _, _, _, _, hof⟩ := HaierFrame.parseBuffer_headerOnly herr
    refine .body hfound ?_ hle
    show ((HaierFrame.empty.parseBuffer _).1).status = _
    rw [hof]
    rfl

theorem bodyMove (hinv : r.Inv) (hr : r.ready = true) (hfound : r.found = true)
    (hstatus : r.frame.status = .frameHeaderOnly) (hfront : r.front ≤ start) (hm : r.BodyMove r')
    (hmark : MarkedAt r.stream start) : OnTrack p start r' := by
  have hrewind := rewind_le hr hmark (k := 0) hfront (Nat.zero_le _)
  have hstop : ∀ word, unstuff 0xFF 0x55 false (r.seen.drop 0) = some word → r.byteAt r.pos ≠ 0xFF →
      r.front + (r.pos + 1) ≤ start := fun _ => stop_le_start hmark hfront
  rw [List.drop_zero, Nat.zero_add] at hrewind
  rw [List.drop_zero] at hstop
  cases hm with
  | byte => exact .body hfound hstatus hfront
  | escape => exact of_reset hrewind rfl rfl
  | reject hlast hgood => exact of_reset (hstop _ hgood (hinv.body_last hr hstatus hlast)) rfl rfl
  | accept hlast hgood => exact of_reset (hstop _ hgood (hinv.body_last hr hstatus hlast)) rfl rfl

theorem move (hinv : r.Inv) (hr : r.ready = true) (hm : r.Move r')
    (hcar : r.stream.drop start ++ [] = p.wire ++ rest) (h : OnTrack p start r) :
    OnTrack p start r' := by
  have hmark := markedAt_of_wire hcar
  cases h with
  | hunting hfound hfront hmarks =>
    obtain ⟨_, hm⟩ | ⟨hf, _⟩ | ⟨hf, _⟩ := hm
    · exact seekMove hinv hfound hfront hmarks hm hr hmark
    · exact absurd (hfound.symm.trans hf) (by decide)
    · exact absurd (hfound.symm.trans hf) (by decide)
  | header hfound hframe hfront =>
    obtain ⟨hf, _⟩ | ⟨_, _, hm⟩ | ⟨_, hs, _⟩ := hm
    · exact absurd (hf.symm.trans hfound) (by decide)
    · exact headerMove hinv hr hfound hframe hfront hm hmark
    · rw [hframe] at hs
      cases hs
  | body hfound hstatus hfront =>
    obtain ⟨hf, _⟩ | ⟨_, he, _⟩ | ⟨_, _, hm⟩ := hm
    · exact absurd (hf.symm.trans hfound) (by decide)
    · rw [he] at hstatus
      cases hstatus
    · exact bodyMove hinv hr hfound hstatus hfront hm hmark
  | collecting hc =>
    rcases hc.move hinv hr hm hcar with ⟨hc', _⟩ | hfin
    · exact .collecting hc'
    · rw [hfin]
      exact .received (List.mem_append_right _ (List.mem_singleton_self _))
  | received hlog => exact .received (hm.mem_log hlog)

end OnTrack

/-! ## Settled receivers -/

/-- A settled receiver has seen all it holds. -/
theorem completed_wire (p : Packet) :
    completed 0xFF p.wire = p.logical.length + p.trailer.length := by
  rw [Packet.wire, Stuffing.completed_append, Stuffing.completed_stuff (by decide),
    List.length_append]
  exact Nat.zero_add _

/-- The logical bytes from one place of the stream on include those from a later one on. -/
theorem completed_drop_mono (stream : List UInt8) {m n : Nat} (h : m ≤ n) :
    completed 0xFF (stream.drop n) ≤ completed 0xFF (stream.drop m) := by
  have hle := Stuffing.completed_drop_le (0xFF : UInt8) (stream.drop m) (n - m)
  rwa [List.drop_drop, Nat.add_sub_cancel' h] at hle

/-- A receiver that is on track and has looked at enough has accepted the packet. -/
theorem OnTrack.settled {r : Receiver} {p : Packet} {start : Nat} {rest : List UInt8}
    (hinv : r.Inv) (hr : r.ready = false) (hcar : r.stream.drop start ++ [] = p.wire ++ rest)
    (hrest : 300 ≤ completed 0xFF rest) (h : OnTrack p start r) :
    ⟨p.frame, start + p.wire.length⟩ ∈ r.log := by
  have hwindow := Receiver.window_of_settled hinv hr
  have hlen := congrArg List.length hcar
  have hcount : completed 0xFF (r.stream.drop start) =
      p.logical.length + p.trailer.length + completed 0xFF rest := by
    rw [List.append_nil] at hcar
    rw [hcar, Stuffing.completed_append, completed_wire]
  have hcursor := hinv.cursor_le
  have hend := Receiver.le_of_not_ready hr
  have hwire := p.le_length_wire
  rw [List.append_nil, List.length_drop, List.length_append] at hlen
  cases h with
  | hunting hfound hfront _ =>
    have := (hinv.of_seeking hfound).2.2
    omega
  | header hfound hframe hfront =>
    have hmore := (hinv.of_header hfound hframe).2.2
    rw [hwindow, List.drop_drop] at hmore
    have := completed_drop_mono r.stream (show r.front + 2 ≤ start by omega)
    have := p.length_logical
    omega
  | body hfound hstatus hfront =>
    obtain ⟨hmore, hsize⟩ := hinv.of_body hstatus
    rw [hwindow] at hmore
    have := completed_drop_mono r.stream hfront
    omega
  | collecting hc =>
    have := hc.not_settled hinv hr hcar
    omega
  | received hlog => exact hlog

/-- However a whole packet is surrounded, its own bytes make a frame in the queue, and the
frame is the packet's. -/
theorem feed_resync {cells : Nat → UInt8} {bufferSize : Nat} {chunks : List Chunk} {p : Packet}
    {before after : List UInt8} (hsize : bufferSize < 2 ^ 31)
    (hfit : (TransportLevelHandler.ofBufferSize cells bufferSize).Fits chunks)
    (hstream : Chunk.stream chunks = before ++ p.wire ++ after)
    (hafter : 300 ≤ after.countP (· ≠ 0xFF)) :
    ∃ s, (History.start cells bufferSize).runChecked (feedCalls chunks) = .ok s ∧
      ∃ (i : Nat) (frame : TimestampedFrame), s.handler.incomingQueue[i]? = some frame ∧
        frame.frame = p.frame ∧
        s.pushed[i]? = some (frame, before.length + p.wire.length) := by
  obtain ⟨s, hrun, h, _⟩ := runChecked_feedCalls hsize hfit
  refine ⟨s, hrun, ?_⟩
  rw [hstream] at h
  have hinv := Receiver.inv_push (before ++ p.wire ++ after) Receiver.inv_fresh
  have hcar : (before ++ p.wire ++ after).drop before.length ++ [] = p.wire ++ after := by
    rw [List.append_nil, List.append_assoc, List.drop_left]
  have htrack := Receiver.settle_moves
    (P := fun r => r.stream = before ++ p.wire ++ after ∧ OnTrack p before.length r)
    (fun hi hr hm hp => ⟨hm.stream_eq.trans hp.1, hp.2.move hi hr hm (hp.1 ▸ hcar)⟩) hinv
    ⟨List.nil_append _, OnTrack.of_reset (Nat.zero_le _) rfl rfl⟩
  obtain ⟨hsame, htrack⟩ := htrack
  have hlog := htrack.settled h.inv h.settled (by rw [hsame]; exact hcar) hafter
  have htaken := Receiver.settle_taken hinv
  obtain ⟨i, hi⟩ := List.mem_iff_getElem?.mp hlog
  refine ⟨i, ⟨p.frame, s.handler.frameStart⟩, ?_, rfl, ?_⟩
  · rw [h.tracks.queue, Receiver.queue, htaken]
    show ((List.map _ _).drop 0)[i]? = _
    rw [List.drop_zero, List.getElem?_map, hi]
    rfl
  · rw [h.pushed, List.getElem?_map, hi]
    rfl

/-- A packet behind a false start that claims a body of 200 bytes. -/
theorem feed_resync_falseStart :
    let p := Packet.mk 0x06 [0x01] true (by decide)
    let before : List UInt8 := [0x00, 0xFF, 0xFF, 0xFF, 0xD0, 0, 0, 0, 0, 0, 0, 0x01, 0xFF]
    let chunks : List Chunk := [⟨before ++ p.wire, 0⟩, ⟨List.replicate 300 0x00, 0⟩]
    ∃ s, (History.start (fun _ => 0) 400).runChecked (feedCalls chunks) = .ok s ∧
      ∃ (i : Nat) (frame : TimestampedFrame), s.handler.incomingQueue[i]? = some frame ∧
        frame.frame = p.frame ∧
        s.pushed[i]? = some (frame, before.length + p.wire.length) :=
  @feed_resync _ _ _ _ _ (List.replicate 300 0x00) (by decide) (by decide +kernel)
    (by decide +kernel) (by decide +kernel)

end HaierProtocol
