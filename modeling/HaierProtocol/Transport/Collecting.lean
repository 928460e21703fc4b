import HaierProtocol.Transport.Settling

/-!
# Collecting a packet

`Collecting p start r` says where a receiver stands that has the wire encoding of `p` in its
stream from `start` on and has come as far as its beginning.  From there every move stays
inside the encoding until the last one, which accepts the packet's frame and leaves the
receiver right behind it (`Collecting.move`).
-/

namespace HaierProtocol

open Stuffing (stuff unstuff accepted completed)

namespace Packet

/-- The separators and the header on the wire. -/
def headWire (p : Packet) : List UInt8 := [0xFF, 0xFF] ++ stuff 0xFF 0x55 p.header

/-- The body on the wire. -/
def bodyWire (p : Packet) : List UInt8 := stuff 0xFF 0x55 p.body

theorem wire_eq (p : Packet) : p.wire = p.headWire ++ p.bodyWire := by
  rw [wire, logical_append_trailer, Stuffing.stuff_append, headWire, bodyWire, List.append_assoc]

theorem length_headWire (p : Packet) :
    p.headWire.length = if p.frameType = 0xFF then 11 else 10 := by
  rw [headWire, List.length_append, Stuffing.length_stuff, length_header, count_header]
  split <;> rfl

theorem header_eq (p : Packet) : p.header = p.lengthByte :: p.header.tail := rfl

theorem stuff_header (p : Packet) :
    stuff 0xFF 0x55 p.header = p.lengthByte :: stuff 0xFF 0x55 p.header.tail := by
  rw [header_eq, stuff, if_neg p.lengthByte_ne]
  rfl

theorem wire_cons (p : Packet) :
    p.wire = 0xFF :: 0xFF :: p.lengthByte :: (stuff 0xFF 0x55 p.header.tail ++ p.bodyWire) := by
  rw [wire_eq, headWire, stuff_header]
  rfl

end Packet

namespace Receiver

variable {r r' : Receiver} {p : Packet} {start : Nat} {more rest : List UInt8}

/-- Windows show what the stream is known to hold. -/
theorem window_eq_take {word : List UInt8} (h : r.stream.drop r.front ++ more = word) {n : Nat}
    (hn : r.front + n ≤ r.stream.length) : r.window n = word.take n := by
  rw [← h, window, List.take_append_of_le_length]
  rw [List.length_drop]
  omega

theorem byteAt_eq {word : List UInt8} (h : r.stream.drop r.front ++ more = word) {i : Nat}
    (hi : r.front + i < r.stream.length) : word[i]? = some (r.byteAt i) := by
  rw [← getElem?_window (Nat.lt_succ_self i) hi, window_eq_take h hi,
    List.getElem?_take_of_lt (Nat.lt_succ_self i)]

end Receiver

/-- Where a receiver stands within a packet at `start`. -/
inductive Collecting (p : Packet) (start : Nat) (r : Receiver) : Prop where
  | marks (hfound : r.found = false) (hfront : r.front = start)
  | header (hfound : r.found = true) (hframe : r.frame = .empty) (hfront : r.front = start)
  | body (hfound : r.found = true) (hframe : r.frame = p.headerFrame)
      (hfront : r.front = start + p.headWire.length)

/-- The receiver after the packet's last byte. -/
def Receiver.finish (r : Receiver) (p : Packet) (start : Nat) : Receiver :=
  { r.reset with
    front := start + p.wire.length
    log := r.log ++ [⟨p.frame, start + p.wire.length⟩] }

namespace Collecting

variable {r r' : Receiver} {p : Packet} {start : Nat} {more rest : List UInt8}

theorem headerFrame_ne_empty (p : Packet) : p.headerFrame ≠ .empty := by
  intro h
  have hstatus : FrameStatus.frameHeaderOnly = .frameEmpty := congrArg HaierFrame.status h
  exact FrameStatus.noConfusion hstatus

/-- The bytes seen when the header is complete. -/
theorem seen_header (hinv : r.Inv) (hr : r.ready = true) (hfound : r.found = true)
    (hframe : r.frame = .empty) (hcar : r.stream.drop r.front ++ more = p.wire ++ rest)
    (hlast : completed 0xFF (r.seen.drop 2) = 8) : r.pos + 1 = p.headWire.length := by
  have hlt := Receiver.ready_iff.mp hr
  obtain ⟨hpos, _, hmore⟩ := hinv.of_header hfound hframe
  have hwire : (p.wire ++ rest).drop 2 = stuff 0xFF 0x55 p.header ++ (p.bodyWire ++ rest) := by
    rw [p.wire_eq, Packet.headWire]
    simp
  rw [Receiver.seen, Receiver.window_eq_take hcar hlt, List.drop_take, hwire] at hlast
  rw [Receiver.window_eq_take hcar (Nat.le_of_lt hlt), List.drop_take, hwire] at hmore
  have hlen := Stuffing.take_eq_stuff (n := r.pos - 2) (by decide) hmore
    (by rw [show r.pos - 2 + 1 = r.pos + 1 - 2 by omega]; exact hlast)
  rw [Packet.headWire, List.length_append, ← hlen]
  simp only [List.length_cons, List.length_nil]
  omega

/-- The bytes seen when the body is complete. -/
theorem seen_body (hinv : r.Inv) (hr : r.ready = true) (hframe : r.frame = p.headerFrame)
    (hcar : r.stream.drop r.front ++ more = p.bodyWire ++ rest)
    (hlast : completed 0xFF r.seen = r.frame.bodySize) : r.pos + 1 = p.bodyWire.length := by
  have hlt := Receiver.ready_iff.mp hr
  have hstatus : r.frame.status = .frameHeaderOnly := by rw [hframe]; rfl
  have hmore := (hinv.of_body hstatus).1
  rw [hframe, p.bodySize_headerFrame] at hlast hmore
  rw [Receiver.seen, Receiver.window_eq_take hcar hlt] at hlast
  rw [Receiver.window_eq_take hcar (Nat.le_of_lt hlt)] at hmore
  exact Stuffing.take_eq_stuff (by decide) hmore hlast

/-- The stream from the body on. -/
theorem drop_body (hcar : r.stream.drop start ++ more = p.wire ++ rest)
    (hle : start + p.headWire.length ≤ r.stream.length) :
    r.stream.drop (start + p.headWire.length) ++ more = p.bodyWire ++ rest := by
  have hdrop := congrArg (List.drop p.headWire.length) hcar
  rw [List.drop_append_of_le_length (by rw [List.length_drop]; omega), List.drop_drop, p.wire_eq,
    List.append_assoc, List.drop_left] at hdrop
  exact hdrop

theorem seekMove (hinv : r.Inv) (hr : r.ready = true) (hfound : r.found = false)
    (hfront : r.front = start) (hm : r.SeekMove r')
    (hcar : r.stream.drop start ++ more = p.wire ++ rest) :
    Collecting p start r' ∧ r'.log = r.log := by
  obtain ⟨hframe, _, hpos⟩ := hinv.of_seeking hfound
  rw [← hfront, p.wire_cons] at hcar
  have hbyte := Receiver.byteAt_eq hcar (Receiver.ready_iff.mp hr)
  cases hm with
  | mark hmark =>
    have hne : r.pos ≠ 2 := by
      intro h2
      rw [h2] at hbyte hmark
      exact p.lengthByte_ne ((Option.some_inj.mp hbyte).trans hmark)
    refine ⟨.marks hfound ?_, rfl⟩
    show r.front + (r.pos + 1 - 2) = start
    omega
  | start => exact ⟨.header rfl hframe hfront, rfl⟩
  | garbage hmark hne =>
    have h01 : r.pos = 0 ∨ r.pos = 1 := by omega
    rcases h01 with h | h
    · rw [h] at hbyte hmark
      exact absurd (Option.some_inj.mp hbyte).symm hmark
    · rw [h] at hbyte hmark
      exact absurd (Option.some_inj.mp hbyte).symm hmark

theorem headerMove (hinv : r.Inv) (hr : r.ready = true) (hfound : r.found = true)
    (hframe : r.frame = .empty) (hfront : r.front = start) (hm : r.HeaderMove r')
    (hcar : r.stream.drop start ++ more = p.wire ++ rest) :
    Collecting p start r' ∧ r'.log = r.log := by
  rw [← hfront] at hcar
  have hlt := Receiver.ready_iff.mp hr
  -- What has been seen when the header is complete, and what it stands for.
  have hseen : completed 0xFF (r.seen.drop 2) = 8 → r.seen = p.headWire := by
    intro hlast
    have hlen := seen_header hinv hr hfound hframe hcar hlast
    rw [Receiver.seen, Receiver.window_eq_take hcar hlt, hlen, p.wire_eq, List.append_assoc,
      List.take_left]
  have hdrop : p.headWire.drop 3 = stuff 0xFF 0x55 p.header.tail := by
    rw [Packet.headWire, p.stuff_header]
    rfl
  have htake : p.headWire.take 3 ++ p.header.tail = [0xFF, 0xFF] ++ p.header := by
    rw [Packet.headWire, p.stuff_header]
    rfl
  cases hm with
  | byte => exact ⟨.header hfound hframe hfront, rfl⟩
  | escape hlast hbad =>
    rw [hseen hlast, hdrop, Stuffing.unstuff_stuff] at hbad
    cases hbad
  | reject hlast hgood herr =>
    rw [hseen hlast, hdrop, Stuffing.unstuff_stuff, Option.some_inj] at hgood
    rw [hseen hlast, ← hgood, htake, p.parse_header] at herr
    exact absurd rfl herr
  | accept hlast hgood herr =>
    have hlen := congrArg List.length (hseen hlast)
    rw [Receiver.length_seen hr] at hlen
    rw [hseen hlast, hdrop, Stuffing.unstuff_stuff, Option.some_inj] at hgood
    rw [hseen hlast, ← hgood, htake, p.parse_header]
    refine ⟨.body hfound rfl ?_, rfl⟩
    show r.front + (r.pos + 1) = _
    rw [hfront, hlen]

theorem bodyMove (hinv : r.Inv) (hr : r.ready = true) (hfound : r.found = true)
    (hframe : r.frame = p.headerFrame) (hfront : r.front = start + p.headWire.length)
    (hm : r.BodyMove r') (hcar : r.stream.drop start ++ more = p.wire ++ rest) :
    Collecting p start r' ∧ r'.log = r.log ∨ r' = r.finish p start := by
  have hlt := Receiver.ready_iff.mp hr
  have hbody := drop_body hcar (by omega)
  rw [← hfront] at hbody
  have hlen := seen_body hinv hr hframe hbody
  have hseen : completed 0xFF r.seen = r.frame.bodySize → r.seen = p.bodyWire := by
    intro hlast
    rw [Receiver.seen, Receiver.window_eq_take hbody hlt, hlen hlast, List.take_left]
  cases hm with
  | byte => exact .inl ⟨.body hfound hframe hfront, rfl⟩
  | escape hlast hbad =>
    rw [hseen hlast, Packet.bodyWire, Stuffing.unstuff_stuff] at hbad
    cases hbad
  | reject hlast hgood herr =>
    rw [hseen hlast, Packet.bodyWire, Stuffing.unstuff_stuff, Option.some_inj] at hgood
    rw [hframe, ← hgood, p.parse_body] at herr
    exact absurd rfl herr
  | accept hlast hgood herr =>
    have hstop : r.front + (r.pos + 1) = start + p.wire.length := by
      rw [hlen hlast, hfront, p.wire_eq, List.length_append, Nat.add_assoc]
    rw [hseen hlast, Packet.bodyWire, Stuffing.unstuff_stuff, Option.some_inj] at hgood
    rw [hframe, ← hgood, p.parse_body, hstop]
    refine .inr ?_
    rw [Receiver.finish, ← hstop]
    rfl

/-- Every move stays inside the packet or completes it. -/
theorem move (hinv : r.Inv) (hr : r.ready = true) (hm : r.Move r') (hc : Collecting p start r)
    (hcar : r.stream.drop start ++ more = p.wire ++ rest) :
    Collecting p start r' ∧ r'.log = r.log ∨ r' = r.finish p start := by
  cases hc with
  | marks hfound hfront =>
    obtain ⟨_, hm⟩ | ⟨hf, _⟩ | ⟨hf, _⟩ := hm
    · exact .inl (seekMove hinv hr hfound hfront hm hcar)
    · exact absurd (hfound.symm.trans hf) (by decide)
    · exact absurd (hfound.symm.trans hf) (by decide)
  | header hfound hframe hfront =>
    obtain ⟨hf, _⟩ | ⟨_, _, hm⟩ | ⟨_, hs, _⟩ := hm
    · exact absurd (hf.symm.trans hfound) (by decide)
    · exact .inl (headerMove hinv hr hfound hframe hfront hm hcar)
    · rw [hframe] at hs
      cases hs
  | body hfound hframe hfront =>
    obtain ⟨hf, _⟩ | ⟨_, he, _⟩ | ⟨_, _, hm⟩ := hm
    · exact absurd (hf.symm.trans hfound) (by decide)
    · exact absurd (hframe.symm.trans he) (headerFrame_ne_empty p)
    · exact bodyMove hinv hr hfound hframe hfront hm hcar

/-- A receiver that has looked at everything, the header included, is in the body. -/
theorem body_of_settled (hinv : r.Inv) (hr : r.ready = false) (hc : Collecting p start r)
    (hcar : r.stream.drop start ++ more = p.wire ++ rest)
    (hle : start + p.headWire.length ≤ r.stream.length) :
    r.found = true ∧ r.frame = p.headerFrame ∧ r.front = start + p.headWire.length := by
  have hcursor := hinv.cursor_le
  have hend := Receiver.le_of_not_ready hr
  have hlen := p.length_headWire
  cases hc with
  | marks hfound hfront =>
    have := (hinv.of_seeking hfound).2.2
    split at hlen <;> omega
  | header hfound hframe hfront =>
    have hmore := (hinv.of_header hfound hframe).2.2
    rw [← hfront] at hcar
    have hpre : stuff 0xFF 0x55 p.header <+: (r.window r.pos).drop 2 := by
      rw [Receiver.window_eq_take hcar hcursor, p.wire_eq, List.append_assoc, List.take_append,
        List.take_of_length_le (by omega), Packet.headWire]
      exact List.prefix_append _ _
    have := Stuffing.completed_mono 0xFF hpre
    rw [Stuffing.completed_stuff (by decide), p.length_header] at this
    omega
  | body hfound hframe hfront => exact ⟨hfound, hframe, hfront⟩

/-- A receiver that has looked at the whole packet has finished it. -/
theorem not_settled (hinv : r.Inv) (hr : r.ready = false) (hc : Collecting p start r)
    (hcar : r.stream.drop start ++ more = p.wire ++ rest) :
    r.stream.length < start + p.wire.length := by
  by_contra hle
  have hcursor := hinv.cursor_le
  have hend := Receiver.le_of_not_ready hr
  rw [p.wire_eq, List.length_append] at hle
  obtain ⟨_, hframe, hfront⟩ := body_of_settled hinv hr hc hcar (by omega)
  have hbody := drop_body hcar (by omega)
  rw [← hfront] at hbody
  have hmore := (hinv.of_body (by rw [hframe]; rfl)).1
  have hpre : p.bodyWire <+: r.window r.pos := by
    rw [Receiver.window_eq_take hbody hcursor, List.take_append, List.take_of_length_le (by omega)]
    exact List.prefix_append _ _
  have := Stuffing.completed_mono 0xFF hpre
  rw [Packet.bodyWire, Stuffing.completed_stuff (by decide), ← p.bodySize_headerFrame,
    ← hframe] at this
  omega

/-- A receiver that has been given the beginning of a packet is in the middle of it. -/
theorem of_take {k : Nat} (hk : k < p.wire.length) :
    let r := (Receiver.fresh.push (p.wire.take k)).settle
    r.stream = p.wire.take k ∧ Collecting p 0 r ∧ r.log = [] := by
  refine Receiver.settle_moves
    (P := fun r => r.stream = p.wire.take k ∧ Collecting p 0 r ∧ r.log = []) ?_
    (Receiver.inv_push _ Receiver.inv_fresh) ⟨List.nil_append _, .marks rfl rfl, rfl⟩
  rintro r r' hinv hr hm ⟨hstream, hc, hlog⟩
  have hcar : r.stream.drop 0 ++ p.wire.drop k = p.wire ++ [] := by
    rw [hstream, List.drop_zero, List.take_append_drop, List.append_nil]
  have hstream' := hm.stream_eq.trans hstream
  rcases hc.move hinv hr hm hcar with ⟨hc', hlog'⟩ | hfin
  · exact ⟨hstream', hc', hlog'.trans hlog⟩
  · -- The packet cannot be complete yet.
    have hcursor := (Receiver.inv_move hinv hr hm).cursor_le
    rw [hstream', hfin, List.length_take] at hcursor
    have hfront : (r.finish p 0).front = 0 + p.wire.length := rfl
    omega

end Collecting
end HaierProtocol
