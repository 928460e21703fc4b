import HaierProtocol.Transport.Refinement

/-!
# Soundness of reception

Whatever arrives, a frame that a receiver accepts is the decoding of a piece of the stream:
separators and correctly stuffed bytes that pass the tests of `parseBuffer`.  `Sound` is the
invariant.  It places every accepted frame, and in the middle of a frame also the header that
was parsed earlier, which ends exactly where the bytes still held begin.
-/

namespace HaierProtocol

open Stuffing (stuff unstuff accepted completed)

/-- The bytes of the stream from `start` to `stop` decode to the frame. -/
def Decodes (stream : List UInt8) (start stop : Nat) (frame : HaierFrame) : Prop :=
  ∃ header body : List UInt8, ∃ partFrame : HaierFrame,
    header.length = 8 ∧ 8 ≤ header.getD 0 0 ∧ header.getD 0 0 ≤ 0xF1 ∧
      [0xFF, 0xFF] ++ stuff 0xFF 0x55 (header ++ body) <+: stream.drop start ∧
      stop = start + ([0xFF, 0xFF] ++ stuff 0xFF 0x55 (header ++ body)).length ∧
      HaierFrame.empty.parseBuffer ([0xFF, 0xFF] ++ header) = (partFrame, .headerOnly, 10) ∧
      body.length = partFrame.bodySize ∧ partFrame.parseBuffer body = (frame, .completeFrame, 0)

theorem isPrefix_drop_append {bytes stream : List UInt8} {start : Nat} (more : List UInt8)
    (h : bytes <+: stream.drop start) (hstart : start ≤ stream.length) :
    bytes <+: (stream ++ more).drop start := by
  rw [List.drop_append_of_le_length hstart]
  exact h.trans (List.prefix_append _ _)

theorem Decodes.append {stream : List UInt8} {start stop : Nat} {frame : HaierFrame}
    (h : Decodes stream start stop frame) (more : List UInt8) :
    Decodes (stream ++ more) start stop frame := by
  obtain ⟨header, body, partFrame, h1, h2, h3, hpre, hrest⟩ := h
  refine ⟨header, body, partFrame, h1, h2, h3, isPrefix_drop_append more hpre ?_, hrest⟩
  have hlen := hpre.length_le
  rw [List.length_drop, List.length_append] at hlen
  simp only [List.length_cons, List.length_nil] at hlen
  omega

theorem Decodes.stop_le {stream : List UInt8} {start stop : Nat} {frame : HaierFrame}
    (h : Decodes stream start stop frame) : start < stop ∧ stop ≤ stream.length := by
  obtain ⟨header, body, _, _, _, _, hpre, hstop, _⟩ := h
  have hlen := hpre.length_le
  rw [List.length_drop] at hlen
  have hpos : 2 ≤ ([0xFF, 0xFF] ++ stuff 0xFF 0x55 (header ++ body)).length := by
    rw [List.length_append]
    exact Nat.le_add_right _ _
  omega

/-- The header of the frame being received lies between `base` and the bytes held. -/
def HeaderAt (r : Receiver) (base : Nat) : Prop :=
  ∃ header : List UInt8, header.length = 8 ∧ 8 ≤ header.getD 0 0 ∧ header.getD 0 0 ≤ 0xF1 ∧
    [0xFF, 0xFF] ++ stuff 0xFF 0x55 header <+: r.stream.drop base ∧
    r.front = base + ([0xFF, 0xFF] ++ stuff 0xFF 0x55 header).length ∧
    HaierFrame.empty.parseBuffer ([0xFF, 0xFF] ++ header) = (r.frame, .headerOnly, 10)

/-- Every accepted frame has its place, one after another and all before `base`. -/
structure SoundAt (r : Receiver) (placed : List (Nat × Reception)) (base : Nat) : Prop where
  log : placed.map Prod.snd = r.log
  decodes : ∀ x ∈ placed, Decodes r.stream x.1 x.2.stop x.2.frame
  ordered : placed.Pairwise fun x y => x.2.stop ≤ y.1
  stop_le : ∀ x ∈ placed, x.2.stop ≤ base
  base_le : base ≤ r.front
  header : r.frame.status = .frameHeaderOnly → HeaderAt r base

def Sound (r : Receiver) : Prop := ∃ placed base, SoundAt r placed base

namespace Sound

variable {r r' : Receiver}

theorem fresh : Sound .fresh :=
  ⟨[], 0, rfl, fun _ h => absurd h List.not_mem_nil, .nil, fun _ h => absurd h List.not_mem_nil,
    Nat.le_refl 0, fun h => FrameStatus.noConfusion h⟩

/-- Without a header in hand, all that can happen is that bytes go. -/
theorem of_empty (h : Sound r) (hstream : r'.stream = r.stream) (hlog : r'.log = r.log)
    (hframe : r'.frame = .empty) (hfront : r.front ≤ r'.front) : Sound r' := by
  obtain ⟨placed, base, h⟩ := h
  refine ⟨placed, base, h.log.trans hlog.symm, ?_, h.ordered, h.stop_le,
    Nat.le_trans h.base_le hfront, ?_⟩
  · rw [hstream]
    exact h.decodes
  · intro hs
    rw [hframe] at hs
    cases hs

/-- Nothing but the counters changes. -/
theorem of_same (h : Sound r) (hstream : r'.stream = r.stream) (hlog : r'.log = r.log)
    (hframe : r'.frame = r.frame) (hfront : r'.front = r.front) : Sound r' := by
  obtain ⟨placed, base, h⟩ := h
  refine ⟨placed, base, h.log.trans hlog.symm, ?_, h.ordered, h.stop_le, hfront ▸ h.base_le, ?_⟩
  · rw [hstream]
    exact h.decodes
  · intro hs
    obtain ⟨header, hh⟩ := h.header (hframe ▸ hs)
    refine ⟨header, ?_⟩
    rw [hstream, hfront, hframe]
    exact hh

theorem getLast_seen (hr : r.ready = true) {k : Nat} (hk : k ≤ r.pos)
    (hlast : r.byteAt r.pos ≠ 0xFF) : (r.seen.drop k).getLast? ≠ some 0xFF := by
  rw [Receiver.seen, Receiver.drop_window_succ (Receiver.ready_iff.mp hr) hk, List.getLast?_append]
  simpa using hlast

/-- The bytes seen lie where the bytes held begin. -/
theorem seen_prefix : r.seen <+: r.stream.drop r.front := List.take_prefix _ _

/-- An accepted header, as it lies in the stream. -/
theorem headerAt_accept (hinv : r.Inv) (hr : r.ready = true) (hfound : r.found = true)
    (hframe : r.frame = .empty) {rest : List UInt8} (hlast : completed 0xFF (r.seen.drop 2) = 8)
    (hgood : unstuff 0xFF 0x55 false (r.seen.drop 3) = some rest)
    (herr : (HaierFrame.empty.parseBuffer (r.seen.take 3 ++ rest)).2.1 = .headerOnly) :
    HeaderAt { r.skip (r.pos + 1) with
      pos := 0
      sepCount := 0
      frame := (HaierFrame.empty.parseBuffer (r.seen.take 3 ++ rest)).1 } r.front := by
  obtain ⟨hpos, hlen, _⟩ := hinv.of_header hfound hframe
  have hlength := Receiver.length_seen hr
  have h2 : r.seen[2]? = some (r.byteAt 2) :=
    Receiver.getElem?_window (by omega) (Receiver.ready_iff.mp hr)
  obtain ⟨header, hheader, hbuf, hsmall, hbig, _⟩ := HaierFrame.parseBuffer_headerOnly herr
  have hlast3 := getLast_seen hr hpos (hinv.header_last hr hfound hframe hlast)
  have hrest := Stuffing.eq_stuff_of_unstuff _ _ hgood hlast3
  -- The first three bytes are the separators and the length byte.
  match header, hheader, hbuf with
  | b :: tail, hheader, hbuf =>
    have htake : (r.seen.take 3).length = 3 := by
      rw [List.length_take, hlength]
      omega
    obtain ⟨hthree, htail⟩ := List.append_inj
      (show r.seen.take 3 ++ rest = [0xFF, 0xFF, b] ++ tail from hbuf) htake
    have hb : b ≠ 0xFF := by
      have hget := congrArg (fun l => l[2]?) hthree
      simp only [List.getElem?_take_of_lt (show 2 < 3 by decide), h2] at hget
      exact Option.some_inj.mp hget ▸ hlen
    have hseen : r.seen = [0xFF, 0xFF] ++ stuff 0xFF 0x55 (b :: tail) := by
      rw [← List.take_append_drop 3 r.seen, hrest, hthree, htail, stuff, if_neg hb]
      rfl
    refine ⟨b :: tail, hheader, hsmall, hbig, hseen ▸ seen_prefix, ?_, ?_⟩
    · rw [← hseen, hlength]
      rfl
    · show _ = ((HaierFrame.empty.parseBuffer (r.seen.take 3 ++ rest)).1, FrameError.headerOnly, 10)
      rw [hbuf, HaierFrame.parseBuffer_header hheader, if_neg (UInt8.not_lt.mpr hsmall),
        if_neg (UInt8.not_lt.mpr hbig)]

/-- An accepted body continues the header in hand. -/
theorem decodes_accept {base : Nat} (hinv : r.Inv) (hr : r.ready = true) (hhead : HeaderAt r base)
    (hstatus : r.frame.status = .frameHeaderOnly) {body : List UInt8}
    (hlast : completed 0xFF r.seen = r.frame.bodySize)
    (hgood : unstuff 0xFF 0x55 false r.seen = some body)
    (herr : (r.frame.parseBuffer body).2.1 = .completeFrame) :
    Decodes r.stream base (r.front + (r.pos + 1)) (r.frame.parseBuffer body).1 := by
  obtain ⟨header, hheader, hsmall, hbig, hpre, hfront, hparse⟩ := hhead
  have hlast0 := getLast_seen hr (Nat.zero_le _) (hinv.body_last hr hstatus hlast)
  have hseen := Stuffing.eq_stuff_of_unstuff _ _ hgood hlast0
  have hwhole : [0xFF, 0xFF] ++ stuff 0xFF 0x55 (header ++ body) =
      ([0xFF, 0xFF] ++ stuff 0xFF 0x55 header) ++ r.seen := by
    rw [hseen, Stuffing.stuff_append, List.append_assoc]
  refine ⟨header, body, r.frame, hheader, hsmall, hbig, ?_, ?_, hparse, ?_, ?_⟩
  · obtain ⟨after, hafter⟩ := hpre
    have hdrop : r.stream.drop r.front = after := by
      rw [hfront, ← List.drop_drop, ← hafter, List.drop_left]
    rw [hwhole, ← hafter, List.prefix_append_right_inj, ← hdrop]
    exact seen_prefix
  · rw [hwhole, List.length_append, Receiver.length_seen hr, hfront, Nat.add_assoc]
  · have hcount : completed 0xFF (stuff 0xFF 0x55 body) = body.length :=
      Stuffing.completed_stuff (by decide) body
    rw [← hseen, hlast] at hcount
    exact hcount.symm
  · have hlpos : (r.frame.parseBuffer body).2.2 = 0 := by
      rw [HaierFrame.parseBuffer, hstatus]
    rw [← herr, ← hlpos]

theorem move (hinv : r.Inv) (hr : r.ready = true) (hm : r.Move r') (h : Sound r) : Sound r' := by
  obtain ⟨hfound, hm⟩ | ⟨hfound, hframe, hm⟩ | ⟨hfound, hstatus, hm⟩ := hm
  · have hframe := (hinv.of_seeking hfound).1
    cases hm with
    | mark => exact h.of_empty rfl rfl hframe (Nat.le_add_right _ _)
    | start => exact h.of_empty rfl rfl hframe (Nat.le_refl _)
    | garbage => exact h.of_empty rfl rfl hframe (Nat.le_add_right _ _)
  · cases hm with
    | byte => exact h.of_same rfl rfl rfl rfl
    | escape => exact h.of_empty rfl rfl rfl (Nat.le_add_right _ _)
    | reject => exact h.of_empty rfl rfl rfl (Nat.le_add_right _ _)
    | accept hlast hgood herr =>
      obtain ⟨placed, base, h⟩ := h
      refine ⟨placed, r.front, h.log, h.decodes, h.ordered,
        fun x hx => Nat.le_trans (h.stop_le x hx) h.base_le, Nat.le_add_right _ _, fun _ => ?_⟩
      exact headerAt_accept hinv hr hfound hframe hlast hgood herr
  · cases hm with
    | byte => exact h.of_same rfl rfl rfl rfl
    | escape => exact h.of_empty rfl rfl rfl (Nat.le_add_right _ _)
    | reject => exact h.of_empty rfl rfl rfl (Nat.le_add_right _ _)
    | @accept body hlast hgood herr =>
      obtain ⟨placed, base, h⟩ := h
      have hdec := decodes_accept hinv hr (h.header hstatus) hstatus hlast hgood herr
      refine ⟨placed ++ [(base, ⟨(r.frame.parseBuffer body).1, r.front + (r.pos + 1)⟩)],
        r.front + (r.pos + 1), ?_, ?_, ?_, ?_,
        Nat.le_refl _, fun hs => FrameStatus.noConfusion hs⟩
      · rw [List.map_append, h.log]
        rfl
      · intro x hx
        rcases List.mem_append.mp hx with hx | hx
        · exact h.decodes x hx
        · rw [List.mem_singleton.mp hx]
          exact hdec
      · refine List.pairwise_append.mpr ⟨h.ordered, List.pairwise_singleton _ _, ?_⟩
        intro x hx y hy
        rw [List.mem_singleton.mp hy]
        exact h.stop_le x hx
      · intro x hx
        rcases List.mem_append.mp hx with hx | hx
        · have := h.stop_le x hx
          have := h.base_le
          omega
        · rw [List.mem_singleton.mp hx]

theorem settle (hinv : r.Inv) (h : Sound r) : Sound r.settle :=
  Receiver.settle_moves (fun hi hr hm hs => move hi hr hm hs) hinv h

theorem push (h : Sound r) (hfront : r.front ≤ r.stream.length) (bytes : List UInt8) :
    Sound (r.push bytes) := by
  obtain ⟨placed, base, h⟩ := h
  refine ⟨placed, base, h.log, fun x hx => (h.decodes x hx).append bytes, h.ordered, h.stop_le,
    h.base_le, ?_⟩
  intro hs
  obtain ⟨header, h1, h2, h3, hpre, hrest⟩ := h.header hs
  exact ⟨header, h1, h2, h3, isPrefix_drop_append bytes hpre (Nat.le_trans h.base_le hfront), hrest⟩

theorem receive {capacity : Nat} (hinv : r.Inv) (h : Sound r) (hheld : r.held ≤ capacity)
    (input : List UInt8) : Sound (r.receive capacity input) := by
  have hcursor := hinv.cursor_le
  have hfront : r.front ≤ r.stream.length := by omega
  rw [Receiver.receive]
  by_cases hexcess : min input.length capacity - (capacity - r.held) > 0
  · have hskip : r.front + (min input.length capacity - (capacity - r.held)) ≤ r.stream.length := by
      unfold Receiver.held at hheld ⊢
      omega
    rw [if_pos hexcess]
    cases hfound : r.found with
    | true =>
      rw [if_pos rfl]
      have hreset : Sound (r.skip (min input.length capacity - (capacity - r.held))).reset :=
        h.of_empty rfl rfl rfl (Nat.le_add_right _ _)
      exact hreset.push hskip _
    | false =>
      rw [if_neg Bool.false_ne_true]
      have hgiven : Sound (r.skip (min input.length capacity - (capacity - r.held))) :=
        h.of_empty rfl rfl (hinv.of_seeking hfound).1 (Nat.le_add_right _ _)
      exact hgiven.push hskip _
  · rw [if_neg hexcess]
    exact push h hfront _

theorem resync (h : Sound r) : Sound r.resync :=
  have hfront : r.front ≤ r.resync.front := Nat.le_add_right _ _
  h.of_empty rfl rfl rfl hfront

theorem take (h : Sound r) (n : Nat) : Sound (r.take n) :=
  h.of_same rfl rfl rfl rfl

end Sound
end HaierProtocol
