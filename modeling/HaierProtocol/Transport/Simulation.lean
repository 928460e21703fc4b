import HaierProtocol.Transport.ProtocolTransport
import HaierProtocol.Transport.Settling

/-!
# One round is one step

`Tracks h pending r` says that a handler and a receiver are in corresponding states: the ring
buffer holds the receiver's stream from `front` on, behind `pending` bytes that
`process_data` has given up but not dropped yet.  `scanStep_tracks` is the simulation: a round
of the loop of `process_data` is a step of the receiver.
-/

namespace HaierProtocol

open Stuffing (unstuff accepted completed)
open TransportLevelHandler

/-- The frames in the queue. -/
def Receiver.queue (r : Receiver) (frameStart : TimePoint) : List TimestampedFrame :=
  (r.log.map fun x => ⟨x.frame, frameStart⟩).drop r.taken

structure Tracks (h : TransportLevelHandler) (pending : Nat) (r : Receiver) : Prop where
  contents : h.buffer.contents.drop pending = r.stream.drop r.front
  pending_le : pending ≤ h.buffer.getSize
  pos : h.pos = r.pos + pending
  sepCount : h.sepCount = r.sepCount
  found : h.frameStartFound = r.found
  frame : h.currentFrame = r.frame
  queue : h.incomingQueue = r.queue h.frameStart
  taken_le : r.taken ≤ r.log.length

namespace Tracks

variable {h : TransportLevelHandler} {pending : Nat} {r : Receiver}

theorem getSize_sub (ht : Tracks h pending r) : h.buffer.getSize - pending = r.held := by
  have hlen := congrArg List.length ht.contents
  rwa [List.length_drop, List.length_drop, Members.length_contents] at hlen

theorem get_eq (ht : Tracks h pending r) {i : Nat} (hi : i < r.held) :
    h.buffer.get (pending + i) = r.byteAt i := by
  have hsize := ht.getSize_sub
  have hget := h.buffer.getElem?_contents (i := pending + i) (by omega)
  rw [← List.getElem?_drop, ht.contents, List.getElem?_drop] at hget
  rw [Receiver.byteAt, List.getD_eq_getElem?_getD, hget]
  rfl

theorem map_get_range' (ht : Tracks h 0 r) {k n : Nat} (hn : k + n ≤ r.held) :
    (List.range' k n).map h.buffer.get = (r.window (k + n)).drop k := by
  unfold Receiver.held at hn
  have hlen : (r.window (k + n)).length = k + n := by
    rw [Receiver.window, List.length_take, List.length_drop]
    omega
  refine List.ext_getElem? (fun i => ?_)
  by_cases hi : i < n
  · have hbyte := ht.get_eq (i := k + i) (by unfold Receiver.held; omega)
    rw [Nat.zero_add] at hbyte
    rw [List.getElem?_map, List.getElem?_range' hi, Nat.one_mul, Option.map_some, hbyte,
      List.getElem?_drop, Receiver.getElem?_window (by omega) (by omega)]
  · rw [List.getElem?_eq_none (by simp; omega), List.getElem?_eq_none (by simp [hlen]; omega)]

end Tracks

/-! ## Unstuffing -/

/-- Whether the loop that continues at `bPos` expects an escape. -/
def escapeDue (get : Nat → UInt8) (bPos : Nat) : Bool := decide (bPos ≠ 0 ∧ get (bPos - 1) = 0xFF)

theorem unstuffLoop_spec (get : Nat → UInt8) (n bPos : Nat) (out : List UInt8) :
    (unstuffLoop get n bPos out).2 =
        (bPos + accepted 0xFF 0x55 (escapeDue get bPos) ((List.range' bPos n).map get),
          (unstuff 0xFF 0x55 (escapeDue get bPos) ((List.range' bPos n).map get)).isSome) ∧
      ∀ word, unstuff 0xFF 0x55 (escapeDue get bPos) ((List.range' bPos n).map get) = some word →
        (unstuffLoop get n bPos out).1 = out ++ word := by
  induction n generalizing bPos out with
  | zero =>
    rw [List.range'_zero, List.map_nil, unstuffLoop]
    simp [accepted, unstuff]
  | succ n ih =>
    have hnext : escapeDue get (bPos + 1) = decide (get bPos = 0xFF) := by
      rw [escapeDue, Nat.add_sub_cancel]
      simp
    rw [List.range'_succ, List.map_cons, unstuffLoop]
    by_cases hdue : bPos ≠ 0 ∧ get (bPos - 1) = 0xFF
    · have hflag : escapeDue get bPos = true := decide_eq_true hdue
      rw [hflag, if_neg (by simpa [separatorByte] using hdue), accepted, unstuff]
      by_cases hesc : get bPos = 0x55
      · obtain ⟨ih2, ih1⟩ := ih (bPos + 1) out
        rw [hnext, hesc, decide_eq_false (by decide)] at ih2 ih1
        rw [if_neg (by simpa [separatorPostByte] using hesc), if_pos hesc, if_pos hesc]
        refine ⟨?_, ih1⟩
        rw [ih2, Nat.add_right_comm, Nat.add_assoc]
      · rw [if_pos (by simpa [separatorPostByte] using hesc), if_neg hesc, if_neg hesc]
        simp
    · have hflag : escapeDue get bPos = false := decide_eq_false hdue
      rw [hflag, if_pos (by simp only [separatorByte]; tauto), accepted, unstuff]
      obtain ⟨ih2, ih1⟩ := ih (bPos + 1) (out ++ [get bPos])
      rw [hnext] at ih2 ih1
      refine ⟨?_, fun word hword => ?_⟩
      · rw [ih2, Option.isSome_map, Nat.add_right_comm, Nat.add_assoc]
      · rw [Option.map_eq_some_iff] at hword
        obtain ⟨rest, hrest, rfl⟩ := hword
        rw [ih1 rest hrest, List.append_assoc]
        rfl

/-- The loop fails where reading the bytes it goes over fails. -/
theorem unstuffLoop_none {get : Nat → UInt8} {n bPos : Nat} {word : List UInt8} (out : List UInt8)
    (hword : (List.range' bPos n).map get = word) (hdue : escapeDue get bPos = false)
    (h : unstuff 0xFF 0x55 false word = none) :
    ∃ copied, unstuffLoop get n bPos out =
      (copied, bPos + accepted 0xFF 0x55 false word, false) := by
  obtain ⟨h2, _⟩ := unstuffLoop_spec get n bPos out
  rw [hword, hdue, h] at h2
  exact ⟨_, Prod.ext rfl h2⟩

/-- Otherwise it copies what they stand for. -/
theorem unstuffLoop_some {get : Nat → UInt8} {n bPos : Nat} {word x : List UInt8} (out : List UInt8)
    (hword : (List.range' bPos n).map get = word) (hdue : escapeDue get bPos = false)
    (h : unstuff 0xFF 0x55 false word = some x) :
    unstuffLoop get n bPos out = (out ++ x, bPos + n, true) := by
  obtain ⟨h2, h1⟩ := unstuffLoop_spec get n bPos out
  rw [hword, hdue] at h2 h1
  have hlen : word.length = n := by rw [← hword, List.length_map, List.length_range']
  have hacc : accepted 0xFF 0x55 false word = n := by
    have hle := Stuffing.accepted_le 0xFF 0x55 false word
    have hlt := (Stuffing.accepted_lt_iff 0xFF 0x55 false word).not.mpr
      (by rw [h]; exact Option.some_ne_none x)
    omega
  rw [hacc, h] at h2
  rw [← h1 x h]
  exact Prod.ext rfl h2

/-! ## One round -/

theorem Receiver.pos_lt_held {r : Receiver} (hr : r.ready = true) : r.pos < r.held := by
  have := ready_iff.mp hr
  unfold held
  omega

/-- A round's state and the receiver it stands for. -/
structure ScanTracks (s : Scan) (r : Receiver) : Prop where
  tracks : Tracks s.handler s.bytesToDrop r
  bufSize : s.bufSize = s.handler.buffer.getSize
  dropped : r.found = true → s.bytesToDrop = 0
  inv : r.Inv

namespace ScanTracks

variable {s : Scan} {r : Receiver}

theorem cond_eq (hs : ScanTracks s r) : decide (s.handler.pos < s.bufSize) = r.ready := by
  have hsize := hs.tracks.getSize_sub
  have hpos := hs.tracks.pos
  have hcursor := hs.inv.cursor_le
  have hle := hs.tracks.pending_le
  rw [hs.bufSize, hpos, Receiver.ready]
  unfold Receiver.held at hsize
  rw [decide_eq_decide]
  omega

theorem get_pos (hs : ScanTracks s r) (hr : r.ready = true) :
    s.handler.buffer.get s.handler.pos = r.byteAt r.pos := by
  rw [hs.tracks.pos, Nat.add_comm]
  exact hs.tracks.get_eq (Receiver.pos_lt_held hr)

end ScanTracks

/-- Bytes given up by the receiver and dropped from the buffer. -/
theorem Tracks.contents_skip {h : TransportLevelHandler} {r : Receiver} (ht : Tracks h 0 r)
    (n : Nat) :
    (h.buffer.drop n).1.contents = r.stream.drop (r.front + n) := by
  rw [CircularBuffer.contents_drop, ← List.drop_drop, ← ht.contents, List.drop_zero]

theorem seekStep_tracks {s : Scan} {r : Receiver} (hs : ScanTracks s r) (hr : r.ready = true)
    (hfound : r.found = false) : ScanTracks (seekStep s) r.seek := by
  have ht := hs.tracks
  have hpos := ht.pos
  have hbyte := hs.get_pos hr
  have hheld := Receiver.pos_lt_held hr
  have hsize := ht.getSize_sub
  have hstep : r.step = r.seek := by rw [Receiver.step, if_pos hfound]
  have hinv := hstep ▸ Receiver.inv_step hs.inv hr
  rw [seekStep, hbyte]
  rw [Receiver.seek] at hinv ⊢
  by_cases hb : r.byteAt r.pos = 0xFF
  · rw [if_pos hb] at hinv ⊢
    have hdrop : (if s.handler.pos + 1 - s.bytesToDrop > frameSeparatorsCount
        then s.handler.pos + 1 - frameSeparatorsCount else s.bytesToDrop) =
        s.bytesToDrop + (r.pos + 1 - 2) := by
      rw [hpos, frameSeparatorsCount]
      split <;> omega
    rw [if_pos (show r.byteAt r.pos = separatorByte from hb), hdrop]
    refine ⟨⟨?_, ?_, ?_, ht.sepCount, ht.found, ht.frame, ht.queue, ht.taken_le⟩, hs.bufSize, ?_,
      hinv⟩
    · show s.handler.buffer.contents.drop (s.bytesToDrop + (r.pos + 1 - 2)) = _
      rw [← List.drop_drop, ht.contents, List.drop_drop]
      rfl
    · show s.bytesToDrop + (r.pos + 1 - 2) ≤ s.handler.buffer.getSize
      omega
    · show s.handler.pos + 1 = r.pos + 1 - (r.pos + 1 - 2) + (s.bytesToDrop + (r.pos + 1 - 2))
      omega
    · intro hf
      exact absurd (hf.symm.trans hfound) (by decide)
  · rw [if_neg hb] at hinv ⊢
    rw [if_neg (show ¬ r.byteAt r.pos = separatorByte from hb)]
    by_cases hp : r.pos = 2
    · rw [if_pos hp] at hinv ⊢
      rw [if_pos (show s.handler.pos - s.bytesToDrop = frameSeparatorsCount by
        rw [hpos, hp, frameSeparatorsCount]; omega)]
      by_cases hd : s.bytesToDrop > 0
      · rw [if_pos hd]
        refine ⟨⟨?_, Nat.zero_le _, ?_, ht.sepCount, rfl, ht.frame, ht.queue, ht.taken_le⟩, ?_,
          fun _ => rfl, hinv⟩
        · show (s.handler.buffer.drop s.bytesToDrop).1.contents.drop 0 = _
          rw [CircularBuffer.contents_drop, List.drop_zero]
          exact ht.contents
        · show s.handler.pos - s.bytesToDrop + 1 = r.pos + 1 + 0
          omega
        · show s.bufSize - s.bytesToDrop = (s.handler.buffer.drop s.bytesToDrop).1.getSize
          rw [CircularBuffer.getSize_drop, hs.bufSize]
      · rw [if_neg hd]
        refine ⟨⟨ht.contents, ht.pending_le, ?_, ht.sepCount, rfl, ht.frame, ht.queue, ht.taken_le⟩,
          hs.bufSize, fun _ => Nat.eq_zero_of_not_pos hd, hinv⟩
        show s.handler.pos + 1 = r.pos + 1 + s.bytesToDrop
        omega
    · rw [if_neg hp] at hinv ⊢
      rw [if_neg (show ¬ s.handler.pos - s.bytesToDrop = frameSeparatorsCount by
        rw [hpos, frameSeparatorsCount]; omega)]
      refine ⟨⟨?_, ?_, ?_, ht.sepCount, ht.found, ht.frame, ht.queue, ht.taken_le⟩, hs.bufSize,
        ?_, hinv⟩
      · show s.handler.buffer.contents.drop (s.handler.pos + 1) =
          r.stream.drop (r.front + (r.pos + 1))
        rw [hpos, show r.pos + s.bytesToDrop + 1 = s.bytesToDrop + (r.pos + 1) by omega,
          ← List.drop_drop, ht.contents, List.drop_drop]
      · show s.handler.pos + 1 ≤ s.handler.buffer.getSize
        omega
      · show s.handler.pos + 1 = 0 + (s.handler.pos + 1)
        omega
      · intro hf
        exact absurd (hf.symm.trans hfound) (by decide)

/-- Both loops leave a wrong escape behind in the same way. -/
theorem rewind_tracks {s : Scan} {r : Receiver} (hs : ScanTracks s r) (hfound : r.found = true)
    {bPos : Nat} (hinv : (r.skip (bPos - 1)).reset.Inv) :
    ScanTracks (rewind s bPos) (r.skip (bPos - 1)).reset := by
  have hzero := hs.dropped hfound
  have ht := hs.tracks
  rw [hzero] at ht
  have hlast : (rewind s bPos).bytesToDrop = 0 := hzero
  refine ⟨?_, rfl, fun _ => hlast, hinv⟩
  rw [hlast]
  exact ⟨ht.contents_skip _, Nat.zero_le _, rfl, rfl, rfl, rfl, ht.queue, ht.taken_le⟩

/-- What the loop of the round that completes a header goes over. -/
theorem ScanTracks.header_word {s : Scan} {r : Receiver} (hs : ScanTracks s r)
    (hr : r.ready = true) (hfound : r.found = true) (hframe : r.frame = .empty) :
    (List.range' 3 (r.pos + 1 - 3)).map s.handler.buffer.get = r.seen.drop 3 ∧
      escapeDue s.handler.buffer.get 3 = false := by
  have ht := hs.tracks
  rw [hs.dropped hfound] at ht
  have hheld := Receiver.pos_lt_held hr
  obtain ⟨hthree, hlen, _⟩ := hs.inv.of_header hfound hframe
  constructor
  · rw [ht.map_get_range' (by omega), Receiver.seen, show 3 + (r.pos + 1 - 3) = r.pos + 1 by omega]
  · have h2 := ht.get_eq (i := 2) (by omega)
    rw [Nat.zero_add] at h2
    exact decide_eq_false (fun hd => hlen (h2 ▸ hd.2))

/-- And the one that completes a body. -/
theorem ScanTracks.body_word {s : Scan} {r : Receiver} (hs : ScanTracks s r) (hr : r.ready = true)
    (hfound : r.found = true) :
    (List.range' 0 (r.pos + 1)).map s.handler.buffer.get = r.seen ∧
      escapeDue s.handler.buffer.get 0 = false := by
  have ht := hs.tracks
  rw [hs.dropped hfound] at ht
  have hheld := Receiver.pos_lt_held hr
  constructor
  · rw [ht.map_get_range' (by omega), List.drop_zero, Nat.zero_add]
    rfl
  · exact decide_eq_false (fun hd => hd.1 rfl)

theorem headerStep_tracks {s : Scan} {r : Receiver} (hs : ScanTracks s r) (hr : r.ready = true)
    (hfound : r.found = true) (hframe : r.frame = .empty) (hinv : r.finishHeader.Inv) :
    ScanTracks (headerStep s) r.finishHeader := by
  have hzero := hs.dropped hfound
  have ht := hs.tracks
  rw [hzero] at ht
  have hpos : s.handler.pos = r.pos := ht.pos
  have hheld := Receiver.pos_lt_held hr
  obtain ⟨hthree, _, _⟩ := hs.inv.of_header hfound hframe
  have hstart : (List.range (frameSeparatorsCount + 1)).map s.handler.buffer.get =
    r.seen.take 3 := by
    have hwin := ht.map_get_range' (k := 0) (n := 3) (by omega)
    rw [List.drop_zero] at hwin
    rw [Receiver.seen, Receiver.window, List.take_take, Nat.min_eq_left (by omega)]
    exact hwin
  have hlength : (r.seen.take 3).length = 3 := by
    rw [List.length_take, Receiver.length_seen hr]
    omega
  obtain ⟨hword, hdue⟩ := hs.header_word hr hfound hframe
  rw [Receiver.finishHeader] at hinv ⊢
  rw [headerStep]
  simp only [hstart, hlength, hpos]
  cases hu : unstuff 0xFF 0x55 false (r.seen.drop 3) with
  | none =>
    obtain ⟨copied, hloop⟩ := unstuffLoop_none (r.seen.take 3) hword hdue hu
    rw [hu] at hinv
    rw [hloop]
    exact rewind_tracks hs hfound hinv
  | some header =>
    have hloop := unstuffLoop_some (r.seen.take 3) hword hdue hu
    have hcount : 3 + (r.pos + 1 - 3) = r.pos + 1 := by omega
    have hsize : s.bufSize - (r.pos + 1) = (s.handler.buffer.drop (r.pos + 1)).1.getSize := by
      rw [CircularBuffer.getSize_drop, hs.bufSize]
    have hcontents := ht.contents_skip (r.pos + 1)
    rw [hu] at hinv
    rw [hloop, hcount, hzero, ht.frame]
    simp only [Bool.not_true, Bool.false_eq_true, if_false]
    dsimp only at hinv
    by_cases herr : (r.frame.parseBuffer (r.seen.take 3 ++ header)).2.1 = .headerOnly
    · rw [if_pos herr] at hinv ⊢
      rw [if_neg (by rw [herr]; decide)]
      exact ⟨⟨hcontents, Nat.zero_le _, rfl, rfl, ht.found, rfl, ht.queue, ht.taken_le⟩, hsize,
        fun _ => rfl, hinv⟩
    · rw [if_neg herr] at hinv ⊢
      rw [if_pos herr]
      exact ⟨⟨hcontents, Nat.zero_le _, rfl, rfl, rfl, rfl, ht.queue, ht.taken_le⟩, hsize,
        fun _ => rfl, hinv⟩

theorem Receiver.queue_push {r : Receiver} (h : r.taken ≤ r.log.length) (x : Reception)
    (frameStart : TimePoint) :
    { r with log := r.log ++ [x] }.queue frameStart =
      r.queue frameStart ++ [⟨x.frame, frameStart⟩] := by
  show ((r.log ++ [x]).map _).drop r.taken = _
  rw [List.map_append, List.drop_append_of_le_length (by rw [List.length_map]; exact h)]
  rfl

theorem bodyStep_tracks {s : Scan} {r : Receiver} (hs : ScanTracks s r) (hr : r.ready = true)
    (hfound : r.found = true) (hinv : r.finishBody.Inv) : ScanTracks (bodyStep s) r.finishBody := by
  have hzero := hs.dropped hfound
  have ht := hs.tracks
  rw [hzero] at ht
  have hpos : s.handler.pos = r.pos := ht.pos
  have hheld := Receiver.pos_lt_held hr
  obtain ⟨hword, hdue⟩ := hs.body_word hr hfound
  rw [Receiver.finishBody] at hinv ⊢
  rw [bodyStep]
  simp only [hpos]
  cases hu : unstuff 0xFF 0x55 false r.seen with
  | none =>
    obtain ⟨copied, hloop⟩ := unstuffLoop_none [] hword hdue hu
    rw [hu] at hinv
    rw [hloop, Nat.zero_add]
    exact rewind_tracks hs hfound hinv
  | some body =>
    have hloop := unstuffLoop_some [] hword hdue hu
    have hcontents := ht.contents_skip (r.pos + 1)
    rw [hu] at hinv
    rw [hloop, Nat.zero_add, List.nil_append, ht.frame, hzero]
    simp only [Bool.not_true, Bool.false_eq_true, if_false]
    dsimp only at hinv
    by_cases herr : (r.frame.parseBuffer body).2.1 = .completeFrame
    · rw [if_pos herr] at hinv ⊢
      rw [if_pos herr]
      refine ⟨⟨hcontents, Nat.zero_le _, rfl, rfl, rfl, rfl, ?_, ?_⟩, rfl, fun _ => rfl, hinv⟩
      · show s.handler.incomingQueue ++ _ = _
        rw [ht.queue]
        exact (Receiver.queue_push (r := (r.skip (r.pos + 1)).reset) ht.taken_le
          ⟨_, _⟩ s.handler.frameStart).symm
      · show r.taken ≤ (r.log ++ [_]).length
        rw [List.length_append]
        exact Nat.le_add_right_of_le ht.taken_le
    · rw [if_neg herr] at hinv ⊢
      rw [if_neg herr]
      exact ⟨⟨hcontents, Nat.zero_le _, rfl, rfl, rfl, rfl, ht.queue, ht.taken_le⟩, rfl,
        fun _ => rfl, hinv⟩

/-- One round of the loop is one step of the receiver. -/
theorem scanStep_tracks {s : Scan} {r : Receiver} (hs : ScanTracks s r)
    (hr : r.ready = true) : ScanTracks (scanStep s) r.step := by
  have ht := hs.tracks
  have hbyte := hs.get_pos hr
  have hinv := Receiver.inv_step hs.inv hr
  rw [scanStep, ht.found]
  rw [Receiver.step] at hinv ⊢
  by_cases hf : r.found = false
  · rw [if_pos hf] at hinv ⊢
    rw [hf, Bool.not_false, if_pos rfl]
    exact seekStep_tracks hs hr hf
  have hfound : r.found = true := by simpa using hf
  have hpos : s.handler.pos = r.pos := by rw [ht.pos, hs.dropped hfound, Nat.add_zero]
  rw [if_neg hf] at hinv ⊢
  rw [if_neg (by rw [hfound]; decide)]
  rw [hpos] at hbyte
  have hsep : (if r.byteAt r.pos = separatorByte then r.sepCount + 1 else r.sepCount) =
      if r.byteAt r.pos = 0xFF then r.sepCount + 1 else r.sepCount := rfl
  simp only [hpos, hbyte, ht.sepCount, ht.frame, hsep] at hinv ⊢
  generalize (if r.byteAt r.pos = 0xFF then r.sepCount + 1 else r.sepCount) = sepCount at hinv ⊢
  -- The count does not matter to the rounds that complete a header or a body.
  have hheader : headerStep { s with handler := { s.handler with
      pos := r.pos, sepCount, currentFrame := r.frame } } = headerStep s := by
    rw [← hpos, ← ht.frame]
    rfl
  have hbody : bodyStep { s with handler := { s.handler with
      pos := r.pos, sepCount, currentFrame := r.frame } } = bodyStep s := by
    rw [← hpos, ← ht.frame]
    rfl
  have hadvance : Tracks { s.handler with pos := r.pos + 1, sepCount, currentFrame := r.frame }
      s.bytesToDrop { r with pos := r.pos + 1, sepCount } := by
    refine ⟨ht.contents, ht.pending_le, ?_, rfl, ht.found, rfl, ht.queue, ht.taken_le⟩
    show r.pos + 1 = r.pos + 1 + s.bytesToDrop
    rw [hs.dropped hfound]
  cases hs.inv.mode with
  | seeking hno => exact absurd (hfound.symm.trans hno) (by decide)
  | header _ hframe =>
    have hstatus : r.frame.status = .frameEmpty := by rw [hframe]; rfl
    simp only [hstatus] at hinv ⊢
    by_cases hlast : r.pos + 1 - sepCount = 10
    · rw [if_pos hlast] at hinv ⊢
      rw [if_pos (show r.pos + 1 - sepCount = frameHeaderSize from hlast)]
      exact hheader ▸ headerStep_tracks hs hr hfound hframe hinv
    · rw [if_neg hlast] at hinv ⊢
      rw [if_neg (show ¬ r.pos + 1 - sepCount = frameHeaderSize from hlast)]
      exact ⟨hadvance, hs.bufSize, hs.dropped, hinv⟩
  | body _ hstatus =>
    simp only [hstatus] at hinv ⊢
    by_cases hlast : r.pos + 1 - sepCount = r.frame.bodySize
    · rw [if_pos hlast] at hinv ⊢
      rw [if_pos (show _ = r.frame.dataSize.toNat + _ from hlast)]
      exact hbody ▸ bodyStep_tracks hs hr hfound hinv
    · rw [if_neg hlast] at hinv ⊢
      rw [if_neg (show ¬ _ = r.frame.dataSize.toNat + _ from hlast)]
      exact ⟨hadvance, hs.bufSize, hs.dropped, hinv⟩

end HaierProtocol
