import HaierProtocol.Transport.Reading
import HaierProtocol.Transport.Simulation

/-!
# The handler refines the receiver

What each call to the handler does to the receiver it tracks: `process_data` settles it,
`read_data` is `receive`, `reset_protocol` is `resync`, and `pop` and `drop` take frames out of
the queue.  The calls keep the receiver's invariant.
-/

namespace HaierProtocol

open TransportLevelHandler

namespace Receiver

/-- `read_data` with a buffer of this capacity.  On overflow the oldest bytes go, and with
them the frame that was being received. -/
def receive (capacity : Nat) (input : List UInt8) (r : Receiver) : Receiver :=
  let count := min input.length capacity
  let excess := count - (capacity - r.held)
  let r := if excess > 0 then if r.found then (r.skip excess).reset else r.skip excess else r
  r.push (input.take count)

/-- `reset_protocol`: give up the bytes looked at. -/
def resync (r : Receiver) : Receiver := (r.skip r.pos).reset

/-- Take up to `n` frames out of the queue. -/
def take (n : Nat) (r : Receiver) : Receiver := { r with taken := min (r.taken + n) r.log.length }

end Receiver

/-! ## Calls -/

/-- No status lies beyond `frameEmpty`, so the timeout never fires. -/
theorem checkTimeout_eq (h : TransportLevelHandler) (now : TimePoint) : h.checkTimeout now = h := by
  have hle : ¬ h.currentFrame.status.ordinal > FrameStatus.frameEmpty.ordinal := by
    cases h.currentFrame.status <;> decide
  rw [checkTimeout, if_neg hle]

theorem settle_of_isEmpty {h : TransportLevelHandler} {r : Receiver} (ht : Tracks h 0 r)
    (hinv : r.Inv) (hempty : h.buffer.isEmpty = true) : r.settle = r := by
  have hheld := ht.getSize_sub
  rw [Nat.sub_zero, h.buffer.getSize_eq_zero_iff.mpr hempty] at hheld
  refine Receiver.settle_of_not_ready ?_
  have hcursor := hinv.cursor_le
  rw [Receiver.ready, decide_eq_false_iff_not]
  unfold Receiver.held at hheld
  omega

/-- The bound on the rounds is large enough. -/
theorem run_eq_settle_of_tracks {h : TransportLevelHandler} {r : Receiver} (ht : Tracks h 0 r)
    (hinv : r.Inv) :
    BoundedLoop.run Receiver.ready Receiver.step (scanFuel h.buffer.getSize) r = r.settle := by
  have hheld := ht.getSize_sub
  have hrank := r.rank_le
  have hmul : (2 * r.held + r.rank) * (r.held + 1) ≤ (2 * r.held + 1) * (r.held + 1) :=
    Nat.mul_le_mul_right _ (by omega)
  refine Receiver.run_eq_settle ⟨hinv, Nat.le_refl _⟩ ?_
  rw [Nat.sub_zero] at hheld
  rw [hheld, scanFuel]
  refine Nat.add_le_add hmul ?_
  unfold Receiver.held
  omega

theorem processData_tracks {h : TransportLevelHandler} {r : Receiver} (ht : Tracks h 0 r)
    (hinv : r.Inv) (now : TimePoint) : Tracks (h.processData now) 0 r.settle := by
  rw [processData, checkTimeout_eq]
  by_cases hempty : h.buffer.isEmpty = true
  · rw [hempty, settle_of_isEmpty ht hinv hempty]
    exact ht
  have hrun := BoundedLoop.run_related (R := ScanTracks) (fun _ _ hs => hs.cond_eq)
    (fun _ _ hc hs => scanStep_tracks hs (hs.cond_eq ▸ hc)) (scanFuel h.buffer.getSize)
    ⟨h, h.buffer.getSize, 0⟩ r ⟨ht, rfl, fun _ => rfl, hinv⟩
  rw [run_eq_settle_of_tracks ht hinv] at hrun
  rw [if_pos (by simpa using hempty)]
  generalize BoundedLoop.run _ scanStep _ _ = s at hrun ⊢
  have hs := hrun.tracks
  have hpos := hs.pos
  by_cases hd : s.bytesToDrop > 0
  · rw [if_pos hd]
    refine ⟨?_, Nat.zero_le _, ?_, hs.sepCount, hs.found, hs.frame, hs.queue, hs.taken_le⟩
    · show (s.handler.buffer.drop s.bytesToDrop).1.contents.drop 0 = _
      rw [CircularBuffer.contents_drop, List.drop_zero]
      exact hs.contents
    · show s.handler.pos - s.bytesToDrop = r.settle.pos + 0
      omega
  · rw [if_neg hd]
    rw [Nat.eq_zero_of_not_pos hd] at hs
    exact hs

/-- With room made, one or two reads store the bytes behind those already there. -/
theorem readData_spec (h : TransportLevelHandler) (input : List UInt8) :
    let count := min input.length h.buffer.capacity
    ∃ buffer, h.readData input = ({ h.makeSpace count with buffer }, input.drop count, count) ∧
      buffer.contents = (h.makeSpace count).buffer.contents ++ input.take count ∧
      buffer.capacity = h.buffer.capacity := by
  intro count
  obtain ⟨buffer, rest, transfers, hread, hcap, hcontents, hrest, hsum, _⟩ :=
    readDataFrom_spec .ofList h input
  refine ⟨buffer, ?_, hcontents, hcap⟩
  rw [readData_eq, hread]
  exact Prod.ext rfl (Prod.ext hrest hsum)

theorem readData_tracks {h : TransportLevelHandler} {r : Receiver} (ht : Tracks h 0 r)
    (hinv : r.Inv) (input : List UInt8) :
    Tracks (h.readData input).1 0 (r.receive h.buffer.capacity input) := by
  obtain ⟨buffer, hread, hcontents, _⟩ := readData_spec h input
  have hcursor := hinv.cursor_le
  have hheld := ht.getSize_sub
  rw [Nat.sub_zero] at hheld
  have hspace : h.buffer.getSpace = h.buffer.capacity - r.held := by
    rw [Members.getSpace, hheld]
  rw [contents_makeSpace, hspace, ← List.drop_zero (l := h.buffer.contents),
    ht.contents] at hcontents
  rw [hread, Receiver.receive]
  have hle : min input.length h.buffer.capacity - (h.buffer.capacity - r.held) ≤ r.held := by omega
  have hstream : ∀ n, n ≤ r.held → (r.stream.drop r.front).drop n ++
      input.take (min input.length h.buffer.capacity) =
        (r.stream ++ input.take (min input.length h.buffer.capacity)).drop (r.front + n) := by
    intro n hn
    unfold Receiver.held at hn
    rw [List.drop_drop, List.drop_append_of_le_length (by omega)]
  rw [hstream _ hle] at hcontents
  dsimp only
  by_cases hover : min input.length h.buffer.capacity > h.buffer.capacity - r.held
  · have hexcess : min input.length h.buffer.capacity - (h.buffer.capacity - r.held) > 0 := by omega
    rw [makeSpace, if_pos (by rw [hspace]; exact hover), if_pos hexcess]
    dsimp only
    cases hfound : r.found with
    | true =>
      rw [show (h.dropBytes _).frameStartFound = true from ht.found.trans hfound]
      exact ⟨hcontents, Nat.zero_le _, rfl, rfl, rfl, rfl, ht.queue, ht.taken_le⟩
    | false =>
      rw [show (h.dropBytes _).frameStartFound = false from ht.found.trans hfound]
      exact ⟨hcontents, Nat.zero_le _, ht.pos, ht.sepCount, ht.found, ht.frame, ht.queue,
        ht.taken_le⟩
  · have hexcess : min input.length h.buffer.capacity - (h.buffer.capacity - r.held) = 0 := by omega
    rw [hexcess] at hcontents ⊢
    rw [makeSpace, if_neg (by rw [hspace]; exact hover), if_neg (Nat.lt_irrefl 0)]
    exact ⟨hcontents, Nat.zero_le _, ht.pos, ht.sepCount, ht.found, ht.frame, ht.queue, ht.taken_le⟩

theorem resetProtocol_tracks {h : TransportLevelHandler} {r : Receiver} (ht : Tracks h 0 r)
    (hinv : r.Inv) : Tracks h.resetProtocol 0 r.resync := by
  have hheld := ht.getSize_sub
  have hcursor := hinv.cursor_le
  have hpos : (if h.pos < h.buffer.getSize then h.pos else h.buffer.getSize) = r.pos := by
    have := ht.pos
    unfold Receiver.held at hheld
    split <;> omega
  rw [resetProtocol]
  simp only [hpos]
  refine ⟨?_, Nat.zero_le _, rfl, rfl, rfl, rfl, ht.queue, ht.taken_le⟩
  exact ht.contents_skip r.pos

theorem drop_tracks {h : TransportLevelHandler} {r : Receiver} (ht : Tracks h 0 r)
    (framesCount : Nat) : Tracks (h.drop framesCount) 0 (r.take framesCount) := by
  refine ⟨ht.contents, ht.pending_le, ht.pos, ht.sepCount, ht.found, ht.frame, ?_, ?_⟩
  · have hlen : h.incomingQueue.length = r.log.length - r.taken := by
      rw [ht.queue, Receiver.queue, List.length_drop, List.length_map]
    have htaken := ht.taken_le
    show h.incomingQueue.drop _ = ((r.log.map _).drop (min (r.taken + framesCount) r.log.length))
    rw [hlen, ht.queue, Receiver.queue, List.drop_drop]
    congr 1
    split <;> omega
  · exact Nat.min_le_right _ _

/-- Popping takes one frame, as `drop 1` does. -/
theorem pop_eq_drop (h : TransportLevelHandler) : h.pop.1 = h.drop 1 := by
  rw [pop, TransportLevelHandler.drop]
  cases h with
  | mk buffer pos sepCount frameStartFound currentFrame frameStart incomingQueue =>
    cases incomingQueue with
    | nil => rfl
    | cons frame rest =>
      have hone : (if 1 < (frame :: rest).length then 1 else (frame :: rest).length) = 1 := by
        rw [List.length_cons]
        split <;> omega
      simp only [hone]
      rfl

theorem inv_receive {r : Receiver} {capacity : Nat} (h : r.Inv) (hheld : r.held ≤ capacity)
    (input : List UInt8) : (r.receive capacity input).Inv := by
  have hcursor := h.cursor_le
  rw [Receiver.receive]
  by_cases hexcess : min input.length capacity - (capacity - r.held) > 0
  · rw [if_pos hexcess]
    cases hfound : r.found with
    | true =>
      rw [if_pos rfl]
      refine Receiver.inv_push _ (Receiver.inv_reset ?_)
      unfold Receiver.held at hheld hexcess ⊢
      show r.front + _ ≤ r.stream.length
      omega
    | false =>
      rw [if_neg Bool.false_ne_true]
      obtain ⟨hframe, hsep, hpos⟩ := h.of_seeking hfound
      refine ⟨?_, .seeking hfound hframe hsep hpos⟩
      unfold Receiver.held at hheld hexcess ⊢
      show r.front + _ + r.pos ≤ (r.stream ++ input.take (min input.length capacity)).length
      rw [List.length_append, List.length_take]
      omega
  · rw [if_neg hexcess]
    exact Receiver.inv_push _ h

theorem inv_resync {r : Receiver} (h : r.Inv) : r.resync.Inv :=
  Receiver.inv_reset h.cursor_le

theorem inv_take {r : Receiver} (h : r.Inv) (n : Nat) : (r.take n).Inv := by
  refine ⟨h.cursor_le, ?_⟩
  cases h.mode with
  | seeking hfound hframe hsep hpos => exact .seeking hfound hframe hsep hpos
  | header hfound hframe hpos hlen hsep hmore => exact .header hfound hframe hpos hlen hsep hmore
  | body hfound hstatus hsep hmore hsize => exact .body hfound hstatus hsep hmore hsize

theorem tracks_ofBufferSize (cells : Nat → UInt8) (bufferSize : Nat) :
    Tracks (.ofBufferSize cells bufferSize) 0 .fresh :=
  ⟨rfl, Nat.zero_le _, rfl, rfl, rfl, rfl, rfl, Nat.le_refl 0⟩

/-! ## What no call changes -/

/-- The capacity and the frame start are set once. -/
def Fixed (h h' : TransportLevelHandler) : Prop :=
  h'.buffer.capacity = h.buffer.capacity ∧ h'.frameStart = h.frameStart

theorem fixed_scanStep (s : Scan) : Fixed s.handler (scanStep s).handler := by
  have hrewind : ∀ (s' : Scan) (bPos : Nat), Fixed s'.handler (rewind s' bPos).handler :=
    fun _ _ => ⟨rfl, rfl⟩
  have hseek : Fixed s.handler (seekStep s).handler := by
    rw [seekStep]
    dsimp only
    split
    · exact ⟨rfl, rfl⟩
    · split
      · split <;> exact ⟨rfl, rfl⟩
      · exact ⟨rfl, rfl⟩
  have hheader : ∀ s' : Scan, Fixed s'.handler (headerStep s').handler := by
    intro s'
    rw [headerStep]
    dsimp only
    split
    · exact hrewind _ _
    · split <;> exact ⟨rfl, rfl⟩
  have hbody : ∀ s' : Scan, Fixed s'.handler (bodyStep s').handler := by
    intro s'
    rw [bodyStep]
    dsimp only
    split
    · exact hrewind _ _
    · exact ⟨rfl, rfl⟩
  rw [scanStep]
  split
  · exact hseek
  · dsimp only
    generalize (if s.handler.buffer.get s.handler.pos = separatorByte then s.handler.sepCount + 1
      else s.handler.sepCount) = sepCount
    generalize (if s.handler.currentFrame.useCrc then 3 else 1) = trailerSize
    split
    · split
      · exact hheader _
      · exact ⟨rfl, rfl⟩
    · split
      · exact hbody _
      · exact ⟨rfl, rfl⟩
    · exact ⟨rfl, rfl⟩

theorem fixed_processData (h : TransportLevelHandler) (now : TimePoint) :
    Fixed h (h.processData now) := by
  rw [processData, checkTimeout_eq]
  dsimp only
  split
  · have hrun : Fixed h (BoundedLoop.run (fun s : Scan => decide (s.handler.pos < s.bufSize))
        scanStep (scanFuel h.buffer.getSize) ⟨h, h.buffer.getSize, 0⟩).handler :=
      BoundedLoop.run_invariant (P := fun s : Scan => Fixed h s.handler)
        (fun s _ hs => ⟨(fixed_scanStep s).1.trans hs.1, (fixed_scanStep s).2.trans hs.2⟩)
        (scanFuel h.buffer.getSize) ⟨h, h.buffer.getSize, 0⟩ ⟨rfl, rfl⟩
    split
    · exact hrun
    · exact hrun
  · exact ⟨rfl, rfl⟩

theorem fixed_readData (h : TransportLevelHandler) (input : List UInt8) :
    Fixed h (h.readData input).1 := by
  obtain ⟨buffer, hread, _, hcap⟩ := readData_spec h input
  rw [hread]
  refine ⟨hcap, ?_⟩
  show (h.makeSpace _).frameStart = _
  rw [makeSpace]
  dsimp only
  split
  · split <;> rfl
  · rfl

end HaierProtocol
