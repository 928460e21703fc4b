import HaierProtocol.Transport.History

/-!
# `process_data` with checks

The same code, with a check before everything that could go wrong: a look at a byte of the ring
buffer, a write into one of the two arrays, a subtraction of sizes, and a loop that does not end.
Its `bytes_to_drop` is an `int`, as in the source.  `run_processData_checked` says that no check
fails in any state that can be reached as long as fewer than 2 ^ 31 bytes are stored.  So the
unchecked `processData` of `ProtocolTransport` is what the source computes then.  With more garbage
than that a subtraction underflows (`overlongGarbage_underflows`).
-/

namespace HaierProtocol

open Stuffing (unstuff accepted completed)

namespace TransportLevelHandler

inductive Fault where
  /-- `buffer_[index]` beyond the bytes stored. -/
  | read (index size : Nat)
  /-- A write beyond the end of an array of `allocated` bytes. -/
  | write (index allocated : Nat)
  | underflow (minuend subtrahend : Nat)
  | endless
deriving DecidableEq, Repr

/-- The loop's variables as the source declares them. -/
structure CheckedScan where
  handler : TransportLevelHandler
  bufSize : Nat
  bytesToDrop : Int

/-- `pos_ < buf_size`. -/
def CheckedScan.ready (s : CheckedScan) : Bool := decide (s.handler.pos < s.bufSize)

/-- What an `int` becomes that is assigned this size. -/
def narrow (size : Nat) : Int := (size : Int).bmod (2 ^ 32)

/-- What an `int` stands for among sizes. -/
def widen (n : Int) : Nat := (n % 2 ^ 64).toNat

/-- A subtraction of sizes. -/
def checkedSub (a b : Nat) : Except Fault Nat :=
  if b ≤ a then .ok (a - b) else .error (.underflow a b)

/-- `buffer_[index]`. -/
def checkedGet (buffer : CircularBuffer UInt8) (index : Nat) : Except Fault UInt8 :=
  if index < buffer.getSize then .ok (buffer.get index) else .error (.read index buffer.getSize)

/-- `out[hPos++] = byte`, where `hPos` bytes have been written. -/
def checkedPut (allocated : Nat) (out : List UInt8) (byte : UInt8) : Except Fault (List UInt8) :=
  if out.length < allocated then .ok (out ++ [byte]) else .error (.write out.length allocated)

/-- `bPos == 0 || buffer_[bPos - 1] != SEPARATOR_BYTE`. -/
def isPlainChecked (buffer : CircularBuffer UInt8) (bPos : Nat) : Except Fault Bool :=
  if bPos = 0 then .ok true
  else do
    let index ← checkedSub bPos 1
    let before ← checkedGet buffer index
    .ok (decide (before ≠ separatorByte))

/-- Both unstuffing loops. -/
def unstuffLoopChecked (buffer : CircularBuffer UInt8) (allocated : Nat) :
    Nat → Nat → List UInt8 → Except Fault (List UInt8 × Nat × Bool)
  | 0, bPos, out => .ok (out, bPos, true)
  | n + 1, bPos, out => do
    let plain ← isPlainChecked buffer bPos
    let byte ← checkedGet buffer bPos
    if plain then
      unstuffLoopChecked buffer allocated n (bPos + 1) (← checkedPut allocated out byte)
    else if byte ≠ separatorPostByte then .ok (out, bPos, false)
    else unstuffLoopChecked buffer allocated n (bPos + 1) out

/-- The first bytes of a header are copied as they are. -/
def copyChecked (buffer : CircularBuffer UInt8) (allocated : Nat) :
    List Nat → List UInt8 → Except Fault (List UInt8)
  | [], out => .ok out
  | index :: rest, out => do
    let byte ← checkedGet buffer index
    copyChecked buffer allocated rest (← checkedPut allocated out byte)

def rewindChecked (s : CheckedScan) (bPos : Nat) : Except Fault CheckedScan := do
  let size ← checkedSub bPos 1
  let h := { s.handler with buffer := (s.handler.buffer.drop size).1 }
  .ok { s with handler := h.resetFrame, bufSize := h.buffer.getSize }

def seekStepChecked (s : CheckedScan) : Except Fault CheckedScan := do
  let h := s.handler
  let byte ← checkedGet h.buffer h.pos
  if byte = separatorByte then
    let length ← checkedSub (h.pos + 1) (widen s.bytesToDrop)
    if length > frameSeparatorsCount then
      let size ← checkedSub (h.pos + 1) frameSeparatorsCount
      .ok { s with handler := { h with pos := h.pos + 1 }, bytesToDrop := narrow size }
    else .ok { s with handler := { h with pos := h.pos + 1 } }
  else
    let length ← checkedSub h.pos (widen s.bytesToDrop)
    if length = frameSeparatorsCount then
      let h := { h with frameStartFound := true }
      if s.bytesToDrop > 0 then
        let bufSize ← checkedSub s.bufSize (widen s.bytesToDrop)
        let pos ← checkedSub h.pos (widen s.bytesToDrop)
        let h := h.dropBytes (widen s.bytesToDrop)
        .ok { handler := { h with pos := pos + 1 }, bufSize, bytesToDrop := 0 }
      else .ok { s with handler := { h with pos := h.pos + 1 } }
    else .ok { s with handler := { h with pos := h.pos + 1 }, bytesToDrop := narrow (h.pos + 1) }

def headerStepChecked (s : CheckedScan) : Except Fault CheckedScan := do
  let h := s.handler
  let start ← copyChecked h.buffer frameHeaderSize (List.range (frameSeparatorsCount + 1)) []
  let (header, bPos, correctFrame) ←
    unstuffLoopChecked h.buffer frameHeaderSize (h.pos + 1 - start.length) start.length start
  if !correctFrame then rewindChecked s bPos
  else
    let (frame, err, _) := h.currentFrame.parseBuffer header
    let bufSize ← checkedSub s.bufSize (h.pos + 1)
    let h := { h with
      buffer := (h.buffer.drop bPos).1
      pos := 0
      sepCount := 0
      currentFrame := frame }
    let h := if err ≠ .headerOnly then
        { h with currentFrame := frame.reset, frameStartFound := false } else h
    .ok { s with handler := h, bufSize }

/-- `tmp_buf` gets `allocated` bytes. -/
def bodyStepChecked (s : CheckedScan) (allocated : Nat) : Except Fault CheckedScan := do
  let h := s.handler
  let (body, bPos, correctFrame) ← unstuffLoopChecked h.buffer allocated (h.pos + 1) 0 []
  if !correctFrame then rewindChecked s bPos
  else
    let (frame, err, _) := h.currentFrame.parseBuffer body
    let incomingQueue :=
      if err = FrameError.completeFrame then h.incomingQueue ++ [⟨frame, h.frameStart⟩]
      else h.incomingQueue
    let h := { h with buffer := (h.buffer.drop bPos).1, currentFrame := frame, incomingQueue }
    .ok { s with handler := h.resetFrame, bufSize := h.buffer.getSize }

def scanStepChecked (s : CheckedScan) : Except Fault CheckedScan := do
  if !s.handler.frameStartFound then seekStepChecked s
  else
    let h := s.handler
    let byte ← checkedGet h.buffer h.pos
    let h := { h with sepCount := if byte = separatorByte then h.sepCount + 1 else h.sepCount }
    let s := { s with handler := h }
    let advance : CheckedScan := { s with handler := { h with pos := h.pos + 1 } }
    match h.currentFrame.status with
    | .frameEmpty =>
      let length ← checkedSub (h.pos + 1) h.sepCount
      if length = frameHeaderSize then headerStepChecked s else .ok advance
    | .frameHeaderOnly =>
      let length ← checkedSub (h.pos + 1) h.sepCount
      if length = h.currentFrame.dataSize.toNat + (if h.currentFrame.useCrc then 3 else 1) then
        bodyStepChecked s (← checkedSub (h.pos + 1) h.sepCount)
      else .ok advance
    | .frameComplete =>
      .ok { s with handler := { h with
          currentFrame := h.currentFrame.reset, frameStartFound := false } }

def processDataChecked (h : TransportLevelHandler) (now : TimePoint) :
    Except Fault TransportLevelHandler := do
  let h := h.checkTimeout now
  if !h.buffer.isEmpty then
    let s ← BoundedLoop.tryRun CheckedScan.ready scanStepChecked .endless
      (scanFuel h.buffer.getSize) ⟨h, h.buffer.getSize, 0⟩
    if s.bytesToDrop > 0 then
      let pos ← checkedSub s.handler.pos (widen s.bytesToDrop)
      .ok { s.handler.dropBytes (widen s.bytesToDrop) with pos }
    else .ok s.handler
  else .ok h

/-! ## Checks that pass -/

@[simp] theorem ok_bind {α β : Type} (a : α) (f : α → Except Fault β) :
    (Except.ok a >>= f) = f a := rfl

theorem narrow_eq {size : Nat} (h : size < 2 ^ 31) : narrow size = size := by
  have hlow : -((2 ^ 32 : Nat) : Int) ≤ size * 2 := by omega
  have hhigh : (size : Int) * 2 < (2 ^ 32 : Nat) := by omega
  exact Int.bmod_eq_of_le_mul_two hlow hhigh

theorem widen_natCast {n : Nat} (h : n < 2 ^ 64) : widen n = n := by
  have hlt : (n : Int) < 2 ^ 64 := by omega
  rw [widen, Int.emod_eq_of_lt (Int.natCast_nonneg n) hlt]
  exact Int.toNat_natCast n

theorem checkedSub_ok {a b : Nat} (h : b ≤ a) : checkedSub a b = .ok (a - b) := if_pos h

theorem checkedGet_ok {buffer : CircularBuffer UInt8} {index : Nat} (h : index < buffer.getSize) :
    checkedGet buffer index = .ok (buffer.get index) := if_pos h

theorem checkedPut_ok {allocated : Nat} {out : List UInt8} (h : out.length < allocated)
    (byte : UInt8) : checkedPut allocated out byte = .ok (out ++ [byte]) := if_pos h

theorem isPlainChecked_ok {buffer : CircularBuffer UInt8} {bPos : Nat}
    (h : bPos ≤ buffer.getSize) :
    isPlainChecked buffer bPos = .ok (!escapeDue buffer.get bPos) := by
  rw [isPlainChecked]
  by_cases hzero : bPos = 0
  · rw [if_pos hzero, hzero]
    rfl
  · rw [if_neg hzero, checkedSub_ok (by omega), ok_bind, checkedGet_ok (by omega), ok_bind,
      escapeDue]
    by_cases hbyte : buffer.get (bPos - 1) = 0xFF <;> simp [hzero, hbyte, separatorByte]

theorem copyChecked_ok (buffer : CircularBuffer UInt8) (allocated : Nat) :
    ∀ (indices : List Nat) (out : List UInt8), (∀ i ∈ indices, i < buffer.getSize) →
      out.length + indices.length ≤ allocated →
      copyChecked buffer allocated indices out = .ok (out ++ indices.map buffer.get)
  | [], out, _, _ => by rw [copyChecked, List.map_nil, List.append_nil]
  | index :: rest, out, hsize, hroom => by
    rw [List.length_cons] at hroom
    have hlen : (out ++ [buffer.get index]).length + rest.length ≤ allocated := by
      rw [List.length_append, List.length_singleton]
      omega
    have hrest := copyChecked_ok buffer allocated rest _
      (fun i hi => hsize i (List.mem_cons_of_mem index hi)) hlen
    rw [copyChecked, checkedGet_ok (hsize index List.mem_cons_self), ok_bind,
      checkedPut_ok (by omega), ok_bind, hrest, List.append_assoc, List.map_cons]
    rfl

/-- What the unstuffing loops write fits if the logical bytes do.  Where an escape is due, one of
them has been written already. -/
theorem unstuffLoopChecked_ok (buffer : CircularBuffer UInt8) (allocated : Nat) :
    ∀ (n bPos : Nat) (out : List UInt8), bPos + n ≤ buffer.getSize →
      ((List.range' bPos n).map buffer.get).getLast? ≠ some 0xFF →
      (escapeDue buffer.get bPos = true → 0 < n) →
      out.length + completed 0xFF ((List.range' bPos n).map buffer.get) ≤
        allocated + (if escapeDue buffer.get bPos then 1 else 0) →
      unstuffLoopChecked buffer allocated n bPos out = .ok (unstuffLoop buffer.get n bPos out)
  | 0, bPos, out, _, _, _, _ => by rw [unstuffLoopChecked, unstuffLoop]
  | n + 1, bPos, out, hsize, hlast, _, hroom => by
    have hnext : escapeDue buffer.get (bPos + 1) = decide (buffer.get bPos = 0xFF) := by
      rw [escapeDue, Nat.add_sub_cancel]
      simp
    rw [List.range'_succ, List.map_cons] at hlast hroom
    rw [Stuffing.completed_cons] at hroom
    rw [unstuffLoopChecked, unstuffLoop, isPlainChecked_ok (by omega), ok_bind,
      checkedGet_ok (by omega), ok_bind]
    generalize hword : (List.range' (bPos + 1) n).map buffer.get = word at hlast hroom
    have hlen : word.length = n := by rw [← hword, List.length_map, List.length_range']
    -- More bytes follow a separator, and the last of them is none.
    have hmark : buffer.get bPos = 0xFF → word ≠ [] := by
      rintro hbyte rfl
      rw [hbyte] at hlast
      exact hlast rfl
    have hrest : word.getLast? ≠ some 0xFF := by
      cases word with
      | nil => exact (Option.some_ne_none _).symm
      | cons b rest => rwa [List.getLast?_cons_cons] at hlast
    have hpos : escapeDue buffer.get (bPos + 1) = true → 0 < n := by
      intro hdue
      rw [← hlen]
      exact List.length_pos_iff.mpr (hmark (of_decide_eq_true (hnext.symm.trans hdue)))
    have hgo := unstuffLoopChecked_ok buffer allocated n (bPos + 1)
    rw [hword, hnext] at hgo
    cases hdue : escapeDue buffer.get bPos with
    | true =>
      have hplain : ¬ (bPos = 0 ∨ buffer.get (bPos - 1) ≠ separatorByte) := by
        have hcond := of_decide_eq_true hdue
        simpa [separatorByte] using hcond
      rw [hdue, if_pos rfl] at hroom
      rw [Bool.not_true, if_neg Bool.false_ne_true, if_neg hplain]
      by_cases hesc : buffer.get bPos = separatorPostByte
      · have hne : buffer.get bPos ≠ 0xFF := by
          rw [hesc]
          decide
        rw [if_neg hne] at hroom
        rw [if_neg (not_not.mpr hesc), if_neg (not_not.mpr hesc)]
        refine hgo out (by omega) hrest (hnext ▸ hpos) ?_
        rw [decide_eq_false hne, if_neg Bool.false_ne_true]
        omega
      · rw [if_pos hesc, if_pos hesc]
    | false =>
      have hplain : bPos = 0 ∨ buffer.get (bPos - 1) ≠ separatorByte := by
        have hcond := of_decide_eq_false hdue
        simp only [separatorByte]
        tauto
      rw [hdue, if_neg Bool.false_ne_true] at hroom
      rw [Bool.not_false, if_pos rfl, if_pos hplain]
      have hfits : out.length < allocated := by
        by_cases hbyte : buffer.get bPos = 0xFF
        · have := Stuffing.completed_pos 0xFF (hmark hbyte) hrest
          rw [if_pos hbyte] at hroom
          omega
        · rw [if_neg hbyte] at hroom
          omega
      rw [checkedPut_ok hfits, ok_bind]
      refine hgo _ (by omega) hrest (hnext ▸ hpos) ?_
      rw [List.length_append, List.length_singleton]
      by_cases hbyte : buffer.get bPos = 0xFF
      · rw [if_pos hbyte] at hroom
        rw [decide_eq_true hbyte, if_pos rfl]
        omega
      · rw [if_neg hbyte] at hroom
        rw [decide_eq_false hbyte, if_neg Bool.false_ne_true]
        omega

/-- The same variables, with the `int` that the number of bytes to drop is in the source. -/
def Scan.checked (s : Scan) : CheckedScan := ⟨s.handler, s.bufSize, s.bytesToDrop⟩

@[simp] theorem Scan.checked_handler (s : Scan) : s.checked.handler = s.handler := rfl
@[simp] theorem Scan.checked_bufSize (s : Scan) : s.checked.bufSize = s.bufSize := rfl
@[simp] theorem Scan.checked_bytesToDrop (s : Scan) : s.checked.bytesToDrop = s.bytesToDrop := rfl

end TransportLevelHandler

open TransportLevelHandler

/-! ## One round -/

section Round

variable {s : Scan} {r : Receiver}

/-- Where a round stands in the buffer. -/
theorem ScanTracks.pos_lt (hs : ScanTracks s r) (hr : r.ready = true) :
    s.handler.pos = r.pos + s.bytesToDrop ∧ s.handler.pos < s.handler.buffer.getSize ∧
      s.bufSize = s.handler.buffer.getSize := by
  have hpos := hs.tracks.pos
  have hsize := hs.tracks.getSize_sub
  have hheld := Receiver.pos_lt_held hr
  exact ⟨hpos, by omega, hs.bufSize⟩

/-- The bytes to drop are stored, so there are never more of them than the buffer holds. -/
theorem ScanTracks.bytesToDrop_le (hs : ScanTracks s r) :
    s.bytesToDrop ≤ s.handler.buffer.capacity :=
  hs.tracks.pending_le.trans s.handler.buffer.getSize_le

theorem seekStepChecked_ok (hs : ScanTracks s r) (hr : r.ready = true)
    (hsmall : s.handler.buffer.getSize < 2 ^ 31) :
    seekStepChecked s.checked = .ok (seekStep s).checked := by
  obtain ⟨hpos, hlt, hsize⟩ := hs.pos_lt hr
  have hwiden : widen s.bytesToDrop = s.bytesToDrop := widen_natCast (by omega)
  have hpositive : (s.bytesToDrop : Int) > 0 ↔ s.bytesToDrop > 0 := Int.natCast_pos
  rw [seekStepChecked, seekStep]
  simp only [Scan.checked_handler, Scan.checked_bufSize, Scan.checked_bytesToDrop, hwiden,
    hpositive]
  rw [checkedGet_ok hlt, ok_bind]
  by_cases hbyte : s.handler.buffer.get s.handler.pos = separatorByte
  · rw [if_pos hbyte, if_pos hbyte, checkedSub_ok (by omega), ok_bind]
    by_cases hmore : s.handler.pos + 1 - s.bytesToDrop > frameSeparatorsCount
    · rw [if_pos hmore, if_pos hmore, checkedSub_ok (by omega), ok_bind, narrow_eq (by omega)]
      rfl
    · rw [if_neg hmore, if_neg hmore]
      rfl
  · rw [if_neg hbyte, if_neg hbyte, checkedSub_ok (by omega), ok_bind]
    by_cases htwo : s.handler.pos - s.bytesToDrop = frameSeparatorsCount
    · rw [if_pos htwo, if_pos htwo]
      by_cases hdrop : s.bytesToDrop > 0
      · rw [if_pos hdrop, if_pos hdrop, checkedSub_ok (by omega), ok_bind, ok_bind]
        rfl
      · rw [if_neg hdrop, if_neg hdrop]
        rfl
    · rw [if_neg htwo, if_neg htwo, narrow_eq (by omega)]
      rfl

/-- A wrong escape has something before it. -/
theorem rewindChecked_ok {bPos : Nat} (h : 1 ≤ bPos) :
    rewindChecked s.checked bPos = .ok (rewind s bPos).checked := by
  rw [rewindChecked, checkedSub_ok h, ok_bind]
  rfl

/-- Where the unstuffing loops stop. -/
theorem unstuffLoop_stop (get : Nat → UInt8) (n bPos : Nat) (out : List UInt8) :
    (unstuffLoop get n bPos out).2.1 =
      bPos + accepted 0xFF 0x55 (escapeDue get bPos) ((List.range' bPos n).map get) :=
  congrArg Prod.fst (unstuffLoop_spec get n bPos out).1

/-- The header fits its array: seven logical bytes come after the first three. -/
theorem headerLoop_ok (hs : ScanTracks s r) (hr : r.ready = true) (hfound : r.found = true)
    (hframe : r.frame = .empty) (hlast : completed 0xFF (r.seen.drop 2) = 8)
    (out : List UInt8) (hout : out.length = 3) :
    unstuffLoopChecked s.handler.buffer frameHeaderSize (r.pos + 1 - 3) 3 out =
      .ok (unstuffLoop s.handler.buffer.get (r.pos + 1 - 3) 3 out) := by
  obtain ⟨hpos, hlt, _⟩ := hs.pos_lt hr
  obtain ⟨hthree, hlen, _⟩ := hs.inv.of_header hfound hframe
  obtain ⟨hword, hdue⟩ := hs.header_word hr hfound hframe
  have hcount := Receiver.header_count hr hthree hlen
  have hsum := Stuffing.completed_add_count (0xFF : UInt8) (r.seen.drop 3)
  rw [List.length_drop, Receiver.length_seen hr] at hsum
  refine unstuffLoopChecked_ok _ _ _ _ _ (by omega) ?_ (by rw [hdue]; exact Bool.noConfusion) ?_
  · rw [hword]
    exact Sound.getLast_seen hr hthree (hs.inv.header_last hr hfound hframe hlast)
  · rw [hword, hdue, hout, frameHeaderSize, if_neg Bool.false_ne_true]
    omega

/-- The body fits its array, which is as long as its logical bytes are many. -/
theorem bodyLoop_ok (hs : ScanTracks s r) (hr : r.ready = true) (hfound : r.found = true)
    (hstatus : r.frame.status = .frameHeaderOnly)
    (hlast : completed 0xFF r.seen = r.frame.bodySize) :
    unstuffLoopChecked s.handler.buffer r.frame.bodySize (r.pos + 1) 0 [] =
      .ok (unstuffLoop s.handler.buffer.get (r.pos + 1) 0 []) := by
  obtain ⟨hpos, hlt, _⟩ := hs.pos_lt hr
  obtain ⟨hword, hdue⟩ := hs.body_word hr hfound
  refine unstuffLoopChecked_ok _ _ _ _ _ (by omega) ?_ (by rw [hdue]; exact Bool.noConfusion) ?_
  · rw [hword]
    exact Sound.getLast_seen hr (Nat.zero_le _) (hs.inv.body_last hr hstatus hlast)
  · rw [hword, hdue, if_neg Bool.false_ne_true, hlast, List.length_nil]
    omega

theorem headerStepChecked_ok (hs : ScanTracks s r) (hr : r.ready = true) (hfound : r.found = true)
    (hframe : r.frame = .empty) (hlast : completed 0xFF (r.seen.drop 2) = 8) :
    headerStepChecked s.checked = .ok (headerStep s).checked := by
  obtain ⟨hpos, hlt, hsize⟩ := hs.pos_lt hr
  obtain ⟨hthree, _, _⟩ := hs.inv.of_header hfound hframe
  have hstart := copyChecked_ok s.handler.buffer frameHeaderSize
    (List.range (frameSeparatorsCount + 1)) [] (fun i hi => by
      have := List.mem_range.mp hi
      unfold frameSeparatorsCount at this
      omega) (by decide)
  rw [headerStepChecked, headerStep]
  simp only [Scan.checked_handler, Scan.checked_bufSize]
  rw [hstart, ok_bind, List.nil_append]
  generalize hout : (List.range (frameSeparatorsCount + 1)).map s.handler.buffer.get = out
  have hlength : out.length = 3 := by
    rw [← hout, List.length_map, List.length_range]
    rfl
  have hloop := headerLoop_ok hs hr hfound hframe hlast out hlength
  have hstop := unstuffLoop_stop s.handler.buffer.get (r.pos + 1 - 3) 3 out
  rw [hs.dropped hfound, Nat.add_zero] at hpos
  rw [hpos] at hlt ⊢
  simp only [hlength, hloop, ok_bind]
  generalize unstuffLoop s.handler.buffer.get (r.pos + 1 - 3) 3 out = result at hstop ⊢
  obtain ⟨header, bPos, correctFrame⟩ := result
  have hone : 1 ≤ bPos := by
    dsimp only at hstop
    omega
  cases correctFrame with
  | false => exact rewindChecked_ok hone
  | true =>
    simp only [Bool.not_true, Bool.false_eq_true, if_false]
    rw [checkedSub_ok (by omega), ok_bind]
    rfl

theorem bodyStepChecked_ok (hs : ScanTracks s r) (hr : r.ready = true) (hfound : r.found = true)
    (hstatus : r.frame.status = .frameHeaderOnly)
    (hlast : completed 0xFF r.seen = r.frame.bodySize) :
    bodyStepChecked s.checked r.frame.bodySize = .ok (bodyStep s).checked := by
  obtain ⟨hpos, hlt, hsize⟩ := hs.pos_lt hr
  obtain ⟨hword, hdue⟩ := hs.body_word hr hfound
  have hloop := bodyLoop_ok hs hr hfound hstatus hlast
  have hstop := unstuffLoop_stop s.handler.buffer.get (r.pos + 1) 0 []
  rw [hdue, List.range'_succ, List.map_cons, accepted] at hstop
  rw [hs.dropped hfound, Nat.add_zero] at hpos
  rw [bodyStepChecked, bodyStep]
  simp only [Scan.checked_handler]
  rw [hpos, hloop, ok_bind]
  generalize unstuffLoop s.handler.buffer.get (r.pos + 1) 0 [] = result at hstop ⊢
  obtain ⟨body, bPos, correctFrame⟩ := result
  have hone : 1 ≤ bPos := by
    dsimp only at hstop
    omega
  cases correctFrame with
  | false => exact rewindChecked_ok hone
  | true => rfl

theorem scanStepChecked_ok (hs : ScanTracks s r) (hr : r.ready = true)
    (hsmall : s.handler.buffer.getSize < 2 ^ 31) :
    scanStepChecked s.checked = .ok (scanStep s).checked := by
  obtain ⟨hpos, hlt, hsize⟩ := hs.pos_lt hr
  have ht := hs.tracks
  have hbyte := hs.get_pos hr
  rw [scanStepChecked, scanStep, Scan.checked_handler, ht.found]
  by_cases hf : r.found = false
  · rw [hf]
    exact seekStepChecked_ok hs hr hsmall
  have hfound : r.found = true := by simpa using hf
  rw [hs.dropped hfound, Nat.add_zero] at hpos
  rw [hfound, if_neg (by decide), if_neg (by decide)]
  dsimp only
  rw [checkedGet_ok hlt, ok_bind]
  have hmark : (if r.byteAt r.pos = separatorByte then r.sepCount + 1 else r.sepCount) =
      if r.byteAt r.pos = 0xFF then r.sepCount + 1 else r.sepCount := rfl
  rw [hpos] at hbyte
  simp only [hpos, hbyte, ht.sepCount, ht.frame, hmark]
  generalize hsep : (if r.byteAt r.pos = 0xFF then r.sepCount + 1 else r.sepCount) = sepCount
  -- The count does not matter to the rounds that complete a header or a body.
  have hheader : headerStepChecked { s.checked with handler := { s.handler with
      pos := r.pos, sepCount, currentFrame := r.frame } } = headerStepChecked s.checked := by
    rw [← hpos, ← ht.frame]
    rfl
  have hbody : ∀ allocated, bodyStepChecked { s.checked with handler := { s.handler with
      pos := r.pos, sepCount, currentFrame := r.frame } } allocated =
        bodyStepChecked s.checked allocated := by
    intro allocated
    rw [← hpos, ← ht.frame]
    rfl
  cases hs.inv.mode with
  | seeking hno => exact absurd (hfound.symm.trans hno) (by decide)
  | header _ hframe hthree hlen hcount =>
    have hstatus : r.frame.status = .frameEmpty := by rw [hframe]; rfl
    have hseen := hsep.symm.trans (Receiver.sepCount_seen hr hthree hcount)
    have hten := Receiver.header_count hr hthree hlen
    simp only [hstatus]
    rw [checkedSub_ok (by omega), ok_bind]
    by_cases hlast : r.pos + 1 - sepCount = frameHeaderSize
    · rw [if_pos hlast, if_pos hlast, hheader]
      unfold frameHeaderSize at hlast
      rw [headerStepChecked_ok hs hr hfound hframe (by omega), ← hpos, ← ht.frame]
      rfl
    · rw [if_neg hlast, if_neg hlast]
      rfl
  | body _ hstatus hcount =>
    have hseen := hsep.symm.trans (Receiver.sepCount_seen hr (Nat.zero_le _) hcount)
    rw [List.drop_zero] at hseen
    have hall := Receiver.body_count hr
    have hle := List.count_le_length (a := (0xFF : UInt8)) (l := r.seen)
    rw [Receiver.length_seen hr] at hle
    simp only [hstatus]
    rw [checkedSub_ok (by omega), ok_bind]
    by_cases hlast : r.pos + 1 - sepCount = r.frame.bodySize
    · have hsize : r.pos + 1 - sepCount =
          r.frame.dataSize.toNat + (if r.frame.useCrc then 3 else 1) := hlast
      rw [if_pos hsize, if_pos hsize, ok_bind, hbody, hlast,
        bodyStepChecked_ok hs hr hfound hstatus (by rw [← hall, ← hseen, hlast]), ← hpos,
        ← ht.frame]
      rfl
    · have hsize : ¬ r.pos + 1 - sepCount =
          r.frame.dataSize.toNat + (if r.frame.useCrc then 3 else 1) := hlast
      rw [if_neg hsize, if_neg hsize]
      rfl

/-- No round stores anything. -/
theorem getSize_scanStep_le (s : Scan) :
    (scanStep s).handler.buffer.getSize ≤ s.handler.buffer.getSize := by
  have hdrop : ∀ size, (s.handler.buffer.drop size).1.getSize ≤ s.handler.buffer.getSize := by
    intro size
    rw [CircularBuffer.getSize_drop]
    exact Nat.sub_le _ _
  have hseek : (seekStep s).handler.buffer.getSize ≤ s.handler.buffer.getSize := by
    rw [seekStep]
    dsimp only
    split
    · exact Nat.le_refl _
    · split
      · split
        · exact hdrop _
        · exact Nat.le_refl _
      · exact Nat.le_refl _
  have hheader : ∀ s' : Scan, s'.handler.buffer = s.handler.buffer →
      (headerStep s').handler.buffer.getSize ≤ s.handler.buffer.getSize := by
    intro s' hs'
    rw [headerStep]
    dsimp only
    split
    · exact hs' ▸ hdrop _
    · split
      · exact hs' ▸ hdrop _
      · exact hs' ▸ hdrop _
  have hbody : ∀ s' : Scan, s'.handler.buffer = s.handler.buffer →
      (bodyStep s').handler.buffer.getSize ≤ s.handler.buffer.getSize := by
    intro s' hs'
    rw [bodyStep]
    dsimp only
    split
    · exact hs' ▸ hdrop _
    · exact hs' ▸ hdrop _
  rw [scanStep]
  split
  · exact hseek
  · dsimp only
    generalize (if s.handler.buffer.get s.handler.pos = separatorByte then s.handler.sepCount + 1
      else s.handler.sepCount) = sepCount
    generalize (if s.handler.currentFrame.useCrc then 3 else 1) = trailerSize
    split
    · split
      · exact hheader _ rfl
      · exact Nat.le_refl _
    · split
      · exact hbody _ rfl
      · exact Nat.le_refl _
    · exact Nat.le_refl _

end Round

/-! ## The loop -/

/-- The bound on the rounds, on the loop's own variables. -/
def TransportLevelHandler.Scan.measure (width : Nat) (s : Scan) : Nat :=
  let rank := if s.handler.currentFrame.status = .frameEmpty then 0 else 1
  (2 * (s.handler.buffer.getSize - s.bytesToDrop) + rank) * width + (s.bufSize - s.handler.pos)

theorem ScanTracks.measure_eq {s : Scan} {r : Receiver} (hs : ScanTracks s r) (width : Nat) :
    s.measure width = r.measure width := by
  have hsize := hs.tracks.getSize_sub
  have hpos := hs.tracks.pos
  have hcursor := hs.inv.cursor_le
  have hrest : s.bufSize - s.handler.pos = r.stream.length - (r.front + r.pos) := by
    unfold Receiver.held at hsize
    have := hs.bufSize
    have := hs.tracks.pending_le
    omega
  rw [Scan.measure, Receiver.measure, Receiver.rank, hs.tracks.frame, hsize, hrest]
  rfl

theorem processDataChecked_ok {h : TransportLevelHandler} {r : Receiver} (ht : Tracks h 0 r)
    (hinv : r.Inv) (hsmall : h.buffer.getSize < 2 ^ 31) (now : TimePoint) :
    h.processDataChecked now = .ok (h.processData now) := by
  rw [processDataChecked, processData, checkTimeout_eq]
  dsimp only
  by_cases hempty : (!h.buffer.isEmpty) = true
  · rw [if_pos hempty, if_pos hempty]
    have hheld := ht.getSize_sub
    rw [Nat.sub_zero] at hheld
    have hstart : ScanTracks ⟨h, h.buffer.getSize, 0⟩ r := ⟨ht, rfl, fun _ => rfl, hinv⟩
    have hfuel : (Scan.mk h h.buffer.getSize 0).measure (h.buffer.getSize + 1) ≤
        scanFuel h.buffer.getSize := by
      rw [Scan.measure, scanFuel]
      refine Nat.add_le_add (Nat.mul_le_mul_right _ ?_) (Nat.sub_le _ _)
      split
      · exact Nat.le_succ _
      · exact Nat.le_refl _
    -- What every round keeps.
    let P (s : Scan) : Prop := (∃ r, ScanTracks s r ∧ r.Within h.buffer.getSize) ∧
      s.handler.buffer.getSize ≤ h.buffer.getSize
    have hP : P ⟨h, h.buffer.getSize, 0⟩ := ⟨⟨r, hstart, hinv, hheld.ge⟩, Nat.le_refl _⟩
    have hstep : ∀ s : Scan, decide (s.handler.pos < s.bufSize) = true → P s → P (scanStep s) := by
      rintro s hc ⟨⟨r, hs, hw⟩, hsize⟩
      have hr := hs.cond_eq ▸ hc
      exact ⟨⟨r.step, scanStep_tracks hs hr, Receiver.within_step hr hw⟩,
        (getSize_scanStep_le s).trans hsize⟩
    have hrun : BoundedLoop.tryRun CheckedScan.ready scanStepChecked .endless
        (scanFuel h.buffer.getSize) (Scan.mk h h.buffer.getSize 0).checked =
          .ok (BoundedLoop.run (fun s : Scan => decide (s.handler.pos < s.bufSize)) scanStep
            (scanFuel h.buffer.getSize) ⟨h, h.buffer.getSize, 0⟩).checked := by
      refine BoundedLoop.tryRun_eq (P := P) (μ := Scan.measure (h.buffer.getSize + 1)) hstep ?_
        (fun _ _ => rfl) ?_ _ _ hP hfuel
      · rintro s hc ⟨⟨r, hs, hw⟩, _⟩
        have hr := hs.cond_eq ▸ hc
        rw [hs.measure_eq, (scanStep_tracks hs hr).measure_eq]
        exact Receiver.measure_step hr hw
      · rintro s hc ⟨⟨r, hs, _⟩, hsize⟩
        exact scanStepChecked_ok hs (hs.cond_eq ▸ hc) (Nat.lt_of_le_of_lt hsize hsmall)
    have hend : P _ :=
      BoundedLoop.run_invariant hstep (scanFuel h.buffer.getSize) ⟨h, h.buffer.getSize, 0⟩ hP
    rw [show CheckedScan.mk h h.buffer.getSize 0 = (Scan.mk h h.buffer.getSize 0).checked from rfl,
      hrun, ok_bind]
    generalize BoundedLoop.run _ scanStep _ _ = s at hend ⊢
    obtain ⟨⟨r', hs, _⟩, hsize⟩ := hend
    have hpos := hs.tracks.pos
    have hle := hs.tracks.pending_le
    have hwiden : widen s.bytesToDrop = s.bytesToDrop := widen_natCast (by omega)
    have hpositive : (s.bytesToDrop : Int) > 0 ↔ s.bytesToDrop > 0 := Int.natCast_pos
    simp only [Scan.checked_handler, Scan.checked_bytesToDrop, hwiden, hpositive]
    by_cases hdrop : s.bytesToDrop > 0
    · rw [if_pos hdrop, if_pos hdrop, checkedSub_ok (by omega), ok_bind]
    · rw [if_neg hdrop, if_neg hdrop]
  · rw [if_neg hempty, if_neg hempty]

/-! ## Runs -/

/-- What becomes available in a call. -/
def Call.bytes : Call → List UInt8
  | .arrive bytes => bytes
  | _ => []

namespace History

variable {s : History} {r : Receiver}

/-- A call with checks.  What is pushed is observed as in a call without. -/
def afterChecked (s : History) : Call → Except Fault History
  | .processData now => do
    let handler ← s.handler.processDataChecked now
    .ok { s.after (.processData now) with handler }
  | call => .ok (s.after call)

def runChecked (s : History) (calls : List Call) : Except Fault History :=
  calls.foldlM afterChecked s

theorem runChecked_snoc (s : History) (calls : List Call) (call : Call) :
    s.runChecked (calls ++ [call]) = s.runChecked calls >>= (·.afterChecked call) := by
  simp only [runChecked, List.foldlM_append, List.foldlM_cons, List.foldlM_nil, bind_pure]

theorem afterChecked_ok (h : Matches s r) {call : Call}
    (hsmall : ∀ now, call = .processData now → s.handler.buffer.getSize < 2 ^ 31) :
    s.afterChecked call = .ok (s.after call) := by
  cases call with
  | processData now =>
    rw [afterChecked, processDataChecked_ok h.tracks h.inv (hsmall now rfl) now, ok_bind]
    rfl
  | _ => rfl

/-- At every call to `process_data` fewer than 2 ^ 31 bytes are stored. -/
def StoresLittle (s : History) (calls : List Call) : Prop :=
  ∀ before now after, calls = before ++ .processData now :: after →
    (s.run before).handler.buffer.getSize < 2 ^ 31

theorem StoresLittle.of_append {before after : List Call}
    (hsmall : s.StoresLittle (before ++ after)) : s.StoresLittle before := by
  rintro earlier now later rfl
  exact hsmall earlier now (later ++ after) (by rw [List.append_assoc, List.cons_append])

/-- A run with checks that never stores much. -/
theorem runChecked_of_matches (h : Matches s r) {calls : List Call}
    (hsmall : s.StoresLittle calls) : s.runChecked calls = .ok (s.run calls) := by
  induction calls using List.reverseRecOn with
  | nil => rfl
  | append_singleton calls call ih =>
    obtain ⟨r', h'⟩ := Matches.run calls h
    rw [runChecked_snoc, ih hsmall.of_append, ok_bind, run_snoc]
    refine afterChecked_ok h' ?_
    rintro now rfl
    exact hsmall calls now [] rfl

theorem runChecked_ok {cells : Nat → UInt8} {bufferSize : Nat} {calls : List Call}
    (hsmall : (start cells bufferSize).StoresLittle calls) :
    (start cells bufferSize).runChecked calls = .ok ((start cells bufferSize).run calls) :=
  runChecked_of_matches (Matches.start cells bufferSize) hsmall

/-- What holds of the state that the run with checks reaches. -/
theorem StoresLittle.exists_iff {cells : Nat → UInt8} {bufferSize : Nat} {calls : List Call}
    (hsmall : (start cells bufferSize).StoresLittle calls) (P : History → Prop) :
    (∃ s, (start cells bufferSize).runChecked calls = .ok s ∧ P s) ↔
      P ((start cells bufferSize).run calls) := by
  rw [runChecked_ok hsmall]
  constructor
  · rintro ⟨s, ⟨⟩, hP⟩
    exact hP
  · exact fun hP => ⟨_, rfl, hP⟩

/-- A small buffer never stores much. -/
theorem storesLittle_of_capacity (hcapacity : s.handler.buffer.capacity < 2 ^ 31)
    (calls : List Call) : s.StoresLittle calls := by
  intro before now after _
  have hle := (s.run before).handler.buffer.getSize_le
  rw [(s.fixed_run before).1] at hle
  exact Nat.lt_of_le_of_lt hle hcapacity

theorem capacity_start_lt (cells : Nat → UInt8) {bufferSize : Nat} (hsize : bufferSize < 2 ^ 31) :
    (start cells bufferSize).handler.buffer.capacity < 2 ^ 31 := by
  show (if bufferSize < circularBufferMinimumSize then _ else bufferSize) < 2 ^ 31
  split
  · decide
  · exact hsize

theorem storesLittle_of_lt (cells : Nat → UInt8) {bufferSize : Nat} (hsize : bufferSize < 2 ^ 31)
    (calls : List Call) : (start cells bufferSize).StoresLittle calls :=
  storesLittle_of_capacity (capacity_start_lt cells hsize) calls

theorem received_after (s : History) (call : Call) :
    (s.after call).received ++ (s.after call).input = s.received ++ s.input ++ call.bytes := by
  cases call with
  | arrive bytes => exact (List.append_assoc ..).symm
  | readData =>
    obtain ⟨buffer, hread, _, _⟩ := readData_spec s.handler s.input
    rw [after, hread]
    show s.received ++ s.input.take _ ++ s.input.drop _ = s.received ++ s.input ++ []
    rw [List.append_assoc, List.take_append_drop, List.append_nil]
  | _ => exact (List.append_nil _).symm

theorem received_run (s : History) (calls : List Call) :
    (s.run calls).received ++ (s.run calls).input =
      s.received ++ s.input ++ calls.flatMap Call.bytes := by
  induction calls using List.reverseRecOn with
  | nil => exact (List.append_nil _).symm
  | append_singleton calls call ih =>
    rw [run_snoc, received_after, ih, List.flatMap_append, List.flatMap_singleton,
      List.append_assoc]

/-- Nor does a run in which little arrives. -/
theorem storesLittle_of_arrived (cells : Nat → UInt8) (bufferSize : Nat) {calls : List Call}
    (hlittle : (calls.flatMap Call.bytes).length < 2 ^ 31) :
    (start cells bufferSize).StoresLittle calls := by
  rintro before now after rfl
  obtain ⟨r, h⟩ := Matches.run before (Matches.start cells bufferSize)
  have hsize := h.tracks.getSize_sub
  have hreceived := congrArg List.length (received_run (start cells bufferSize) before)
  rw [Receiver.held, h.stream] at hsize
  rw [show (start cells bufferSize).received ++ (start cells bufferSize).input = [] from rfl,
    List.nil_append, List.length_append] at hreceived
  rw [List.flatMap_append, List.length_append] at hlittle
  omega

theorem bytes_feedCalls (chunks : List Chunk) :
    (feedCalls chunks).flatMap Call.bytes = Chunk.stream chunks := by
  rw [feedCalls, List.flatMap_assoc]
  refine List.flatMap_congr fun chunk _ => ?_
  exact List.append_nil _

end History

/-- In every run in which fewer than 2 ^ 31 bytes are stored whenever `process_data` is called,
whatever they are: its loop ends, every byte it looks at is stored, every write is inside its array
and no subtraction underflows. -/
theorem run_processData_checked (cells : Nat → UInt8) (bufferSize : Nat) (calls : List Call)
    (hsmall : (History.start cells bufferSize).StoresLittle calls) :
    ∀ before now after, calls = before ++ .processData now :: after →
      ∃ s, (History.start cells bufferSize).runChecked before = .ok s ∧
        s.handler.processDataChecked now = .ok (s.handler.processData now) := by
  rintro before now after rfl
  obtain ⟨r, h⟩ := Matches.run before (Matches.start cells bufferSize)
  exact ⟨_, History.runChecked_ok hsmall.of_append,
    processDataChecked_ok h.tracks h.inv (hsmall before now after rfl) now⟩

theorem run_processData_checked_garbage :
    ∃ s, (History.start (fun _ => 0) defaultBufferSize).runChecked
        [.arrive [0x00, 0xFF, 0xFF, 0x08], .readData] = .ok s ∧
      s.handler.processDataChecked 0 = .ok (s.handler.processData 0) :=
  run_processData_checked (fun _ => 0) defaultBufferSize
    [.arrive [0x00, 0xFF, 0xFF, 0x08], .readData, .processData 0]
    (History.storesLittle_of_lt _ (by decide) _) [.arrive [0x00, 0xFF, 0xFF, 0x08], .readData] 0 []
    rfl

/-! ## Too much garbage -/

section Garbage

variable {h : TransportLevelHandler}

/-- A round that looks at a byte of garbage, with nothing but garbage before it. -/
theorem scanStepChecked_garbage (hfound : h.frameStartFound = false)
    (hzero : ∀ i < h.buffer.getSize, h.buffer.get i = 0) {n : Nat} (hn : n < 2 ^ 31)
    (hlt : n < h.buffer.getSize) :
    scanStepChecked ⟨{ h with pos := n }, h.buffer.getSize, n⟩ =
      .ok ⟨{ h with pos := n + 1 }, h.buffer.getSize, narrow (n + 1)⟩ := by
  have hbyte : ¬ h.buffer.get n = separatorByte := by
    rw [hzero n hlt]
    decide
  have hlength : ¬ n - n = frameSeparatorsCount := by
    rw [Nat.sub_self]
    decide
  rw [scanStepChecked]
  simp only [hfound, Bool.not_false, if_true]
  rw [seekStepChecked]
  simp only [widen_natCast (n := n) (by omega)]
  rw [checkedGet_ok hlt, ok_bind, if_neg hbyte, checkedSub_ok (Nat.le_refl n), ok_bind,
    if_neg hlength]

theorem tryRun_garbage (hfound : h.frameStartFound = false)
    (hzero : ∀ i < h.buffer.getSize, h.buffer.get i = 0) (fuel : Nat) :
    ∀ {n : Nat}, n < 2 ^ 31 → n < h.buffer.getSize →
      BoundedLoop.tryRun CheckedScan.ready scanStepChecked .endless (fuel + n)
          ⟨{ h with pos := 0 }, h.buffer.getSize, (0 : Nat)⟩ =
        BoundedLoop.tryRun CheckedScan.ready scanStepChecked .endless fuel
          ⟨{ h with pos := n }, h.buffer.getSize, n⟩ := by
  intro n
  induction n generalizing fuel with
  | zero => exact fun _ _ => rfl
  | succ n ih =>
    intro hn hlt
    have hbefore := ih (fuel + 1) (Nat.lt_of_succ_lt hn) (Nat.lt_of_succ_lt hlt)
    have hround := scanStepChecked_garbage hfound hzero (Nat.lt_of_succ_lt hn)
      (Nat.lt_of_succ_lt hlt)
    rw [narrow_eq hn] at hround
    have hcond : CheckedScan.ready ⟨{ h with pos := n }, h.buffer.getSize, n⟩ = true :=
      decide_eq_true (Nat.lt_of_succ_lt hlt)
    rw [show fuel + (n + 1) = fuel + 1 + n by omega, hbefore]
    exact BoundedLoop.tryRun_ok hcond hround fuel

/-- The number of bytes to drop has become negative, and an enormous size. -/
theorem scanStepChecked_overlong (hfound : h.frameStartFound = false)
    (hzero : ∀ i < h.buffer.getSize, h.buffer.get i = 0) (hlt : 2 ^ 31 < h.buffer.getSize) :
    scanStepChecked ⟨{ h with pos := 2 ^ 31 }, h.buffer.getSize, narrow (2 ^ 31)⟩ =
      .error (.underflow (2 ^ 31) (2 ^ 64 - 2 ^ 31)) := by
  have hbyte : ¬ h.buffer.get (2 ^ 31) = separatorByte := by
    rw [hzero _ hlt]
    decide
  have hwiden : widen (narrow (2 ^ 31)) = 2 ^ 64 - 2 ^ 31 := by decide
  have hunder : checkedSub (2 ^ 31) (2 ^ 64 - 2 ^ 31) =
      .error (.underflow (2 ^ 31) (2 ^ 64 - 2 ^ 31)) := if_neg (by decide)
  rw [scanStepChecked]
  simp only [hfound, Bool.not_false, if_true]
  rw [seekStepChecked]
  simp only [hwiden]
  rw [checkedGet_ok hlt, ok_bind, if_neg hbyte, hunder]
  rfl

theorem processDataChecked_overlong (hpos : h.pos = 0) (hfound : h.frameStartFound = false)
    (hzero : ∀ i < h.buffer.getSize, h.buffer.get i = 0) (hlt : 2 ^ 31 < h.buffer.getSize)
    (now : TimePoint) :
    h.processDataChecked now = .error (.underflow (2 ^ 31) (2 ^ 64 - 2 ^ 31)) := by
  obtain ⟨last, hlast⟩ : ∃ last, last + 1 = 2 ^ 31 := ⟨2 ^ 31 - 1, by decide⟩
  obtain ⟨fuel, hfuel⟩ : ∃ fuel, scanFuel h.buffer.getSize = fuel + 2 + last := by
    refine ⟨scanFuel h.buffer.getSize - 2 - last, ?_⟩
    rw [scanFuel]
    omega
  have hsame : { h with pos := 0 } = h := by rw [← hpos]
  have hempty : (!h.buffer.isEmpty) = true := by
    have hiff := h.buffer.getSize_eq_zero_iff
    cases hisEmpty : h.buffer.isEmpty with
    | false => rfl
    | true => exact absurd (hiff.mpr hisEmpty) (by omega)
  have hround := scanStepChecked_garbage hfound hzero (n := last) (by omega) (by omega)
  rw [hlast] at hround
  have hrun := tryRun_garbage hfound hzero (fuel + 2) (n := last) (by omega) (by omega)
  have hready : CheckedScan.ready ⟨{ h with pos := last }, h.buffer.getSize, last⟩ = true :=
    decide_eq_true (show last < h.buffer.getSize by omega)
  have hover : CheckedScan.ready
      ⟨{ h with pos := 2 ^ 31 }, h.buffer.getSize, narrow (2 ^ 31)⟩ = true := decide_eq_true hlt
  rw [hsame, BoundedLoop.tryRun_ok hready hround,
    BoundedLoop.tryRun_error hover (scanStepChecked_overlong hfound hzero hlt)] at hrun
  rw [processDataChecked, checkTimeout_eq]
  dsimp only
  rw [if_pos hempty, hfuel]
  show (BoundedLoop.tryRun CheckedScan.ready scanStepChecked .endless (fuel + 2 + last)
    ⟨h, h.buffer.getSize, (0 : Nat)⟩ >>= _) = _
  rw [hrun]
  rfl

/-- What a new handler stores that has read as many zeros as its ring holds. -/
theorem tracks_zeros (cells : Nat → UInt8) {bufferSize : Nat}
    (hlong : circularBufferMinimumSize ≤ bufferSize) :
    Tracks (((History.start cells bufferSize).after (.arrive (List.replicate bufferSize 0))).after
      .readData).handler 0 (Receiver.fresh.push (List.replicate bufferSize 0)) := by
  have hstart := tracks_ofBufferSize cells bufferSize
  have hcapacity : (ofBufferSize cells bufferSize).buffer.capacity = bufferSize :=
    if_neg (Nat.not_lt.mpr hlong)
  have hempty : (ofBufferSize cells bufferSize).buffer.getSize = 0 := hstart.getSize_sub
  have hroom : (List.replicate bufferSize (0 : UInt8)).length ≤
      (ofBufferSize cells bufferSize).buffer.capacity - Receiver.fresh.held := by
    rw [← getSpace_eq hstart, Members.getSpace, hempty, hcapacity, Nat.sub_zero,
      List.length_replicate]
  have ht := readData_tracks hstart Receiver.inv_fresh (List.replicate bufferSize 0)
  rw [receive_of_room hroom] at ht
  exact ht

/-- With a ring long enough for it, a subtraction underflows. -/
theorem processDataChecked_zeros (cells : Nat → UInt8) {bufferSize : Nat}
    (hlong : 2 ^ 31 < bufferSize) (now : TimePoint) :
    (((History.start cells bufferSize).after (.arrive (List.replicate bufferSize 0))).after
      .readData).handler.processDataChecked now =
        .error (.underflow (2 ^ 31) (2 ^ 64 - 2 ^ 31)) := by
  have hminimum : circularBufferMinimumSize ≤ bufferSize := by
    rw [circularBufferMinimumSize]
    omega
  have ht := tracks_zeros cells hminimum
  have hheld : (Receiver.fresh.push (List.replicate bufferSize 0)).held = bufferSize :=
    List.length_replicate
  have hsize := ht.getSize_sub
  rw [Nat.sub_zero, hheld] at hsize
  refine processDataChecked_overlong ht.pos ht.found ?_ (hsize.symm ▸ hlong) now
  intro i hi
  have hget := ht.get_eq (i := i) (by omega)
  rw [Nat.zero_add, Receiver.byteAt] at hget
  have hinside : (Receiver.fresh.push (List.replicate bufferSize 0)).front + i < bufferSize := by
    rw [show (Receiver.fresh.push (List.replicate bufferSize 0)).front = 0 from rfl]
    omega
  exact hget.trans (List.getD_replicate 0 hinside)

/-- Garbage enough, and a subtraction underflows. -/
theorem overlongGarbage_underflows :
    ∃ s, (History.start (fun _ => 0) (2 ^ 31 + 1)).runChecked
        [.arrive (List.replicate (2 ^ 31 + 1) 0), .readData] = .ok s ∧
      s.handler.processDataChecked 0 = .error (.underflow (2 ^ 31) (2 ^ 64 - 2 ^ 31)) :=
  ⟨_, rfl, processDataChecked_zeros (fun _ => 0) (Nat.lt_succ_self (2 ^ 31)) 0⟩

end Garbage

end HaierProtocol
