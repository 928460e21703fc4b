import HaierProtocol.Lib.BoundedLoop
import HaierProtocol.Transport.ParseBuffer

/-!
# The receiver

What the receive loop does, without the ring buffer: a receiver keeps the whole stream
received so far, the position `front` of the first byte it still holds, and how many
bytes from there on it has looked at.  Bytes are given up by moving `front`, so every frame it
accepts has a place in the stream, which `log` records.

`Move` lists what one step can do, by what the receiver is doing, with the counters of the
code replaced by the number of logical bytes seen.  `Inv` is the invariant that justifies the
replacement, and `measure_step` bounds the steps.
-/

namespace HaierProtocol

open Stuffing (unstuff accepted completed)

/-- An accepted frame, and the position in the stream right after its last byte. -/
structure Reception where
  frame : HaierFrame
  stop : Nat

structure Receiver where
  stream : List UInt8
  front : Nat
  pos : Nat
  sepCount : Nat
  found : Bool
  frame : HaierFrame
  log : List Reception
  /-- How many of the accepted frames have been taken out of the queue. -/
  taken : Nat

namespace Receiver

def fresh : Receiver where
  stream := []
  front := 0
  pos := 0
  sepCount := 0
  found := false
  frame := .empty
  log := []
  taken := 0

/-- The `i`-th byte held. -/
def byteAt (r : Receiver) (i : Nat) : UInt8 := r.stream.getD (r.front + i) 0

/-- The first `n` bytes held. -/
def window (r : Receiver) (n : Nat) : List UInt8 := (r.stream.drop r.front).take n

/-- The bytes looked at, the current one included. -/
def seen (r : Receiver) : List UInt8 := r.window (r.pos + 1)

def reset (r : Receiver) : Receiver :=
  { r with pos := 0, sepCount := 0, found := false, frame := .empty }

/-- Give up the first `n` bytes held. -/
def skip (r : Receiver) (n : Nat) : Receiver := { r with front := r.front + n }

/-- Look for two separators and a byte that is not one. -/
def seek (r : Receiver) : Receiver :=
  if r.byteAt r.pos = 0xFF then
    { r.skip (r.pos + 1 - 2) with pos := r.pos + 1 - (r.pos + 1 - 2) }
  else if r.pos = 2 then { r with found := true, pos := r.pos + 1 }
  else { r.skip (r.pos + 1) with pos := 0 }

/-- The last byte of a header has arrived. -/
def finishHeader (r : Receiver) : Receiver :=
  match unstuff 0xFF 0x55 false (r.seen.drop 3) with
  | none => (r.skip (3 + accepted 0xFF 0x55 false (r.seen.drop 3) - 1)).reset
  | some header =>
    let result := r.frame.parseBuffer (r.seen.take 3 ++ header)
    if result.2.1 = .headerOnly then
      { r.skip (r.pos + 1) with pos := 0, sepCount := 0, frame := result.1 }
    else (r.skip (r.pos + 1)).reset

/-- The last byte of a body has arrived. -/
def finishBody (r : Receiver) : Receiver :=
  match unstuff 0xFF 0x55 false r.seen with
  | none => (r.skip (accepted 0xFF 0x55 false r.seen - 1)).reset
  | some body =>
    let result := r.frame.parseBuffer body
    let stop := r.front + (r.pos + 1)
    if result.2.1 = .completeFrame then
      { (r.skip (r.pos + 1)).reset with log := r.log ++ [⟨result.1, stop⟩] }
    else (r.skip (r.pos + 1)).reset

def step (r : Receiver) : Receiver :=
  if r.found = false then r.seek
  else
    let sepCount := if r.byteAt r.pos = 0xFF then r.sepCount + 1 else r.sepCount
    match r.frame.status with
    | .frameEmpty =>
      if r.pos + 1 - sepCount = 10 then r.finishHeader else { r with pos := r.pos + 1, sepCount }
    | .frameHeaderOnly =>
      if r.pos + 1 - sepCount = r.frame.bodySize then r.finishBody
      else { r with pos := r.pos + 1, sepCount }
    | .frameComplete => { r with sepCount, found := false, frame := .empty }

/-- Whether there is a byte to look at. -/
def ready (r : Receiver) : Bool := decide (r.front + r.pos < r.stream.length)

/-! ## Windows -/

theorem length_window {r : Receiver} {n : Nat} (h : r.front + n ≤ r.stream.length) :
    (r.window n).length = n := by
  rw [window, List.length_take, List.length_drop]
  omega

theorem window_succ {r : Receiver} {n : Nat} (h : r.front + n < r.stream.length) :
    r.window (n + 1) = r.window n ++ [r.byteAt n] := by
  rw [window, window, List.take_add_one, List.getElem?_drop, List.getElem?_eq_getElem h, byteAt,
    List.getD_eq_getElem?_getD, List.getElem?_eq_getElem h]
  rfl

theorem drop_window_succ {r : Receiver} {n k : Nat} (h : r.front + n < r.stream.length)
    (hk : k ≤ n) : (r.window (n + 1)).drop k = (r.window n).drop k ++ [r.byteAt n] := by
  rw [window_succ h, List.drop_append_of_le_length]
  rw [length_window (Nat.le_of_lt h)]
  exact hk

theorem getElem?_window {r : Receiver} {n i : Nat} (hi : i < n)
    (h : r.front + n ≤ r.stream.length) : (r.window n)[i]? = some (r.byteAt i) := by
  have hlt : r.front + i < r.stream.length := by omega
  rw [window, List.getElem?_take_of_lt hi, List.getElem?_drop, List.getElem?_eq_getElem hlt, byteAt,
    List.getD_eq_getElem?_getD, List.getElem?_eq_getElem hlt]
  rfl

theorem completed_snoc (l : List UInt8) (b : UInt8) :
    completed 0xFF (l ++ [b]) = completed 0xFF l + if b = 0xFF then 0 else 1 := by
  rw [Stuffing.completed_append, Stuffing.completed_cons, Stuffing.completed_nil]

/-! ## The invariant -/

/-- What the receiver is doing, and what its counters then mean. -/
inductive Mode (r : Receiver) : Prop where
  | seeking (hfound : r.found = false) (hframe : r.frame = .empty) (hsep : r.sepCount = 0)
      (hpos : r.pos ≤ 2)
  | header (hfound : r.found = true) (hframe : r.frame = .empty) (hpos : 3 ≤ r.pos)
      (hlen : r.byteAt 2 ≠ 0xFF) (hsep : r.sepCount = ((r.window r.pos).drop 3).count 0xFF)
      (hmore : completed 0xFF ((r.window r.pos).drop 2) < 8)
  | body (hfound : r.found = true) (hstatus : r.frame.status = .frameHeaderOnly)
      (hsep : r.sepCount = (r.window r.pos).count 0xFF)
      (hmore : completed 0xFF (r.window r.pos) < r.frame.bodySize) (hsize : r.frame.bodySize ≤ 236)

structure Inv (r : Receiver) : Prop where
  cursor_le : r.front + r.pos ≤ r.stream.length
  mode : r.Mode

theorem inv_fresh : fresh.Inv := ⟨Nat.le_refl 0, .seeking rfl rfl rfl (Nat.zero_le 2)⟩

/-- A reset leaves nothing to keep but the position. -/
theorem inv_reset {r : Receiver} (h : r.front ≤ r.stream.length) : r.reset.Inv :=
  ⟨h, .seeking rfl rfl rfl (Nat.zero_le 2)⟩

/-! ## Steps -/

/-- Looking for a frame. -/
inductive SeekMove (r : Receiver) : Receiver → Prop where
  | mark (hbyte : r.byteAt r.pos = 0xFF) :
      SeekMove r { r.skip (r.pos + 1 - 2) with pos := r.pos + 1 - (r.pos + 1 - 2) }
  | start (hbyte : r.byteAt r.pos ≠ 0xFF) (hpos : r.pos = 2) :
      SeekMove r { r with found := true, pos := 3 }
  | garbage (hbyte : r.byteAt r.pos ≠ 0xFF) (hpos : r.pos ≠ 2) :
      SeekMove r { r.skip (r.pos + 1) with pos := 0 }

/-- Within a header, which needs eight logical bytes, the first of them at index two. -/
inductive HeaderMove (r : Receiver) : Receiver → Prop where
  | byte (hmore : completed 0xFF (r.seen.drop 2) < 8) :
      HeaderMove r { r with pos := r.pos + 1, sepCount := (r.seen.drop 3).count 0xFF }
  | escape (hlast : completed 0xFF (r.seen.drop 2) = 8)
      (hbad : unstuff 0xFF 0x55 false (r.seen.drop 3) = none) :
      HeaderMove r (r.skip (3 + accepted 0xFF 0x55 false (r.seen.drop 3) - 1)).reset
  | reject {header : List UInt8} (hlast : completed 0xFF (r.seen.drop 2) = 8)
      (hgood : unstuff 0xFF 0x55 false (r.seen.drop 3) = some header)
      (herr : (HaierFrame.empty.parseBuffer (r.seen.take 3 ++ header)).2.1 ≠ .headerOnly) :
      HeaderMove r (r.skip (r.pos + 1)).reset
  | accept {header : List UInt8} (hlast : completed 0xFF (r.seen.drop 2) = 8)
      (hgood : unstuff 0xFF 0x55 false (r.seen.drop 3) = some header)
      (herr : (HaierFrame.empty.parseBuffer (r.seen.take 3 ++ header)).2.1 = .headerOnly) :
      HeaderMove r { r.skip (r.pos + 1) with
        pos := 0
        sepCount := 0
        frame := (HaierFrame.empty.parseBuffer (r.seen.take 3 ++ header)).1 }

/-- Within a body, which needs as many logical bytes as the header says. -/
inductive BodyMove (r : Receiver) : Receiver → Prop where
  | byte (hmore : completed 0xFF r.seen < r.frame.bodySize) :
      BodyMove r { r with pos := r.pos + 1, sepCount := r.seen.count 0xFF }
  | escape (hlast : completed 0xFF r.seen = r.frame.bodySize)
      (hbad : unstuff 0xFF 0x55 false r.seen = none) :
      BodyMove r (r.skip (accepted 0xFF 0x55 false r.seen - 1)).reset
  | reject {body : List UInt8} (hlast : completed 0xFF r.seen = r.frame.bodySize)
      (hgood : unstuff 0xFF 0x55 false r.seen = some body)
      (herr : (r.frame.parseBuffer body).2.1 ≠ .completeFrame) :
      BodyMove r (r.skip (r.pos + 1)).reset
  | accept {body : List UInt8} (hlast : completed 0xFF r.seen = r.frame.bodySize)
      (hgood : unstuff 0xFF 0x55 false r.seen = some body)
      (herr : (r.frame.parseBuffer body).2.1 = .completeFrame) :
      BodyMove r { (r.skip (r.pos + 1)).reset with
        log := r.log ++ [⟨(r.frame.parseBuffer body).1, r.front + (r.pos + 1)⟩] }

/-- The outcomes of one step. -/
inductive Move (r r' : Receiver) : Prop where
  | seeking (hfound : r.found = false) (hm : r.SeekMove r')
  | header (hfound : r.found = true) (hframe : r.frame = .empty) (hm : r.HeaderMove r')
  | body (hfound : r.found = true) (hstatus : r.frame.status = .frameHeaderOnly)
      (hm : r.BodyMove r')

theorem ready_iff {r : Receiver} : r.ready = true ↔ r.front + r.pos < r.stream.length :=
  decide_eq_true_iff

theorem le_of_not_ready {r : Receiver} (hr : r.ready = false) :
    r.stream.length ≤ r.front + r.pos := by
  rw [ready, decide_eq_false_iff_not] at hr
  exact Nat.le_of_not_lt hr

theorem count_seen {r : Receiver} (hr : r.ready = true) {k : Nat} (hk : k ≤ r.pos) :
    (r.seen.drop k).count 0xFF =
      ((r.window r.pos).drop k).count 0xFF + if r.byteAt r.pos = 0xFF then 1 else 0 := by
  rw [seen, drop_window_succ (ready_iff.mp hr) hk, List.count_append, List.count_singleton]
  simp

/-- `sep_count_` once the current byte has been counted. -/
theorem sepCount_seen {r : Receiver} (hr : r.ready = true) {k : Nat} (hk : k ≤ r.pos)
    (hsep : r.sepCount = ((r.window r.pos).drop k).count 0xFF) :
    (if r.byteAt r.pos = 0xFF then r.sepCount + 1 else r.sepCount) =
      (r.seen.drop k).count 0xFF := by
  rw [count_seen hr hk, hsep]
  split <;> rfl

theorem completed_seen {r : Receiver} (hr : r.ready = true) {k : Nat} (hk : k ≤ r.pos) :
    completed 0xFF (r.seen.drop k) =
      completed 0xFF ((r.window r.pos).drop k) + if r.byteAt r.pos = 0xFF then 0 else 1 := by
  rw [seen, drop_window_succ (ready_iff.mp hr) hk, completed_snoc]

theorem length_seen {r : Receiver} (hr : r.ready = true) : r.seen.length = r.pos + 1 :=
  length_window (ready_iff.mp hr)

/-- The two ways of counting the logical bytes of a header agree. -/
theorem header_count {r : Receiver} (hr : r.ready = true) (hpos : 3 ≤ r.pos)
    (hlen : r.byteAt 2 ≠ 0xFF) :
    r.pos + 1 - (r.seen.drop 3).count 0xFF = completed 0xFF (r.seen.drop 2) + 2 := by
  have h2 : r.seen[2]? = some (r.byteAt 2) := getElem?_window (by omega) (ready_iff.mp hr)
  have hcons : r.seen.drop 2 = r.byteAt 2 :: r.seen.drop 3 := by
    have hl := length_seen hr
    rw [List.drop_eq_getElem_cons (by omega)]
    rw [List.getElem?_eq_getElem (by omega), Option.some_inj] at h2
    rw [h2]
  have hsum := Stuffing.completed_add_count (0xFF : UInt8) (r.seen.drop 3)
  rw [List.length_drop, length_seen hr] at hsum
  rw [hcons, Stuffing.completed_cons, if_neg hlen]
  omega

theorem body_count {r : Receiver} (hr : r.ready = true) :
    r.pos + 1 - r.seen.count 0xFF = completed 0xFF r.seen := by
  have hsum := Stuffing.completed_add_count (0xFF : UInt8) r.seen
  rw [length_seen hr] at hsum
  omega

/-- Every step under the invariant is one of the moves. -/
theorem move_step {r : Receiver} (h : r.Inv) (hr : r.ready = true) : r.Move r.step := by
  cases h.mode with
  | seeking hfound hframe hsep hpos =>
    rw [step, if_pos hfound, seek]
    split
    · exact .seeking hfound (.mark ‹_›)
    · split
      · rename_i hp
        rw [hp]
        exact .seeking hfound (.start ‹_› hp)
      · exact .seeking hfound (.garbage ‹_› ‹_›)
  | header hfound hframe hpos hlen hsep hmore =>
    have hcount := sepCount_seen hr hpos hsep
    have hseen := completed_seen hr (k := 2) (by omega)
    have hstatus : r.frame.status = .frameEmpty := by rw [hframe]; rfl
    rw [step, if_neg (by rw [hfound]; decide)]
    simp only [hcount, header_count hr hpos hlen, hstatus]
    split
    · have hlast : completed 0xFF (r.seen.drop 2) = 8 := by omega
      rw [finishHeader, hframe]
      split
      · exact .header hfound hframe (.escape hlast ‹_›)
      · dsimp only
        split
        · exact .header hfound hframe (.accept hlast ‹_› ‹_›)
        · exact .header hfound hframe (.reject hlast ‹_› ‹_›)
    · refine .header hfound hframe (.byte ?_)
      split at hseen <;> omega
  | body hfound hstatus hsep hmore hsize =>
    have hcount := sepCount_seen hr (Nat.zero_le _) hsep
    rw [List.drop_zero] at hcount
    have hseen := completed_seen hr (k := 0) (Nat.zero_le _)
    rw [List.drop_zero, List.drop_zero] at hseen
    rw [step, if_neg (by rw [hfound]; decide)]
    simp only [hcount, body_count hr, hstatus]
    split
    · rename_i hlast
      rw [finishBody]
      split
      · exact .body hfound hstatus (.escape hlast ‹_›)
      · dsimp only
        split
        · exact .body hfound hstatus (.accept hlast ‹_› ‹_›)
        · exact .body hfound hstatus (.reject hlast ‹_› ‹_›)
    · refine .body hfound hstatus (.byte ?_)
      split at hseen <;> omega

theorem Inv.of_seeking {r : Receiver} (h : r.Inv) (hfound : r.found = false) :
    r.frame = .empty ∧ r.sepCount = 0 ∧ r.pos ≤ 2 := by
  cases h.mode with
  | seeking _ hframe hsep hpos => exact ⟨hframe, hsep, hpos⟩
  | header hf => rw [hfound] at hf; cases hf
  | body hf => rw [hfound] at hf; cases hf

theorem Inv.of_header {r : Receiver} (h : r.Inv) (hfound : r.found = true)
    (hframe : r.frame = .empty) :
    3 ≤ r.pos ∧ r.byteAt 2 ≠ 0xFF ∧ completed 0xFF ((r.window r.pos).drop 2) < 8 := by
  cases h.mode with
  | seeking hf => rw [hfound] at hf; cases hf
  | header _ _ hpos hlen _ hmore => exact ⟨hpos, hlen, hmore⟩
  | body _ hstatus => rw [hframe] at hstatus; cases hstatus

theorem Inv.of_body {r : Receiver} (h : r.Inv) (hstatus : r.frame.status = .frameHeaderOnly) :
    completed 0xFF (r.window r.pos) < r.frame.bodySize ∧ r.frame.bodySize ≤ 236 := by
  cases h.mode with
  | seeking _ hframe => rw [hframe] at hstatus; cases hstatus
  | header _ hframe => rw [hframe] at hstatus; cases hstatus
  | body _ _ _ hmore hsize => exact ⟨hmore, hsize⟩

/-- The byte that completes something is not a separator. -/
theorem byteAt_ne_of_completed {r : Receiver} (hr : r.ready = true) {k : Nat} (hk : k ≤ r.pos)
    (hlt : completed 0xFF ((r.window r.pos).drop k) < completed 0xFF (r.seen.drop k)) :
    r.byteAt r.pos ≠ 0xFF := by
  intro hb
  have hcount := completed_seen hr hk
  rw [if_pos hb] at hcount
  omega

theorem Inv.header_last {r : Receiver} (h : r.Inv) (hr : r.ready = true) (hfound : r.found = true)
    (hframe : r.frame = .empty) (hlast : completed 0xFF (r.seen.drop 2) = 8) :
    r.byteAt r.pos ≠ 0xFF := by
  obtain ⟨hpos, _, hmore⟩ := h.of_header hfound hframe
  exact byteAt_ne_of_completed hr (k := 2) (by omega) (by omega)

theorem Inv.body_last {r : Receiver} (h : r.Inv) (hr : r.ready = true)
    (hstatus : r.frame.status = .frameHeaderOnly)
    (hlast : completed 0xFF r.seen = r.frame.bodySize) :
    r.byteAt r.pos ≠ 0xFF := by
  refine byteAt_ne_of_completed hr (k := 0) (Nat.zero_le _) ?_
  have := (h.of_body hstatus).1
  rw [List.drop_zero, List.drop_zero]
  omega

theorem accepted_header_le {r : Receiver} (hr : r.ready = true) (hpos : 3 ≤ r.pos) :
    3 + accepted 0xFF 0x55 false (r.seen.drop 3) ≤ r.pos + 1 := by
  have h := Stuffing.accepted_le 0xFF 0x55 false (r.seen.drop 3)
  rw [List.length_drop, length_seen hr] at h
  omega

theorem accepted_body_le {r : Receiver} (hr : r.ready = true) :
    accepted 0xFF 0x55 false r.seen ≤ r.pos + 1 := by
  have h := Stuffing.accepted_le 0xFF 0x55 false r.seen
  rwa [length_seen hr] at h

theorem inv_seekMove {r r' : Receiver} (h : r.Inv) (hr : r.ready = true) (hfound : r.found = false)
    (hm : r.SeekMove r') : r'.Inv := by
  have hlt := ready_iff.mp hr
  obtain ⟨hframe, hsep, hpos⟩ := h.of_seeking hfound
  cases hm with
  | mark hbyte =>
    refine ⟨?_, .seeking hfound hframe hsep ?_⟩
    · show r.front + (r.pos + 1 - 2) + (r.pos + 1 - (r.pos + 1 - 2)) ≤ r.stream.length
      omega
    · show r.pos + 1 - (r.pos + 1 - 2) ≤ 2
      omega
  | start hbyte hpos =>
    have hlen : (r.window 3).length = 3 := length_window (by omega)
    refine ⟨?_, .header rfl hframe (Nat.le_refl 3) (hpos ▸ hbyte) ?_ ?_⟩
    · show r.front + 3 ≤ r.stream.length
      omega
    · show r.sepCount = ((r.window 3).drop 3).count 0xFF
      rw [hsep, List.drop_eq_nil_of_le (by omega), List.count_nil]
    · show completed 0xFF ((r.window 3).drop 2) < 8
      have := Stuffing.completed_le_length (0xFF : UInt8) ((r.window 3).drop 2)
      rw [List.length_drop, hlen] at this
      omega
  | garbage hbyte hne =>
    refine ⟨?_, .seeking hfound hframe hsep (Nat.zero_le 2)⟩
    show r.front + (r.pos + 1) + 0 ≤ r.stream.length
    omega

theorem inv_headerMove {r r' : Receiver} (h : r.Inv) (hr : r.ready = true) (hfound : r.found = true)
    (hframe : r.frame = .empty) (hm : r.HeaderMove r') : r'.Inv := by
  have hlt := ready_iff.mp hr
  obtain ⟨hpos, hlen, _⟩ := h.of_header hfound hframe
  cases hm with
  | byte hmore =>
    refine ⟨?_, .header hfound hframe (Nat.le_succ_of_le hpos) hlen rfl hmore⟩
    show r.front + (r.pos + 1) ≤ r.stream.length
    omega
  | escape =>
    have hle := accepted_header_le hr hpos
    refine inv_reset ?_
    show r.front + (3 + accepted 0xFF 0x55 false (r.seen.drop 3) - 1) ≤ r.stream.length
    omega
  | reject =>
    refine inv_reset ?_
    show r.front + (r.pos + 1) ≤ r.stream.length
    omega
  | accept hlast hgood herr =>
    obtain ⟨header, _, _, hsmall, hbig, hof⟩ := HaierFrame.parseBuffer_headerOnly herr
    obtain ⟨hposi, hle⟩ := HaierFrame.bodySize_ofHeader hsmall hbig
    rw [hof]
    refine ⟨?_, .body hfound rfl ?_ ?_ hle⟩
    · show r.front + (r.pos + 1) + 0 ≤ r.stream.length
      omega
    · show 0 = ((r.stream.drop (r.front + (r.pos + 1))).take 0).count 0xFF
      rw [List.take_zero, List.count_nil]
    · show completed 0xFF ((r.stream.drop (r.front + (r.pos + 1))).take 0) < _
      rw [List.take_zero, Stuffing.completed_nil]
      exact hposi

theorem inv_bodyMove {r r' : Receiver} (h : r.Inv) (hr : r.ready = true) (hfound : r.found = true)
    (hstatus : r.frame.status = .frameHeaderOnly) (hm : r.BodyMove r') : r'.Inv := by
  have hlt := ready_iff.mp hr
  cases hm with
  | byte hmore =>
    refine ⟨?_, .body hfound hstatus rfl hmore (h.of_body hstatus).2⟩
    show r.front + (r.pos + 1) ≤ r.stream.length
    omega
  | escape =>
    have hle := accepted_body_le hr
    refine inv_reset ?_
    show r.front + (accepted 0xFF 0x55 false r.seen - 1) ≤ r.stream.length
    omega
  | reject =>
    refine inv_reset ?_
    show r.front + (r.pos + 1) ≤ r.stream.length
    omega
  | accept =>
    refine ⟨?_, .seeking rfl rfl rfl (Nat.zero_le 2)⟩
    show r.front + (r.pos + 1) + 0 ≤ r.stream.length
    omega

theorem inv_move {r r' : Receiver} (h : r.Inv) (hr : r.ready = true) (hm : r.Move r') : r'.Inv := by
  cases hm with
  | seeking hfound hm => exact inv_seekMove h hr hfound hm
  | header hfound hframe hm => exact inv_headerMove h hr hfound hframe hm
  | body hfound hstatus hm => exact inv_bodyMove h hr hfound hstatus hm

theorem inv_step {r : Receiver} (h : r.Inv) (hr : r.ready = true) : r.step.Inv :=
  inv_move h hr (move_step h hr)

/-! ## Settling -/

/-- One if a header is known.  A wrong escape in a body may give up no byte, but it forgets
the header. -/
def rank (r : Receiver) : Nat := if r.frame.status = .frameEmpty then 0 else 1

/-- Steps give up bytes or forget a header, or else move on by one byte. -/
def measure (width : Nat) (r : Receiver) : Nat :=
  (2 * (r.stream.length - r.front) + r.rank) * width + (r.stream.length - (r.front + r.pos))

theorem lex_lt_left {x x' c c' width : Nat} (hx : x' < x) (hc : c' < width) :
    x' * width + c' < x * width + c := by
  have := Nat.mul_le_mul_right width (Nat.succ_le_of_lt hx)
  rw [Nat.succ_mul] at this
  omega

theorem lex_lt_right {x x' c c' width : Nat} (hx : x' ≤ x) (hc : c' < c) :
    x' * width + c' < x * width + c := by
  have := Nat.mul_le_mul_right width hx
  omega

theorem rank_le (r : Receiver) : r.rank ≤ 1 := by
  unfold rank
  split <;> omega

theorem measure_seekMove {r r' : Receiver} {width : Nat} (h : r.Inv) (hr : r.ready = true)
    (hfound : r.found = false) (hm : r.SeekMove r') : measure width r' < measure width r := by
  have hlt := ready_iff.mp hr
  obtain ⟨_, _, hpos⟩ := h.of_seeking hfound
  cases hm with
  | mark =>
    refine lex_lt_right ?_ ?_
    · show 2 * (r.stream.length - (r.front + (r.pos + 1 - 2))) + r.rank ≤ _
      omega
    · show r.stream.length - (r.front + (r.pos + 1 - 2) + (r.pos + 1 - (r.pos + 1 - 2))) < _
      omega
  | start hbyte hpos =>
    refine lex_lt_right (Nat.le_refl _) ?_
    show r.stream.length - (r.front + 3) < _
    omega
  | garbage =>
    refine lex_lt_right ?_ ?_
    · show 2 * (r.stream.length - (r.front + (r.pos + 1))) + r.rank ≤ _
      omega
    · show r.stream.length - (r.front + (r.pos + 1) + 0) < _
      omega

/-- A receiver that gives up a byte and has no header can look at all others again. -/
theorem measure_reset {r r' : Receiver} {width : Nat} (hstream : r'.stream = r.stream)
    (hframe : r'.frame = .empty) (hpos : r'.pos = 0) (hw : r.stream.length - r.front < width)
    (hlt : 2 * (r.stream.length - r'.front) < 2 * (r.stream.length - r.front) + r.rank)
    (hfront : r.front ≤ r'.front) : measure width r' < measure width r := by
  have hrank : r'.rank = 0 := by rw [rank, hframe]; rfl
  refine lex_lt_left ?_ ?_
  · rw [hstream, hrank]
    exact hlt
  · rw [hstream, hpos]
    omega

theorem measure_headerMove {r r' : Receiver} {width : Nat} (h : r.Inv) (hr : r.ready = true)
    (hfound : r.found = true) (hframe : r.frame = .empty) (hm : r.HeaderMove r')
    (hw : r.stream.length - r.front < width) : measure width r' < measure width r := by
  have hlt := ready_iff.mp hr
  cases hm with
  | byte =>
    refine lex_lt_right (Nat.le_refl _) ?_
    show r.stream.length - (r.front + (r.pos + 1)) < _
    omega
  | escape =>
    have hle := accepted_header_le hr (h.of_header hfound hframe).1
    refine measure_reset rfl rfl rfl hw ?_ (Nat.le_add_right _ _)
    show 2 * (r.stream.length - (r.front + (3 + accepted 0xFF 0x55 false (r.seen.drop 3) - 1))) < _
    omega
  | reject =>
    refine measure_reset rfl rfl rfl hw ?_ (Nat.le_add_right _ _)
    show 2 * (r.stream.length - (r.front + (r.pos + 1))) < _
    omega
  | accept =>
    refine lex_lt_left ?_ ?_
    · have hk : 2 * (r.stream.length - (r.front + (r.pos + 1))) + 1 <
          2 * (r.stream.length - r.front) + r.rank := by omega
      exact Nat.lt_of_le_of_lt (Nat.add_le_add_left (rank_le _) _) hk
    · show r.stream.length - (r.front + (r.pos + 1) + 0) < _
      omega

theorem measure_bodyMove {r r' : Receiver} {width : Nat} (hr : r.ready = true)
    (hstatus : r.frame.status = .frameHeaderOnly) (hm : r.BodyMove r')
    (hw : r.stream.length - r.front < width) : measure width r' < measure width r := by
  have hlt := ready_iff.mp hr
  cases hm with
  | byte =>
    refine lex_lt_right (Nat.le_refl _) ?_
    show r.stream.length - (r.front + (r.pos + 1)) < _
    omega
  | escape =>
    have hone : r.rank = 1 := by rw [rank, hstatus]; rfl
    refine measure_reset rfl rfl rfl hw ?_ (Nat.le_add_right _ _)
    show 2 * (r.stream.length - (r.front + (accepted 0xFF 0x55 false r.seen - 1))) < _
    omega
  | reject =>
    refine measure_reset rfl rfl rfl hw ?_ (Nat.le_add_right _ _)
    show 2 * (r.stream.length - (r.front + (r.pos + 1))) < _
    omega
  | accept =>
    refine measure_reset rfl rfl rfl hw ?_ (Nat.le_add_right _ _)
    show 2 * (r.stream.length - (r.front + (r.pos + 1))) < _
    omega

theorem measure_move {r r' : Receiver} {width : Nat} (h : r.Inv) (hr : r.ready = true)
    (hm : r.Move r') (hw : r.stream.length - r.front < width) :
    measure width r' < measure width r := by
  cases hm with
  | seeking hfound hm => exact measure_seekMove h hr hfound hm
  | header hfound hframe hm => exact measure_headerMove h hr hfound hframe hm hw
  | body hfound hstatus hm => exact measure_bodyMove hr hstatus hm hw

end Receiver
end HaierProtocol
