import Mathlib.Algebra.GroupWithZero.Nat
import Mathlib.Algebra.Ring.Int.Defs
import HaierProtocol.Lib.BoundedLoop
import HaierProtocol.Utils.CircularBuffer
import HaierProtocol.Transport.HaierFrame

/-!
# The transport level

`TransportLevelHandler` of `transport/protocol_transport.cpp`.  The stream is passed in
and out: `readData` takes the bytes available and returns those left, `sendData` returns
what it writes.  One round of the loop of `process_data` is `scanStep`, and the loop
is `BoundedLoop.run` with a bound that the buffer's size gives.

Time points and durations count the nanoseconds of the steady clock.
-/

namespace HaierProtocol

abbrev TimePoint := Int

/-- Nanoseconds in so many milliseconds. -/
def milliseconds (n : Int) : Int := n * 1000000

/-- `time + std::chrono::milliseconds(n)`.  The nanoseconds are counted in 64 bits, and a sum that
needs more wraps. -/
def addMilliseconds (time : TimePoint) (n : Int) : TimePoint :=
  (time + milliseconds n).bmod (2 ^ 64)

theorem addMilliseconds_eq {time : TimePoint} {n : Int} (hlow : -2 ^ 63 ≤ time + milliseconds n)
    (hhigh : time + milliseconds n < 2 ^ 63) :
    addMilliseconds time n = time + milliseconds n := by
  rw [addMilliseconds]
  apply Int.bmod_eq_of_le
  · exact hlow
  · exact hhigh

/-- An overflow only makes the time point earlier. -/
theorem addMilliseconds_le {time : TimePoint} {n : Int} (hlow : -2 ^ 63 ≤ time + milliseconds n) :
    addMilliseconds time n ≤ time + milliseconds n := by
  rw [addMilliseconds]
  by_cases hhigh : time + milliseconds n < 2 ^ 63
  · exact Int.le_of_eq (Int.bmod_eq_of_le hlow hhigh)
  · have hlt : (time + milliseconds n).bmod (2 ^ 64) < (2 ^ 64 + 1) / 2 :=
      Int.bmod_lt (by decide)
    have hle : (2 ^ 63 : Int) ≤ time + milliseconds n := Int.not_lt.mp hhigh
    have hhalf : ((2 ^ 64 + 1 : Nat) : Int) / 2 = 2 ^ 63 := by decide
    apply Int.le_trans _ hle
    rw [← hhalf]
    exact Int.le_of_lt hlt

def frameTimeout : Int := 300

structure TimestampedFrame where
  frame : HaierFrame
  timestamp : TimePoint
deriving DecidableEq, Repr

structure TransportLevelHandler where
  buffer : CircularBuffer UInt8
  pos : Nat
  sepCount : Nat
  frameStartFound : Bool
  currentFrame : HaierFrame
  frameStart : TimePoint
  incomingQueue : List TimestampedFrame

namespace TransportLevelHandler

/-- A new handler.  Nothing but the clock's epoch is ever stored in `frameStart`. -/
def ofBufferSize (cells : Nat → UInt8) (bufferSize : Nat) : TransportLevelHandler where
  buffer := .ofCapacity cells bufferSize
  pos := 0
  sepCount := 0
  frameStartFound := false
  currentFrame := .empty
  frameStart := 0
  incomingQueue := []

/-- The buffer size that `ProtocolHandler(stream)` asks for. -/
def defaultBufferSize : Nat := maxFrameSize.toNat + 10

/-- What is written to the stream, `none` where nothing is, and the result.  `heap` is what
the freshly allocated block holds. -/
def sendData (heap : Nat → UInt8) (frameType : UInt8) (data : List UInt8) (useCrc : Bool) :
    Option (List UInt8) × UInt8 :=
  if data.length > (maxFrameSize - pureHeaderSize).toNat then (none, 0)
  else
    let frame := HaierFrame.construct frameType data (UInt8.ofNat data.length) useCrc
    let size := frame.getBufferSize
    let tmpBuf := (List.range size).map heap
    (some (frame.fillBuffer tmpBuf size).1, UInt8.ofNat size)

def dropBytes (h : TransportLevelHandler) (size : Nat) : TransportLevelHandler :=
  { h with buffer := (h.buffer.drop size).1 }

/-- The reset that overflow, timeout and `reset_protocol` share. -/
def resetFrame (h : TransportLevelHandler) : TransportLevelHandler :=
  { h with
    pos := 0
    sepCount := 0
    frameStartFound := false
    currentFrame := h.currentFrame.reset }

/-- Make room for `count` bytes: the test for overflow. -/
def makeSpace (h : TransportLevelHandler) (count : Nat) : TransportLevelHandler :=
  let available := h.buffer.getSpace
  if count > available then
    let h := h.dropBytes (count - available)
    if h.frameStartFound then h.resetFrame else h
  else h

/-- `read_array` of a stream that keeps its contract: the bytes read and those left. -/
def readArray (input : List UInt8) (len : Nat) : List UInt8 × List UInt8 :=
  (input.take len, input.drop len)

/-- The handler, the bytes left in the stream and the number read, where `input` are the
bytes the stream has available. -/
def readData (h : TransportLevelHandler) (input : List UInt8) :
    TransportLevelHandler × List UInt8 × Nat :=
  let count := if input.length ≥ h.buffer.capacity then h.buffer.capacity else input.length
  let h := h.makeSpace count
  let (buffer, buf1, size1) := h.buffer.reserve count
  let (read1, input) := readArray input size1
  let buffer := buffer.store buf1 read1
  if count > read1.length then
    let (buffer, buf2, size2) := buffer.reserve (count - read1.length)
    let (read2, input) := readArray input size2
    ({ h with buffer := buffer.store buf2 read2 }, input, read1.length + read2.length)
  else ({ h with buffer }, input, read1.length)

/-- The loop's variables: the handler and the locals of `process_data`.  There `bytes_to_drop` is an
`int`, which makes no difference while fewer than 2 ^ 31 bytes are stored (`processDataChecked_ok`).
-/
structure Scan where
  handler : TransportLevelHandler
  bufSize : Nat
  bytesToDrop : Nat

/-- Both unstuffing loops, with `n` rounds to go from `bPos` on: the bytes copied, where the
loop stops and whether every escape was correct. -/
def unstuffLoop (get : Nat → UInt8) : Nat → Nat → List UInt8 → List UInt8 × Nat × Bool
  | 0, bPos, out => (out, bPos, true)
  | n + 1, bPos, out =>
    if bPos = 0 ∨ get (bPos - 1) ≠ separatorByte then
      unstuffLoop get n (bPos + 1) (out ++ [get bPos])
    else if get bPos ≠ separatorPostByte then (out, bPos, false)
    else unstuffLoop get n (bPos + 1) out

/-- The exit of both loops on a wrong escape at `bPos`. -/
def rewind (s : Scan) (bPos : Nat) : Scan :=
  let h := { s.handler with buffer := (s.handler.buffer.drop (bPos - 1)).1 }
  { s with handler := h.resetFrame, bufSize := h.buffer.getSize }

/-- A round that looks for the beginning of a frame. -/
def seekStep (s : Scan) : Scan :=
  let h := s.handler
  if h.buffer.get h.pos = separatorByte then
    let bytesToDrop :=
      if h.pos + 1 - s.bytesToDrop > frameSeparatorsCount then h.pos + 1 - frameSeparatorsCount
      else s.bytesToDrop
    { s with handler := { h with pos := h.pos + 1 }, bytesToDrop }
  else if h.pos - s.bytesToDrop = frameSeparatorsCount then
    let h := { h with frameStartFound := true }
    if s.bytesToDrop > 0 then
      let h := h.dropBytes s.bytesToDrop
      { handler := { h with pos := h.pos - s.bytesToDrop + 1 }
        bufSize := s.bufSize - s.bytesToDrop
        bytesToDrop := 0 }
    else { s with handler := { h with pos := h.pos + 1 } }
  else { s with handler := { h with pos := h.pos + 1 }, bytesToDrop := h.pos + 1 }

/-- The round that completes a header. -/
def headerStep (s : Scan) : Scan :=
  let h := s.handler
  let start := (List.range (frameSeparatorsCount + 1)).map h.buffer.get
  let (header, bPos, correctFrame) :=
    unstuffLoop h.buffer.get (h.pos + 1 - start.length) start.length start
  if !correctFrame then rewind s bPos
  else
    let (frame, err, _) := h.currentFrame.parseBuffer header
    let h := { h with
      buffer := (h.buffer.drop bPos).1
      pos := 0
      sepCount := 0
      currentFrame := frame }
    let h := if err ≠ .headerOnly then
        { h with currentFrame := frame.reset, frameStartFound := false } else h
    { s with handler := h, bufSize := s.bufSize - (s.handler.pos + 1) }

/-- The round that completes a body. -/
def bodyStep (s : Scan) : Scan :=
  let h := s.handler
  let (body, bPos, correctFrame) := unstuffLoop h.buffer.get (h.pos + 1) 0 []
  if !correctFrame then rewind s bPos
  else
    let (frame, err, _) := h.currentFrame.parseBuffer body
    let incomingQueue :=
      if err = FrameError.completeFrame then h.incomingQueue ++ [⟨frame, h.frameStart⟩]
      else h.incomingQueue
    let h := { h with buffer := (h.buffer.drop bPos).1, currentFrame := frame, incomingQueue }
    { s with handler := h.resetFrame, bufSize := h.buffer.getSize }

/-- One round of the loop of `process_data`. -/
def scanStep (s : Scan) : Scan :=
  if !s.handler.frameStartFound then seekStep s
  else
    let h := s.handler
    let h := { h with
      sepCount := if h.buffer.get h.pos = separatorByte then h.sepCount + 1 else h.sepCount }
    let s := { s with handler := h }
    let advance : Scan := { s with handler := { h with pos := h.pos + 1 } }
    match h.currentFrame.status with
    | .frameEmpty =>
      if h.pos + 1 - h.sepCount = frameHeaderSize then headerStep s else advance
    | .frameHeaderOnly =>
      if h.pos + 1 - h.sepCount =
          h.currentFrame.dataSize.toNat + (if h.currentFrame.useCrc then 3 else 1) then bodyStep s
      else advance
    | .frameComplete =>
      { s with handler := { h with
          currentFrame := h.currentFrame.reset, frameStartFound := false } }

/-- The first block of `process_data`. -/
def checkTimeout (h : TransportLevelHandler) (now : TimePoint) : TransportLevelHandler :=
  if h.currentFrame.status.ordinal > FrameStatus.frameEmpty.ordinal then
    if (now - h.frameStart).tdiv 1000000 > frameTimeout then (h.dropBytes h.pos).resetFrame else h
  else h

/-- More rounds than the loop takes on a buffer of `size` bytes. -/
def scanFuel (size : Nat) : Nat := (2 * size + 1) * (size + 1) + size

def processData (h : TransportLevelHandler) (now : TimePoint) : TransportLevelHandler :=
  let h := h.checkTimeout now
  if !h.buffer.isEmpty then
    let s := BoundedLoop.run (fun s : Scan => decide (s.handler.pos < s.bufSize)) scanStep
      (scanFuel h.buffer.getSize) ⟨h, h.buffer.getSize, 0⟩
    if s.bytesToDrop > 0 then
      { s.handler.dropBytes s.bytesToDrop with pos := s.handler.pos - s.bytesToDrop }
    else s.handler
  else h

def resetProtocol (h : TransportLevelHandler) : TransportLevelHandler :=
  let bytesToDrop := if h.pos < h.buffer.getSize then h.pos else h.buffer.getSize
  (h.dropBytes bytesToDrop).resetFrame

/-- The frame popped, if there is one. -/
def pop (h : TransportLevelHandler) : TransportLevelHandler × Option TimestampedFrame :=
  match h.incomingQueue with
  | [] => (h, none)
  | frame :: rest => ({ h with incomingQueue := rest }, some frame)

def drop (h : TransportLevelHandler) (framesCount : Nat) : TransportLevelHandler :=
  let sz := if framesCount < h.incomingQueue.length then framesCount else h.incomingQueue.length
  { h with incomingQueue := h.incomingQueue.drop sz }

end TransportLevelHandler
end HaierProtocol
