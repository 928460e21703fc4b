import HaierProtocol.Lib.Fallible
import HaierProtocol.Lib.Writing
import Mathlib.Algebra.GroupWithZero.Nat

/-!
# The log

`log_haier_buffers` and `print_buf` of `haier_log.cpp`.  A write outside `msg_buffer` and a read
through a null pointer are undefined.  Differences of sizes wrap around; `underflow` records that
one did.
-/

namespace HaierProtocol.Log

open Fallible

def bufferSize : Nat := 4096

/-- A platform: `size_t` has at least the bits that the language prescribes. -/
structure Platform where
  sizeBits : Nat
  prescribed : 16 ≤ sizeBits

/-- `SIZE_MAX + 1`. -/
def Platform.sizes (p : Platform) : Nat := 2 ^ p.sizeBits

theorem Platform.sizes_pos (p : Platform) : 0 < p.sizes := Nat.two_pow_pos p.sizeBits

instance (p : Platform) : NeZero p.sizes := ⟨Nat.ne_of_gt p.sizes_pos⟩

/-- The characters of a string, up to its NUL. -/
structure CString where
  chars : List UInt8
  nonzero : 0 ∉ chars

inductive HaierLogLevel where
  | levelNone
  | levelError
  | levelWarning
  | levelInfo
  | levelDebug
  | levelVerbose
  deriving DecidableEq, Repr

/-- The buffer is the first `bufferSize` cells of `msgBuffer`; `handled` is what the handler was
called with. -/
structure LogState where
  msgBuffer : Nat → UInt8
  underflow : Bool := false
  handled : Option (HaierLogLevel × (Nat → UInt8)) := none

abbrev Logging := Program LogState

/-- Write one character of the buffer. -/
def store (i : Nat) (c : UInt8) : Logging Unit :=
  if i < bufferSize then
    modify fun s => { s with msgBuffer := Function.update s.msgBuffer i c }
  else fault

/-- Read one byte of a block. -/
def load (block : Option (Nat → UInt8)) (i : Nat) : Logging UInt8 :=
  match block with
  | some bytes => pure (bytes i)
  | none => fault

/-- The difference of two sizes. -/
def sub (p : Platform) (a b : Nat) : Logging Nat :=
  if b ≤ a then pure (a - b)
  else do
    modify fun s => { s with underflow := true }
    return a + p.sizes - b

/-- A character of `hex_map`. -/
def hexDigit (n : UInt8) : UInt8 := if n < 10 then 0x30 + n else 0x37 + n

def blank : UInt8 := 0x20

def dot : UInt8 := 0x2E

/-- The loop of `print_buf`, with `n` bytes still to print. -/
def printBytes (p : Platform) (srcBuf : Option (Nat → UInt8)) (dstBuf : Nat) :
    Nat → Nat → Logging Unit
  | _, 0 => pure ()
  | i, n + 1 => do
    let c ← load srcBuf i
    store (dstBuf + 3 * i % p.sizes) (hexDigit (c / 16))
    store (dstBuf + (3 * i + 1) % p.sizes) (hexDigit (c % 16))
    store (dstBuf + (3 * i + 2) % p.sizes) blank
    printBytes p srcBuf dstBuf (i + 1) n

def printDots (p : Platform) (dstBuf pos : Nat) : Logging Nat := do
  let pos := (pos + 1) % p.sizes
  store (dstBuf + pos) dot
  let pos := (pos + 1) % p.sizes
  store (dstBuf + pos) dot
  let pos := (pos + 1) % p.sizes
  store (dstBuf + pos) dot
  return (pos + 1) % p.sizes

/-- `bytes_to_print`, where the dump may have to be cut off. -/
def countBytes (p : Platform) (dots : Bool) (srcSize dstSize : Nat) : Logging Nat :=
  if dots then do
    let room ← sub p dstSize 5
    return room / 3
  else return srcSize

def finish (p : Platform) (dots : Bool) (dstBuf pos : Nat) : Logging Nat :=
  if dots then printDots p dstBuf pos else pure pos

/-- What follows in `print_buf` once the count is known. -/
def printCounted (p : Platform) (srcBuf : Option (Nat → UInt8)) (dstBuf : Nat) (dots : Bool)
    (bytesToPrint : Nat) : Logging Nat := do
  printBytes p srcBuf dstBuf 0 bytesToPrint
  let last ← sub p (3 * bytesToPrint % p.sizes) 1
  let pos ← finish p dots dstBuf last
  store (dstBuf + pos) 0
  return pos

/-- `dstBuf` is the position in `msg_buffer` that the pointer refers to. -/
def printBuf (p : Platform) (srcBuf : Option (Nat → UInt8)) (srcSize dstBuf dstSize : Nat) :
    Logging Nat :=
  let dots : Bool := dstSize < 3 * srcSize % p.sizes
  if 0 < srcSize then do
    let bytesToPrint ← countBytes p dots srcSize dstSize
    printCounted p srcBuf dstBuf dots bytesToPrint
  else return 0

/-- The loop that copies the header, from the characters that are left of it. -/
def copyHeader : List UInt8 → Nat → Logging Nat
  | [], res => pure res
  | c :: cs, res =>
    if res ≤ bufferSize - 7 then do
      store res c
      copyHeader cs (res + 1)
    else pure res

/-- The characters of `text` in the cells from `i` on. -/
def storeAll : Nat → List UInt8 → Logging Unit
  | _, [] => pure ()
  | i, c :: cs => do
    store i c
    storeAll (i + 1) cs

def empty : List UInt8 := [0x3C, 0x65, 0x6D, 0x70, 0x74, 0x79, 0x3E]

/-- `snprintf` with room for `n` characters; the result is the length that would have been needed
without the limit. -/
def snprintf (dst n : Nat) (text : List UInt8) : Logging Nat :=
  if 0 < n then do
    storeAll dst (text.take (n - 1) ++ [0])
    return text.length
  else return text.length

def printHeader (header : Option CString) : Logging Nat :=
  match header with
  | some header => do
    let res ← copyHeader header.chars 0
    store res blank
    return res + 1
  | none => return 0

def printEmpty (p : Platform) (res : Nat) : Logging Nat := do
  let room ← sub p bufferSize res
  let n ← sub p room 1
  let length ← snprintf res n empty
  return res + length

/-- The second block, behind a blank. -/
def printSecond (p : Platform) (buffer2 : Option (Nat → UInt8)) (size2 res : Nat) :
    Logging Nat := do
  let room ← sub p bufferSize res
  if 0 < room ∧ 0 < size2 then do
    store res blank
    let room ← sub p bufferSize (res + 1)
    let length ← printBuf p buffer2 size2 (res + 1) room
    return res + 1 + length
  else return res

def printBlocks (p : Platform) (buffer1 : Option (Nat → UInt8)) (size1 : Nat)
    (buffer2 : Option (Nat → UInt8)) (size2 res : Nat) : Logging Nat :=
  if buffer1.isSome ∧ 0 < size1 then do
    let room ← sub p bufferSize res
    let length ← printBuf p buffer1 size1 res room
    printSecond p buffer2 size2 (res + length)
  else return res

/-- What is printed behind the header. -/
def printBody (p : Platform) (buffer1 : Option (Nat → UInt8)) (size1 : Nat)
    (buffer2 : Option (Nat → UInt8)) (size2 res : Nat) : Logging Nat :=
  if (size1 + size2) % p.sizes = 0 then printEmpty p res
  else printBlocks p buffer1 size1 buffer2 size2 res

def logHaierBuffers (p : Platform) (handler : Bool) (level : HaierLogLevel)
    (header : Option CString) (buffer1 : Option (Nat → UInt8)) (size1 : Fin p.sizes)
    (buffer2 : Option (Nat → UInt8)) (size2 : Fin p.sizes) : Logging Nat :=
  if handler ∧ level ≠ .levelNone then do
    let start ← printHeader header
    let res ← printBody p buffer1 size1 buffer2 size2 start
    modify fun s => { s with handled := some (level, s.msgBuffer) }
    return res
  else return 0

end HaierProtocol.Log
