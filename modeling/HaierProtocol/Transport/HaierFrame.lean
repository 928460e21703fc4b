import HaierProtocol.Transport.Crc16

/-!
# Frames

`HaierFrame` of `transport/haier_frame.h`: the frame constructor, the two-stage
`parseBuffer`, and the serialiser `fillBuffer` with its `getBufferSize`.  Widths are
the source's, so counters and sums wrap where they do in the source.  A null
`data_` is `none`.
-/

namespace HaierProtocol

def maxFrameSize : UInt8 := 0xF1
def frameHeaderSize : Nat := 0x0A
def separatorByte : UInt8 := 0xFF
def separatorPostByte : UInt8 := 0x55
def frameSeparatorsCount : Nat := 0x02
def pureHeaderSize : UInt8 := 0x08
def useCrcMask : UInt8 := 0x40
def headerSizePos : Nat := 0x02
def headerCrcFlagPos : Nat := 0x03
def headerFrameTypePos : Nat := 0x09
def initialCrc : UInt16 := 0x00

inductive FrameStatus where
  | frameComplete
  | frameHeaderOnly
  | frameEmpty
deriving DecidableEq, Repr

/-- Enumerators compare by the order of their declaration. -/
def FrameStatus.ordinal : FrameStatus → Nat
  | frameComplete => 0
  | frameHeaderOnly => 1
  | frameEmpty => 2

inductive FrameError where
  | completeFrame
  | headerOnly
  | frameSeparatorWrong
  | headerTooSmall
  | frameTooBig
  | frameTooSmall
  | dataSizeWrong
  | checksumWrong
  | crcWrong
  | wrongPostSeparatorByte
  | unknownData
deriving DecidableEq, Repr

structure HaierFrame where
  frameType : UInt8
  useCrc : Bool
  dataSize : UInt8
  checksum : UInt8
  crc : UInt16
  data : Option (List UInt8)
  status : FrameStatus
  additionalBytes : UInt8
deriving DecidableEq, Repr

namespace HaierFrame

/-- The default constructor. -/
def empty : HaierFrame where
  frameType := 0
  useCrc := true
  dataSize := 0
  checksum := 0
  crc := initialCrc
  data := none
  status := .frameEmpty
  additionalBytes := 0

def reset (_ : HaierFrame) : HaierFrame := empty

def getHeaderByte (f : HaierFrame) (pos : Nat) : UInt8 :=
  if pos < headerSizePos then separatorByte
  else if pos = headerSizePos then pureHeaderSize + f.dataSize
  else if pos = headerCrcFlagPos then if f.useCrc then useCrcMask else 0
  else if pos = headerFrameTypePos then f.frameType
  else 0

/-- `data_[i]`. -/
def dataByte (f : HaierFrame) (i : Nat) : UInt8 := (f.data.getD []).getD i 0

/-! ## Construction -/

/-- What both loops of the constructor do with a byte of the frame. -/
def accumulate (f : HaierFrame) (byte : UInt8) : HaierFrame :=
  { f with
    additionalBytes :=
      if byte = separatorByte then f.additionalBytes + 1 else f.additionalBytes
    checksum := if byte > 0 then f.checksum + byte else f.checksum
    crc := if f.useCrc then crc16Byte byte f.crc else f.crc }

/-- The frame for `dataSize` bytes of `data`. -/
def construct (frameType : UInt8) (data : List UInt8) (dataSize : UInt8) (useCrc : Bool) :
    HaierFrame :=
  let f : HaierFrame :=
    { frameType, useCrc, dataSize, checksum := 0, crc := initialCrc, data := none,
      status := .frameComplete, additionalBytes := 0 }
  let f := (List.range' headerSizePos (frameHeaderSize - headerSizePos)).foldl
    (fun f pos => f.accumulate (f.getHeaderByte pos)) f
  let f :=
    if f.dataSize > 0 then
      (List.range f.dataSize.toNat).foldl (fun f i => f.accumulate (f.dataByte i))
        { f with data := some (data.take f.dataSize.toNat) }
    else f
  { f with checksum := f.checksum + f.additionalBytes * separatorPostByte }

/-! ## Parsing -/

/-- The locals of the header loop, and `additional_bytes_`, which it sets. -/
structure HeaderScan where
  fsize : UInt8
  useCrc : Bool
  frameType : UInt8
  chk : UInt8
  crc : UInt16
  additionalBytes : UInt8

/-- One round of the header loop. -/
def HeaderScan.next (s : HeaderScan) (lpos : Nat) (byte : UInt8) : HeaderScan :=
  let s :=
    if lpos = headerSizePos then { s with fsize := byte }
    else if lpos = headerCrcFlagPos then
      let useCrc := byte &&& useCrcMask != 0
      { s with useCrc, crc := if !useCrc then initialCrc else s.crc }
    else if lpos = headerFrameTypePos then
      { s with frameType := byte, additionalBytes := if byte = separatorByte then 1 else 0 }
    else s
  { s with
    chk := HaierProtocol.checksum [byte] s.chk
    crc := if s.useCrc then crc16Byte byte s.crc else s.crc }

/-- The block for an empty frame: the frame, the error it returns with (`none` where it
falls through to the body) and `lpos`. -/
def parseHeader (f : HaierFrame) (buffer : List UInt8) : HaierFrame × Option FrameError × Nat :=
  if buffer.length < frameHeaderSize then (f, some .headerTooSmall, 0)
  else if (buffer.take frameSeparatorsCount).any (· != separatorByte) then
    (f, some .frameSeparatorWrong, 0)
  else
    let s := (List.range' frameSeparatorsCount (frameHeaderSize - frameSeparatorsCount)).foldl
      (fun s lpos => s.next lpos (buffer.getD lpos 0))
      { fsize := 0, useCrc := true, frameType := 0, chk := 0, crc := initialCrc,
        additionalBytes := f.additionalBytes : HeaderScan }
    let lpos := frameHeaderSize
    let f := { f with additionalBytes := s.additionalBytes }
    if s.fsize < pureHeaderSize then (f, some .frameTooSmall, lpos)
    else if s.fsize > maxFrameSize then (f, some .frameTooBig, lpos)
    else
      let f := { f with
        frameType := s.frameType
        useCrc := s.useCrc
        dataSize := s.fsize - pureHeaderSize
        checksum := s.chk
        crc := s.crc
        status := .frameHeaderOnly }
      if lpos = buffer.length then (f, some .headerOnly, lpos) else (f, none, lpos)

/-- The block for a frame whose header is known. -/
def parseBody (f : HaierFrame) (buffer : List UInt8) (lpos : Nat) : HaierFrame × FrameError :=
  let minSize : UInt8 := f.dataSize + (if f.useCrc then 3 else 1)
  if buffer.length - lpos < minSize.toNat then (f, .dataSizeWrong)
  else
    let rpos := minSize.toNat - 1
    let f := { f with
      additionalBytes := (List.range f.dataSize.toNat).foldl
        (fun n i => if buffer.getD i 0 = separatorByte then n + 1 else n) f.additionalBytes }
    let frameCrc : UInt16 :=
      (buffer.getD rpos 0).toUInt16 + ((buffer.getD (rpos - 1) 0).toUInt16 <<< 8)
    let crc := if f.useCrc then crc16 (buffer.take f.dataSize.toNat) f.crc else initialCrc
    if f.useCrc ∧ crc ≠ frameCrc then (f, .crcWrong)
    else
      let rpos := if f.useCrc then rpos - 2 else rpos
      let chk := HaierProtocol.checksum ((buffer.drop lpos).take f.dataSize.toNat) f.checksum +
        ((f.additionalBytes * separatorPostByte) &&& 0xFF)
      if chk ≠ buffer.getD rpos 0 then (f, .checksumWrong)
      else
        ({ f with
          crc := crc
          checksum := chk
          status := .frameComplete
          data :=
            if f.dataSize ≠ 0 then some ((buffer.drop lpos).take f.dataSize.toNat) else none },
          .completeFrame)

/-- The frame after the call, the error it reports and the number it returns. -/
def parseBuffer (f : HaierFrame) (buffer : List UInt8) : HaierFrame × FrameError × Nat :=
  match f.status with
  | .frameComplete => (f, .unknownData, 0)
  | .frameEmpty =>
    match f.parseHeader buffer with
    | (f, some err, lpos) => (f, err, lpos)
    | (f, none, lpos) => ((f.parseBody buffer lpos).1, (f.parseBody buffer lpos).2, lpos)
  | .frameHeaderOnly => ((f.parseBody buffer 0).1, (f.parseBody buffer 0).2, 0)

/-! ## Serialising -/

def getBufferSize (f : HaierFrame) : Nat :=
  let result := frameHeaderSize + f.dataSize.toNat + f.additionalBytes.toNat
  let result := if f.checksum = separatorByte then result + 2 else result + 1
  if f.useCrc then
    let result := result + 2
    let result := if f.crc &&& 0xFF = separatorByte.toUInt16 then result + 1 else result
    if (f.crc >>> 8) &&& 0xFF = separatorByte.toUInt16 then result + 1 else result
  else result

/-- The macro `SET_WITH_POST_BYTE`.  The position is an eight-bit counter. -/
def setWithPostByte (st : List UInt8 × UInt8) (value : UInt8) : List UInt8 × UInt8 :=
  let st := (st.1.set st.2.toNat value, st.2 + 1)
  if value = separatorByte then (st.1.set st.2.toNat separatorPostByte, st.2 + 1) else st

/-- The contents of `buffer` after the call and the number of bytes it reports. -/
def fillBuffer (f : HaierFrame) (buffer : List UInt8) (limit : Nat) : List UInt8 × Nat :=
  let sz := f.getBufferSize
  if sz > limit then (buffer, 0)
  else
    let st := (List.range frameSeparatorsCount).foldl
      (fun st i => (st.1.set st.2.toNat (f.getHeaderByte i), st.2 + 1)) (buffer, (0 : UInt8))
    let st := (List.range' frameSeparatorsCount (frameHeaderSize - frameSeparatorsCount)).foldl
      (fun st i => setWithPostByte st (f.getHeaderByte i)) st
    let st := (List.range f.dataSize.toNat).foldl (fun st i => setWithPostByte st (f.dataByte i)) st
    let st := setWithPostByte st f.checksum
    let st :=
      if f.useCrc then
        let st := setWithPostByte st ((f.crc >>> 8) &&& 0xFF).toUInt8
        setWithPostByte st (f.crc &&& 0xFF).toUInt8
      else st
    (st.1, sz)

end HaierFrame
end HaierProtocol
