import HaierProtocol.Transport.WireFormat
import HaierProtocol.Transport.ProtocolTransport

/-!
# Encoding

`getBufferSize` counts the bytes of a frame's encoding in one pass (`getBufferSize_eq`) and
`fillBuffer` writes them in another, through an eight-bit position (`fillBuffer_eq`).  For the frame
of a packet they are the bytes of the wire encoding in order, but from the 257th on the position
has wrapped, so the encoding reaches the buffer whole exactly when it has at most 256 bytes.
-/

namespace HaierProtocol
namespace HaierFrame

/-- Write bytes one after another, the position wrapping at 256. -/
def putBytes (st : List UInt8 × UInt8) (bytes : List UInt8) : List UInt8 × UInt8 :=
  bytes.foldl (fun st b => (st.1.set st.2.toNat b, st.2 + 1)) st

theorem putBytes_append (st : List UInt8 × UInt8) (xs ys : List UInt8) :
    putBytes st (xs ++ ys) = putBytes (putBytes st xs) ys := List.foldl_append ..

theorem length_putBytes (bytes : List UInt8) (st : List UInt8 × UInt8) :
    (putBytes st bytes).1.length = st.1.length := by
  induction bytes generalizing st with
  | nil => rfl
  | cons b rest ih =>
    show (putBytes (st.1.set st.2.toNat b, st.2 + 1) rest).1.length = _
    rw [ih, List.length_set]

theorem setWithPostByte_eq (st : List UInt8 × UInt8) (value : UInt8) :
    setWithPostByte st value = putBytes st (Stuffing.stuff 0xFF 0x55 [value]) := by
  unfold setWithPostByte Stuffing.stuff separatorByte
  by_cases h : value = 0xFF
  · rw [if_pos h, if_pos h]
    rfl
  · rw [if_neg h, if_neg h]
    rfl

theorem foldl_setWithPostByte (indices : List Nat) (value : Nat → UInt8) (st : List UInt8 × UInt8) :
    indices.foldl (fun st i => setWithPostByte st (value i)) st =
      putBytes st (Stuffing.stuff 0xFF 0x55 (indices.map value)) := by
  induction indices generalizing st with
  | nil => rfl
  | cons i rest ih =>
    rw [List.foldl_cons, ih, setWithPostByte_eq, ← putBytes_append, ← Stuffing.stuff_append]
    rfl

/-- Short of the wrap the bytes land where they belong. -/
theorem putBytes_of_le (bytes : List UInt8) : ∀ (pre old post : List UInt8),
    old.length = bytes.length → pre.length + bytes.length ≤ 256 →
      (putBytes (pre ++ (old ++ post), UInt8.ofNat pre.length) bytes).1 =
        pre ++ (bytes ++ post) := by
  induction bytes with
  | nil =>
    intro pre old post hold _
    rw [List.length_eq_zero_iff.mp hold]
    rfl
  | cons b rest ih =>
    intro pre old post hold h256
    cases old with
    | nil => simp at hold
    | cons o old =>
      simp only [List.length_cons] at hold h256
      have hk : (UInt8.ofNat pre.length).toNat = pre.length := by
        rw [UInt8.toNat_ofNat']
        omega
      have hset : (pre ++ (o :: old ++ post)).set pre.length b = (pre ++ [b]) ++ (old ++ post) := by
        rw [List.set_append_right _ _ (Nat.le_refl _), Nat.sub_self, List.cons_append,
          List.set_cons_zero]
        simp
      have hnext : UInt8.ofNat pre.length + 1 = UInt8.ofNat (pre ++ [b]).length := by
        rw [List.length_append, UInt8.ofNat_add]
        rfl
      show (putBytes ((pre ++ (o :: old ++ post)).set (UInt8.ofNat pre.length).toNat b,
        UInt8.ofNat pre.length + 1) rest).1 = _
      rw [hk, hset, hnext, ih (pre ++ [b]) old post (by omega) (by simp; omega)]
      simp

/-- Bytes that fit the position counter are written whole. -/
theorem putBytes_whole {bytes buffer : List UInt8} (h : bytes.length ≤ 256)
    (hlen : bytes.length ≤ buffer.length) :
    (putBytes (buffer, 0) bytes).1 = bytes ++ buffer.drop bytes.length := by
  have := putBytes_of_le bytes [] (buffer.take bytes.length)
    (buffer.drop bytes.length) (by rw [List.length_take]; omega) (by simpa using h)
  simpa using this

/-- No write reaches a cell past the eight-bit positions. -/
theorem getElem?_putBytes {i : Nat} (hi : 256 ≤ i) (bytes : List UInt8) (st : List UInt8 × UInt8) :
    (putBytes st bytes).1[i]? = st.1[i]? := by
  induction bytes generalizing st with
  | nil => rfl
  | cons b rest ih =>
    show (putBytes (st.1.set st.2.toNat b, st.2 + 1) rest).1[i]? = _
    have := st.2.toNat_lt
    rw [ih, List.getElem?_set_ne (by omega)]

/-! ## The encoding of a frame -/

/-- The bytes the serialiser writes for the header and the data. -/
def logical (f : HaierFrame) : List UInt8 :=
  (List.range' headerSizePos (frameHeaderSize - headerSizePos)).map f.getHeaderByte ++
    (List.range f.dataSize.toNat).map f.dataByte

def trailer (f : HaierFrame) : List UInt8 :=
  f.checksum :: if f.useCrc then [(f.crc >>> 8).toUInt8, f.crc.toUInt8] else []

def encoding (f : HaierFrame) : List UInt8 :=
  [0xFF, 0xFF] ++ Stuffing.stuff 0xFF 0x55 (f.logical ++ f.trailer)

theorem length_logical (f : HaierFrame) : f.logical.length = 8 + f.dataSize.toNat := by
  rw [logical, List.length_append, List.length_map, List.length_map, List.length_range,
    List.length_range']
  rfl

theorem low_byte_eq_iff (v : UInt16) : v &&& 0xFF = separatorByte.toUInt16 ↔ v.toUInt8 = 0xFF := by
  rw [← UInt8.toNat_inj, ← UInt16.toNat_inj, UInt16.toNat_and, UInt16.toNat_toUInt8,
    show (0xFF : UInt16).toNat = 2 ^ 8 - 1 from rfl, Nat.and_two_pow_sub_one_eq_mod]
  rfl

theorem toUInt8_and (v : UInt16) : (v &&& 0xFF).toUInt8 = v.toUInt8 := by
  refine UInt8.toNat_inj.mp ?_
  rw [UInt16.toNat_toUInt8, UInt16.toNat_toUInt8, UInt16.toNat_and,
    show (0xFF : UInt16).toNat = 2 ^ 8 - 1 from rfl, Nat.and_two_pow_sub_one_eq_mod]
  omega

/-- The size is right where the number of escapes is. -/
theorem getBufferSize_eq {f : HaierFrame} (h : f.additionalBytes.toNat = f.logical.count 0xFF) :
    f.getBufferSize = f.encoding.length := by
  have hlen : f.encoding.length = 10 + f.dataSize.toNat + f.logical.count 0xFF +
      (f.trailer.length + f.trailer.count 0xFF) := by
    rw [encoding, List.length_append, Stuffing.length_stuff, List.length_append, List.count_append,
      length_logical]
    simp only [List.length_cons, List.length_nil]
    omega
  have htrailer : f.trailer.length + f.trailer.count 0xFF =
      (if f.checksum = 0xFF then 2 else 1) + if f.useCrc then
        2 + (if f.crc.toUInt8 = 0xFF then 1 else 0) +
          (if (f.crc >>> 8).toUInt8 = 0xFF then 1 else 0) else 0 := by
    rw [trailer]
    cases f.useCrc
    · by_cases h1 : f.checksum = 0xFF <;> simp [h1]
    · by_cases h1 : f.checksum = 0xFF <;> by_cases h2 : f.crc.toUInt8 = 0xFF <;>
        by_cases h3 : (f.crc >>> 8).toUInt8 = 0xFF <;> simp [h1, h2, h3]
  rw [hlen, htrailer, ← h, getBufferSize]
  clear hlen htrailer
  simp only [low_byte_eq_iff]
  simp only [separatorByte, frameHeaderSize]
  cases f.useCrc
  · by_cases h1 : f.checksum = 0xFF <;>
      simp only [h1, Bool.false_eq_true, if_true, if_false]
  · simp only [if_true]
    by_cases h1 : f.checksum = 0xFF <;> by_cases h2 : f.crc.toUInt8 = 0xFF <;>
      by_cases h3 : (f.crc >>> 8).toUInt8 = 0xFF <;> simp only [h1, h2, h3, if_true, if_false]

/-- The bytes `fillBuffer` writes, in order, are those of the encoding. -/
theorem fillBuffer_eq (f : HaierFrame) (buffer : List UInt8) (limit : Nat) :
    f.fillBuffer buffer limit =
      if f.getBufferSize > limit then (buffer, 0)
      else ((putBytes (buffer, 0) f.encoding).1, f.getBufferSize) := by
  have hseps : (List.range frameSeparatorsCount).foldl
      (fun st i => (st.1.set st.2.toNat (f.getHeaderByte i), st.2 + 1)) (buffer, (0 : UInt8)) =
        putBytes (buffer, 0) [0xFF, 0xFF] := rfl
  have hpos : frameSeparatorsCount = headerSizePos := rfl
  have hencoding : f.encoding = [0xFF, 0xFF] ++
      (Stuffing.stuff 0xFF 0x55
        ((List.range' headerSizePos (frameHeaderSize - headerSizePos)).map f.getHeaderByte) ++
      (Stuffing.stuff 0xFF 0x55 ((List.range f.dataSize.toNat).map f.dataByte) ++
        Stuffing.stuff 0xFF 0x55 f.trailer)) := by
    rw [encoding, ← Stuffing.stuff_append, ← Stuffing.stuff_append, logical, List.append_assoc]
  rw [fillBuffer]
  simp only [hseps, foldl_setWithPostByte]
  simp only [setWithPostByte_eq, toUInt8_and, ← putBytes_append, List.append_assoc]
  rw [hpos, hencoding]
  split
  · rfl
  · congr 2
    cases hu : f.useCrc with
    | false => simp [trailer, hu]
    | true =>
      simp only [if_true, trailer, hu]
      rw [← Stuffing.stuff_append, ← Stuffing.stuff_append]
      rfl

end HaierFrame

/-! ## The encoding of a packet -/

namespace Packet

theorem logical_frame (p : Packet) : p.frame.logical = p.logical := by
  have hsize : p.frame.dataSize.toNat = p.payload.length := p.toNat_dataSize
  have hdata : (List.range p.payload.length).map p.frame.dataByte = p.payload := by
    have hb : p.frame.dataByte = fun i => p.payload.getD i 0 := by
      funext i
      show ((if p.payload = [] then none else some p.payload).getD []).getD i 0 = _
      by_cases h : p.payload = [] <;> simp [h]
    rw [hb, map_getD_range (Nat.le_refl _), List.take_length]
  rw [HaierFrame.logical, map_getHeaderByte p rfl rfl rfl, hsize, hdata, logical]

theorem encoding_frame (p : Packet) : p.frame.encoding = p.wire := by
  have htrailer : p.frame.trailer = p.trailer := by
    show p.checksum :: (if p.useCrc then _ else _) = _
    cases hu : p.useCrc <;> simp [trailer, frame, hu]
  rw [HaierFrame.encoding, logical_frame, htrailer, wire]

end Packet

theorem getBufferSize_frame (p : Packet) : p.frame.getBufferSize = p.wire.length := by
  have hadd : p.frame.additionalBytes.toNat = p.frame.logical.count 0xFF := by
    have := p.count_logical_le
    rw [p.logical_frame]
    show (UInt8.ofNat (p.logical.count 0xFF)).toNat = _
    rw [UInt8.toNat_ofNat']
    omega
  rw [HaierFrame.getBufferSize_eq hadd, p.encoding_frame]

theorem fillBuffer_frame (p : Packet) (buffer : List UInt8) (limit : Nat) :
    p.frame.fillBuffer buffer limit =
      if p.wire.length > limit then (buffer, 0)
      else ((HaierFrame.putBytes (buffer, 0) p.wire).1, p.wire.length) := by
  rw [HaierFrame.fillBuffer_eq, getBufferSize_frame, p.encoding_frame]

theorem sendData_packet (heap : Nat → UInt8) (p : Packet) :
    TransportLevelHandler.sendData heap p.frameType p.payload p.useCrc =
      (some (HaierFrame.putBytes ((List.range p.wire.length).map heap, 0) p.wire).1,
        UInt8.ofNat p.wire.length) := by
  have hle : ¬ p.payload.length > (maxFrameSize - pureHeaderSize).toNat :=
    Nat.not_lt.mpr p.payload_le
  rw [TransportLevelHandler.sendData, if_neg hle, construct_eq]
  simp only [getBufferSize_frame, fillBuffer_frame, gt_iff_lt, Nat.lt_irrefl, if_false]

/-- What the encoder owes a packet: the size, the bytes at every sufficient limit, nothing
at a smaller one, and the same bytes on the stream whatever the block they pass through
held before. -/
structure Encodes (p : Packet) (f : HaierFrame) : Prop where
  size : f.getBufferSize = p.wire.length
  fill : ∀ (buffer : List UInt8) (limit : Nat), limit ≤ buffer.length → p.wire.length ≤ limit →
    f.fillBuffer buffer limit = (p.wire ++ buffer.drop p.wire.length, p.wire.length)
  refuse : ∀ (buffer : List UInt8) (limit : Nat), limit < p.wire.length →
    f.fillBuffer buffer limit = (buffer, 0)
  send : ∀ heap : Nat → UInt8,
    (TransportLevelHandler.sendData heap p.frameType p.payload p.useCrc).1 = some p.wire

theorem encodes_of_le {p : Packet} (h : p.wire.length ≤ 256) : Encodes p p.frame where
  size := getBufferSize_frame p
  fill := by
    intro buffer limit hlimit hwire
    rw [fillBuffer_frame, if_neg (Nat.not_lt.mpr hwire),
      HaierFrame.putBytes_whole h (Nat.le_trans hwire hlimit)]
  refuse := by
    intro buffer limit hlimit
    rw [fillBuffer_frame, if_pos hlimit]
  send := by
    intro heap
    rw [sendData_packet, HaierFrame.putBytes_whole h (by simp)]
    simp

/-- The 257th byte of a longer encoding never reaches its cell. -/
theorem not_encodes_of_lt {p : Packet} (h : 256 < p.wire.length) : ¬ Encodes p p.frame := by
  intro henc
  let buffer := List.replicate p.wire.length (p.wire[256] + 1)
  have hfill := henc.fill buffer p.wire.length (by simp [buffer]) (Nat.le_refl _)
  rw [fillBuffer_frame, if_neg (Nat.lt_irrefl _)] at hfill
  have hcell := congrArg (fun r => r.1[256]?) hfill
  simp only [HaierFrame.getElem?_putBytes (Nat.le_refl 256), List.getElem?_append_left h] at hcell
  rw [List.getElem?_eq_getElem h, List.getElem?_replicate, if_pos h, Option.some_inj] at hcell
  exact absurd hcell (by simp)

/-- The encoder is correct on a packet exactly when its payload, its escapes and the
fixed fields together take no more than the 256 positions of the counter. -/
theorem construct_encodes_iff (p : Packet) :
    Encodes p (HaierFrame.construct p.frameType p.payload (UInt8.ofNat p.payload.length) p.useCrc) ↔
      p.payload.length + p.marks + (if p.useCrc then 13 else 11) ≤ 256 := by
  rw [construct_eq, ← p.length_wire]
  constructor
  · intro henc
    by_contra h
    exact not_encodes_of_lt (Nat.lt_of_not_le h) henc
  · exact encodes_of_le

/-- A full payload of separators. -/
def separatorsPacket : Packet :=
  ⟨0x06, List.replicate 233 0xFF, false, Nat.le_of_eq (List.length_replicate ..)⟩

theorem separatorsPacket_not_encoded : ¬ ∀ p : Packet,
    Encodes p
      (HaierFrame.construct p.frameType p.payload (UInt8.ofNat p.payload.length) p.useCrc) := by
  intro hall
  have henc := hall separatorsPacket
  rw [construct_eq] at henc
  refine not_encodes_of_lt ?_ henc
  have hmarks : 233 ≤ separatorsPacket.marks := by
    rw [Packet.marks, Packet.logical, List.count_append, List.count_append]
    have : separatorsPacket.payload.count 0xFF = 233 := List.count_replicate_self ..
    omega
  have hlen : separatorsPacket.payload.length = 233 := List.length_replicate ..
  rw [Packet.length_wire]
  omega

end HaierProtocol
