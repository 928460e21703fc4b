import HaierProtocol.Transport.Acceptance

/-!
# The CRC in two parts

The constructor of a frame and the parser take the CRC of the header first and go on from there
with the data.  Both end with CRC-16/ARC of the two together, and so does any other way to divide
the bytes.
-/

namespace HaierProtocol

/-- The bits in the order in which they are sent, with the bits of a byte from the lowest on. -/
def sentBits (data : List UInt8) : List Bool :=
  (data.map UInt8.toBitVec).flatMap (ReflectedCrc.lowBits 8)

theorem crc16Arc_bits (data : List UInt8) (v : UInt16) :
    (crc16Arc v data).toBitVec =
      (sentBits data).foldl (ReflectedCrc.bit 0xA001#16) v.toBitVec :=
  ReflectedCrc.crc_bits 0xA001#16 (by decide) v.toBitVec (data.map UInt8.toBitVec)

example : (0xA001#16).reverse = 0x8005#16 := by decide

namespace HaierFrame

/-- The header bytes of a frame that has a CRC. -/
def crcHeader (frameType dataSize : UInt8) : List UInt8 :=
  [8 + dataSize, 0x40, 0, 0, 0, 0, 0, frameType]

/-- What the constructor finds for a frame that has a CRC. -/
theorem construct_crc (frameType dataSize : UInt8) {data : List UInt8}
    (hlen : data.length = dataSize.toNat) :
    (construct frameType data dataSize true).crc =
      crc16 data (crc16 (crcHeader frameType dataSize) initialCrc) := by
  rw [construct]
  simp only [foldl_accumulate_header, foldl_accumulate_data]
  rw [headerBytes_eq, foldl_accumulate]
  by_cases hpos : dataSize > 0
  · have hdata : ∀ g : HaierFrame, g.data = some (data.take dataSize.toNat) →
        (List.range dataSize.toNat).map g.dataByte = data := by
      intro g hg
      have hb : g.dataByte = fun i => data.getD i 0 := by
        funext i
        rw [dataByte, hg, ← hlen, List.take_length]
        rfl
      rw [hb, map_getD_range (Nat.le_of_eq hlen.symm), ← hlen, List.take_length]
    simp only [hpos, if_true]
    rw [hdata _ rfl, foldl_accumulate]
    rfl
  · have hzero : dataSize.toNat = 0 := by
      have := UInt8.lt_iff_toNat_lt.not.mp hpos
      simpa using this
    have hnil : data = [] := List.length_eq_zero_iff.mp (hlen.trans hzero)
    simp only [hpos, if_false, hnil]
    rfl

/-- What the two calls of the parser leave in a frame that has a CRC. -/
theorem parseTwice_crc {header body : List UInt8} (hlen : header.length = 10)
    (h : Accepted header body) (hflag : flagged header = true) :
    (parseTwice header body).1.crc =
      crc16 (body.take (payloadSize header)) (crc16 (header.drop 2) initialCrc) := by
  rw [parseTwice_accepted hlen h]
  show (if (between header).useCrc then _ else _) = _
  rw [between_useCrc, hflag, if_pos rfl, between_dataSize h.admitted, between_crc hflag]
  rfl

end HaierFrame

/-- The table computes CRC-16/ARC bit by bit.  It does so on the bytes at once, on any first and
second part of them, on the header and the data of a frame that is built, and on those of a frame
that is parsed. -/
theorem crc16_arc (data : List UInt8) (v : UInt16) :
    crc16 data v = crc16Arc v data ∧
    (crc16 data v).toBitVec = (sentBits data).foldl (ReflectedCrc.bit 0xA001#16) v.toBitVec ∧
    (∀ first second, data = first ++ second → crc16 second (crc16 first v) = crc16Arc v data) ∧
    (∀ (frameType dataSize : UInt8) (bytes : Vector UInt8 dataSize.toNat),
      (HaierFrame.construct frameType bytes.toList dataSize true).crc =
        crc16Arc initialCrc (HaierFrame.crcHeader frameType dataSize ++ bytes.toList)) ∧
    (∀ header body, header.length = 10 → HaierFrame.flagged header = true →
      (HaierFrame.parseTwice header body).2 = .completeFrame →
      (HaierFrame.parseTwice header body).1.crc =
        crc16Arc initialCrc (header.drop 2 ++ body.take (HaierFrame.payloadSize header))) := by
  refine ⟨crc16_eq data v, ?_, ?_, ?_, ?_⟩
  · rw [crc16_eq, crc16Arc_bits]
  · rintro first second rfl
    rw [← crc16_append, crc16_eq]
  · intro frameType dataSize bytes
    rw [HaierFrame.construct_crc frameType dataSize (Vector.length_toList ..), ← crc16_append,
      crc16_eq]
  · intro header body hlen hflag hcomplete
    have haccepted := (HaierFrame.parseTwice_complete_iff hlen body).mp hcomplete
    rw [HaierFrame.parseTwice_crc hlen haccepted hflag, ← crc16_append, crc16_eq]

end HaierProtocol
