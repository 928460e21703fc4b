import HaierProtocol.Lib.ReflectedCrc

/-!
# Checksum and CRC

The table and the two running sums of `transport/haier_frame.cpp`.  `crc16_eq` says
the table computes CRC-16/ARC, defined bit by bit as `crc16Arc`.  So it tells apart what that
does: `crc16_injective` and `crc16_burst`.
-/

namespace HaierProtocol

def crcTable : List UInt16 := [
  0x0000, 0xC0C1, 0xC181, 0x0140, 0xC301, 0x03C0, 0x0280, 0xC241,
  0xC601, 0x06C0, 0x0780, 0xC741, 0x0500, 0xC5C1, 0xC481, 0x0440,
  0xCC01, 0x0CC0, 0x0D80, 0xCD41, 0x0F00, 0xCFC1, 0xCE81, 0x0E40,
  0x0A00, 0xCAC1, 0xCB81, 0x0B40, 0xC901, 0x09C0, 0x0880, 0xC841,
  0xD801, 0x18C0, 0x1980, 0xD941, 0x1B00, 0xDBC1, 0xDA81, 0x1A40,
  0x1E00, 0xDEC1, 0xDF81, 0x1F40, 0xDD01, 0x1DC0, 0x1C80, 0xDC41,
  0x1400, 0xD4C1, 0xD581, 0x1540, 0xD701, 0x17C0, 0x1680, 0xD641,
  0xD201, 0x12C0, 0x1380, 0xD341, 0x1100, 0xD1C1, 0xD081, 0x1040,
  0xF001, 0x30C0, 0x3180, 0xF141, 0x3300, 0xF3C1, 0xF281, 0x3240,
  0x3600, 0xF6C1, 0xF781, 0x3740, 0xF501, 0x35C0, 0x3480, 0xF441,
  0x3C00, 0xFCC1, 0xFD81, 0x3D40, 0xFF01, 0x3FC0, 0x3E80, 0xFE41,
  0xFA01, 0x3AC0, 0x3B80, 0xFB41, 0x3900, 0xF9C1, 0xF881, 0x3840,
  0x2800, 0xE8C1, 0xE981, 0x2940, 0xEB01, 0x2BC0, 0x2A80, 0xEA41,
  0xEE01, 0x2EC0, 0x2F80, 0xEF41, 0x2D00, 0xEDC1, 0xEC81, 0x2C40,
  0xE401, 0x24C0, 0x2580, 0xE541, 0x2700, 0xE7C1, 0xE681, 0x2640,
  0x2200, 0xE2C1, 0xE381, 0x2340, 0xE101, 0x21C0, 0x2080, 0xE041,
  0xA001, 0x60C0, 0x6180, 0xA141, 0x6300, 0xA3C1, 0xA281, 0x6240,
  0x6600, 0xA6C1, 0xA781, 0x6740, 0xA501, 0x65C0, 0x6480, 0xA441,
  0x6C00, 0xACC1, 0xAD81, 0x6D40, 0xAF01, 0x6FC0, 0x6E80, 0xAE41,
  0xAA01, 0x6AC0, 0x6B80, 0xAB41, 0x6900, 0xA9C1, 0xA881, 0x6840,
  0x7800, 0xB8C1, 0xB981, 0x7940, 0xBB01, 0x7BC0, 0x7A80, 0xBA41,
  0xBE01, 0x7EC0, 0x7F80, 0xBF41, 0x7D00, 0xBDC1, 0xBC81, 0x7C40,
  0xB401, 0x74C0, 0x7580, 0xB541, 0x7700, 0xB7C1, 0xB681, 0x7640,
  0x7200, 0xB2C1, 0xB381, 0x7340, 0xB101, 0x71C0, 0x7080, 0xB041,
  0x5000, 0x90C1, 0x9181, 0x5140, 0x9301, 0x53C0, 0x5280, 0x9241,
  0x9601, 0x56C0, 0x5780, 0x9741, 0x5500, 0x95C1, 0x9481, 0x5440,
  0x9C01, 0x5CC0, 0x5D80, 0x9D41, 0x5F00, 0x9FC1, 0x9E81, 0x5E40,
  0x5A00, 0x9AC1, 0x9B81, 0x5B40, 0x9901, 0x59C0, 0x5880, 0x9841,
  0x8801, 0x48C0, 0x4980, 0x8941, 0x4B00, 0x8BC1, 0x8A81, 0x4A40,
  0x4E00, 0x8EC1, 0x8F81, 0x4F40, 0x8D01, 0x4DC0, 0x4C80, 0x8C41,
  0x4400, 0x84C1, 0x8581, 0x4540, 0x8701, 0x47C0, 0x4680, 0x8641,
  0x8201, 0x42C0, 0x4380, 0x8341, 0x4100, 0x81C1, 0x8081, 0x4040]

/-- `crc16` on one byte. -/
def crc16Byte (data : UInt8) (crc : UInt16) : UInt16 :=
  (crc >>> 8) ^^^ crcTable.getD ((crc ^^^ data.toUInt16) &&& 0xFF).toNat 0

/-- `crc16` on a buffer. -/
def crc16 (data : List UInt8) (initialVal : UInt16) : UInt16 :=
  data.foldl (fun crc val => crc16Byte val crc) initialVal

def checksum (data : List UInt8) (initialVal : UInt8) : UInt8 :=
  data.foldl (fun result val => result + val) initialVal

/-- CRC-16/ARC: the reflected polynomial `0xA001`, no final exclusive or. -/
def crc16Arc (initialVal : UInt16) (data : List UInt8) : UInt16 :=
  ⟨ReflectedCrc.crc 0xA001#16 initialVal.toBitVec (data.map UInt8.toBitVec)⟩

theorem crc16_append (xs ys : List UInt8) (v : UInt16) :
    crc16 (xs ++ ys) v = crc16 ys (crc16 xs v) := List.foldl_append ..

theorem checksum_cons (b : UInt8) (data : List UInt8) (v : UInt8) :
    checksum (b :: data) v = checksum data (v + b) := rfl

theorem checksum_append (xs ys : List UInt8) (v : UInt8) :
    checksum (xs ++ ys) v = checksum ys (checksum xs v) := List.foldl_append ..

/-- Every entry of the table is its index shifted through the polynomial. -/
theorem crcTable_entry : ∀ i : Fin 256,
    (crcTable.getD i.val 0).toBitVec = ReflectedCrc.shifts 0xA001#16 8 (BitVec.ofNat 16 i.val) := by
  decide +kernel

theorem crc16Byte_toBitVec (data : UInt8) (crc : UInt16) :
    (crc16Byte data crc).toBitVec = ReflectedCrc.byte 0xA001#16 crc.toBitVec data.toBitVec := by
  have hx : ((crc ^^^ data.toUInt16) &&& 0xFF).toNat < 256 := by
    rw [UInt16.toNat_and]
    exact Nat.lt_of_le_of_lt Nat.and_le_right (by decide)
  rw [ReflectedCrc.byte_table, crc16Byte, UInt16.toBitVec_xor,
    crcTable_entry ⟨_, hx⟩]
  congr 1
  congr 1
  refine BitVec.eq_of_toNat_eq ?_
  rw [BitVec.toNat_ofNat, Nat.mod_eq_of_lt (Nat.lt_trans hx (by decide))]
  rfl

theorem crc16_eq (data : List UInt8) (v : UInt16) : crc16 data v = crc16Arc v data := by
  induction data generalizing v with
  | nil => rfl
  | cons d ds ih =>
    show crc16 ds (crc16Byte d v) = _
    rw [ih, crc16Arc, crc16Arc, crc16Byte_toBitVec]
    rfl

theorem crc16_toBitVec (data : List UInt8) (v : UInt16) :
    (crc16 data v).toBitVec =
      ReflectedCrc.crc 0xA001#16 v.toBitVec (data.map UInt8.toBitVec) := by
  rw [crc16_eq]
  rfl

/-- Different sums stay different over the same bytes. -/
theorem crc16_injective {data : List UInt8} {u v : UInt16} (h : crc16 data u = crc16 data v) :
    u = v := by
  have hbits := congrArg UInt16.toBitVec h
  rw [crc16_toBitVec, crc16_toBitVec] at hbits
  exact UInt16.toBitVec_inj.mp (ReflectedCrc.crc_injective rfl hbits)

/-- Different bursts of two bytes at most give different sums. -/
theorem crc16_burst {l m : List UInt8} {v : UInt16} (hlen : l.length = m.length)
    (hshort : l.length ≤ 2) (h : crc16 l v = crc16 m v) : l = m := by
  have hbits := congrArg UInt16.toBitVec h
  rw [crc16_toBitVec, crc16_toBitVec] at hbits
  have hlen' : (l.map UInt8.toBitVec).length = (m.map UInt8.toBitVec).length := by
    rw [List.length_map, List.length_map, hlen]
  have hfits : 8 * (l.map UInt8.toBitVec).length ≤ 16 := by
    rw [List.length_map]
    omega
  have hmap := ReflectedCrc.crc_burst 0xA001#16 rfl hlen' hfits hbits
  exact (List.map_inj_right fun _ _ => UInt8.toBitVec_inj.mp).mp hmap

end HaierProtocol
