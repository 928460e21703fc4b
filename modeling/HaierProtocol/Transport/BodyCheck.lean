import Mathlib.Data.List.GetD
import HaierProtocol.Transport.WireFormat

/-!
# The check of a body

The block of `parse_buffer` for a body looks in one place for the data, at `lpos`, and in another
for everything else: the CRC, the bytes that had an escape and the trailer are looked for at the
start of the buffer.  `parseBody_eq` says what comes of it, for any buffer and `lpos`.  The two
places are one when the body is parsed by itself, the second of two calls.
-/

namespace HaierProtocol
namespace HaierFrame

/-- The number of logical bytes after the header of a frame. -/
def bodySize (f : HaierFrame) : Nat := f.dataSize.toNat + if f.useCrc then 3 else 1

/-- A CRC from its bytes on the line. -/
def bigEndian (high low : UInt8) : UInt16 := low.toUInt16 + (high.toUInt16 <<< 8)

/-- The CRC is that of the data, both as they stand in `window`. -/
def CrcFits (f : HaierFrame) (window : List UInt8) : Prop :=
  f.useCrc = true → crc16 (window.take f.dataSize.toNat) f.crc =
    bigEndian (window.getD (f.dataSize.toNat + 1) 0) (window.getD (f.dataSize.toNat + 2) 0)

/-- The bytes that had an escape, among the data as they stand in `window`. -/
def marksIn (f : HaierFrame) (window : List UInt8) : UInt8 :=
  UInt8.ofNat ((window.take f.dataSize.toNat).count 0xFF)

def bodySum (f : HaierFrame) (data window : List UInt8) : UInt8 :=
  HaierProtocol.checksum (data.take f.dataSize.toNat) f.checksum +
    (f.additionalBytes + f.marksIn window) * separatorPostByte

/-- The checksum is that of the data, with the escapes and the checksum as they stand in
`window`. -/
def SumFits (f : HaierFrame) (data window : List UInt8) : Prop :=
  f.bodySum data window = window.getD f.dataSize.toNat 0

instance (f : HaierFrame) (window : List UInt8) : Decidable (f.CrcFits window) :=
  inferInstanceAs (Decidable (_ → _))

instance (f : HaierFrame) (data window : List UInt8) : Decidable (f.SumFits data window) :=
  inferInstanceAs (Decidable (_ = _))

/-- The frame as a failed check leaves it. -/
def withMarks (f : HaierFrame) (window : List UInt8) : HaierFrame :=
  { f with additionalBytes := f.additionalBytes + f.marksIn window }

/-- The frame as the check leaves it when all fits. -/
def complete (f : HaierFrame) (data window : List UInt8) : HaierFrame :=
  { f.withMarks window with
    crc := if f.useCrc then crc16 (window.take f.dataSize.toNat) f.crc else initialCrc
    checksum := f.bodySum data window
    status := .frameComplete
    data := if f.dataSize ≠ 0 then some (data.take f.dataSize.toNat) else none }

/-- No data size the parser admits lets the eight-bit size of the body wrap. -/
theorem toNat_minSize {f : HaierFrame} (hn : f.dataSize.toNat ≤ 233) :
    (f.dataSize + (if f.useCrc then 3 else 1 : UInt8)).toNat = f.bodySize := by
  have h3 : (3 : UInt8).toNat = 3 := rfl
  have h1 : (1 : UInt8).toNat = 1 := rfl
  rw [bodySize, UInt8.toNat_add]
  cases f.useCrc
  · rw [if_neg Bool.false_ne_true, if_neg Bool.false_ne_true]
    omega
  · rw [if_pos rfl, if_pos rfl]
    omega

theorem foldl_count_marks (l : List UInt8) (n : UInt8) :
    l.foldl (fun n b => if b = separatorByte then n + 1 else n) n =
      n + UInt8.ofNat (l.count 0xFF) := by
  induction l generalizing n with
  | nil => simp
  | cons b rest ih =>
    rw [List.foldl_cons, ih]
    by_cases h : b = 0xFF
    · rw [h, List.count_cons_self, UInt8.ofNat_add, separatorByte, if_pos rfl, UInt8.add_assoc,
        UInt8.add_comm 1]
      rfl
    · rw [separatorByte, if_neg h, List.count_cons_of_ne h]

theorem and_octet (v : UInt8) : v &&& 0xFF = v := by
  refine UInt8.toNat_inj.mp ?_
  have hv := v.toNat_lt
  rw [UInt8.toNat_and, show (0xFF : UInt8).toNat = 2 ^ 8 - 1 from rfl,
    Nat.and_two_pow_sub_one_eq_mod]
  omega

/-- The loop that counts the escapes. -/
theorem foldl_additionalBytes (f : HaierFrame) {window : List UInt8}
    (hlen : f.dataSize.toNat ≤ window.length) :
    (List.range f.dataSize.toNat).foldl
      (fun n i => if window.getD i 0 = separatorByte then n + 1 else n) f.additionalBytes =
        f.additionalBytes + f.marksIn window := by
  have hfold : ((List.range f.dataSize.toNat).map fun i => window.getD i 0).foldl
      (fun n b => if b = separatorByte then n + 1 else n) f.additionalBytes =
        (List.range f.dataSize.toNat).foldl
          (fun n i => if window.getD i 0 = separatorByte then n + 1 else n) f.additionalBytes :=
    List.foldl_map
  rw [← hfold, map_getD_range hlen, foldl_count_marks]
  rfl

theorem parseBody_eq {f : HaierFrame} (hn : f.dataSize.toNat ≤ 233) (buffer : List UInt8)
    (lpos : Nat) :
    f.parseBody buffer lpos =
      if buffer.length - lpos < f.bodySize then (f, .dataSizeWrong)
      else if ¬f.CrcFits buffer then (f.withMarks buffer, .crcWrong)
      else if ¬f.SumFits (buffer.drop lpos) buffer then (f.withMarks buffer, .checksumWrong)
      else (f.complete (buffer.drop lpos) buffer, .completeFrame) := by
  have hmin := toNat_minSize hn
  simp only [parseBody, hmin]
  by_cases hshort : buffer.length - lpos < f.bodySize
  · rw [if_pos hshort, if_pos hshort]
  rw [if_neg hshort, if_neg hshort]
  have hsize : f.dataSize.toNat < f.bodySize := by
    rw [bodySize]
    split <;> omega
  have hadd := f.foldl_additionalBytes (show f.dataSize.toNat ≤ buffer.length by omega)
  simp only [hadd, and_octet]
  have hcrc : (f.useCrc = true ∧ (if f.useCrc then crc16 (buffer.take f.dataSize.toNat) f.crc
      else initialCrc) ≠ (buffer.getD (f.bodySize - 1) 0).toUInt16 +
        ((buffer.getD (f.bodySize - 1 - 1) 0).toUInt16 <<< 8)) ↔ ¬f.CrcFits buffer := by
    rw [CrcFits, Classical.not_imp]
    refine and_congr_right (fun huse => ?_)
    rw [if_pos huse, bodySize, if_pos huse]
    rfl
  have hpos : (if f.useCrc then f.bodySize - 1 - 2 else f.bodySize - 1) = f.dataSize.toNat := by
    rw [bodySize]
    split <;> omega
  simp only [hcrc, hpos]
  rfl

end HaierFrame
end HaierProtocol
