import Mathlib.Algebra.GroupWithZero.Nat
import HaierProtocol.Lib.Stuffing
import HaierProtocol.Transport.HaierFrame

/-!
# The wire format

What a frame looks like on the line, stated independently of the code that writes
and reads it.  A `Packet` is what a frame carries, and `Packet.wire` its encoding: two
separators, then the header, the payload, the checksum and the optional CRC, with an
escape after every byte equal to the separator.

`Packet.frame` is the frame object for a packet, and `construct_eq` says the
constructor builds it.
-/

namespace HaierProtocol

/-- The frame type, payload and CRC mode of a frame that fits the length byte. -/
structure Packet where
  frameType : UInt8
  payload : List UInt8
  useCrc : Bool
  payload_le : payload.length ≤ 233

namespace Packet

/-- The logical bytes after the separators, up to the frame type. -/
def header (p : Packet) : List UInt8 :=
  [UInt8.ofNat (8 + p.payload.length), if p.useCrc then 0x40 else 0, 0, 0, 0, 0, 0, p.frameType]

/-- The bytes the checksum and the CRC cover. -/
def logical (p : Packet) : List UInt8 := p.header ++ p.payload

def checksum (p : Packet) : UInt8 :=
  UInt8.ofNat ((p.logical.map UInt8.toNat).sum + 0x55 * p.logical.count 0xFF)

def crc (p : Packet) : UInt16 := crc16Arc 0 p.logical

def trailer (p : Packet) : List UInt8 :=
  p.checksum :: if p.useCrc then [(p.crc >>> 8).toUInt8, p.crc.toUInt8] else []

/-- The logical bytes after the header. -/
def body (p : Packet) : List UInt8 := p.payload ++ p.trailer

def wire (p : Packet) : List UInt8 :=
  [0xFF, 0xFF] ++ Stuffing.stuff 0xFF 0x55 (p.logical ++ p.trailer)

/-- The number of bytes that need an escape. -/
def marks (p : Packet) : Nat := (p.logical ++ p.trailer).count 0xFF

/-- The frame object that carries the packet. -/
def frame (p : Packet) : HaierFrame where
  frameType := p.frameType
  useCrc := p.useCrc
  dataSize := UInt8.ofNat p.payload.length
  checksum := p.checksum
  crc := if p.useCrc then p.crc else 0
  data := if p.payload = [] then none else some p.payload
  status := .frameComplete
  additionalBytes := UInt8.ofNat (p.logical.count 0xFF)

theorem length_header (p : Packet) : p.header.length = 8 := rfl

theorem length_logical (p : Packet) : p.logical.length = 8 + p.payload.length := by
  rw [logical, List.length_append, length_header]

theorem length_trailer (p : Packet) : p.trailer.length = if p.useCrc then 3 else 1 := by
  unfold trailer
  cases p.useCrc <;> rfl

theorem length_wire (p : Packet) :
    p.wire.length = p.payload.length + p.marks + if p.useCrc then 13 else 11 := by
  rw [wire, List.length_append, Stuffing.length_stuff, List.length_append, length_logical,
    length_trailer, marks]
  cases p.useCrc <;> simp <;> omega

theorem le_length_wire (p : Packet) : 11 ≤ p.wire.length := by
  rw [length_wire]
  split <;> omega

/-- No more than every byte but the separators is escaped. -/
theorem length_wire_le (p : Packet) : p.wire.length ≤ 2 * p.payload.length + 24 := by
  have hmarks : p.marks ≤ (p.logical ++ p.trailer).length := List.count_le_length
  rw [List.length_append, length_logical, length_trailer] at hmarks
  rw [length_wire]
  split at hmarks <;> split <;> omega

theorem logical_append_trailer (p : Packet) : p.logical ++ p.trailer = p.header ++ p.body := by
  rw [logical, body, List.append_assoc]

theorem count_logical_le (p : Packet) : p.logical.count 0xFF ≤ 241 := by
  have h := List.count_le_length (a := 0xFF) (l := p.logical)
  have := p.payload_le
  rw [length_logical] at h
  omega

theorem toNat_dataSize (p : Packet) : (UInt8.ofNat p.payload.length).toNat = p.payload.length := by
  have := p.payload_le
  rw [UInt8.toNat_ofNat']
  omega

end Packet

/-! ## Running sums -/

theorem checksum_eq (data : List UInt8) (v : UInt8) :
    checksum data v = v + UInt8.ofNat (data.map UInt8.toNat).sum := by
  induction data generalizing v with
  | nil => simp [checksum]
  | cons d ds ih =>
    show checksum ds (v + d) = _
    rw [ih, List.map_cons, List.sum_cons, UInt8.ofNat_add, UInt8.ofNat_toNat, UInt8.add_assoc]

namespace HaierFrame

/-- A run of `accumulate` over a list of bytes. -/
theorem foldl_accumulate (data : List UInt8) (f : HaierFrame) :
    data.foldl accumulate f =
      { f with
        additionalBytes := f.additionalBytes + UInt8.ofNat (data.count 0xFF)
        checksum := HaierProtocol.checksum data f.checksum
        crc := if f.useCrc then crc16 data f.crc else f.crc } := by
  induction data generalizing f with
  | nil => cases f; simp [HaierProtocol.checksum, crc16]
  | cons d ds ih =>
    have hchk : (if d > 0 then f.checksum + d else f.checksum) = f.checksum + d := by
      split
      · rfl
      · rename_i hd
        have h0 : d = 0 := by
          refine UInt8.toNat.inj ?_
          have := UInt8.lt_iff_toNat_lt.not.mp hd
          simpa using this
        rw [h0, UInt8.add_zero]
    rw [List.foldl_cons, ih, accumulate, hchk]
    congr 1
    · cases f.useCrc <;> rfl
    · by_cases h : d = 0xFF
      · rw [h, List.count_cons_self, UInt8.ofNat_add, separatorByte, if_pos rfl, UInt8.add_assoc,
          UInt8.add_comm 1]
        rfl
      · rw [separatorByte, if_neg h, List.count_cons_of_ne (by simpa using h)]

/-- The header bytes do not change while the sums run. -/
theorem foldl_accumulate_header (positions : List Nat) (f : HaierFrame) :
    positions.foldl (fun f pos => f.accumulate (f.getHeaderByte pos)) f =
      (positions.map f.getHeaderByte).foldl accumulate f := by
  induction positions generalizing f with
  | nil => rfl
  | cons pos rest ih =>
    rw [List.foldl_cons, ih, List.map_cons, List.foldl_cons]
    rfl

theorem foldl_accumulate_data (indices : List Nat) (f : HaierFrame) :
    indices.foldl (fun f i => f.accumulate (f.dataByte i)) f =
      (indices.map f.dataByte).foldl accumulate f := by
  induction indices generalizing f with
  | nil => rfl
  | cons i rest ih =>
    rw [List.foldl_cons, ih, List.map_cons, List.foldl_cons]
    rfl

end HaierFrame

/-- Reading the first cells of a buffer one by one. -/
theorem map_getD_range {l : List UInt8} {n : Nat} (h : n ≤ l.length) :
    (List.range n).map (fun i => l.getD i 0) = l.take n := by
  refine List.ext_getElem (by simp [h]) (fun i h1 h2 => ?_)
  have hi : i < n := by simpa using h1
  simp [show i < l.length by omega]

namespace Packet

/-- The sum of a packet, run over the header and then over the payload. -/
theorem checksum_split (p : Packet) :
    HaierProtocol.checksum p.payload (HaierProtocol.checksum p.header 0) +
      (UInt8.ofNat (p.header.count 0xFF) + UInt8.ofNat (p.payload.count 0xFF)) * separatorPostByte
        = p.checksum := by
  rw [← checksum_append, checksum_eq, UInt8.zero_add, ← UInt8.ofNat_add, ← List.count_append,
    Packet.checksum, UInt8.ofNat_add, Nat.mul_comm, UInt8.ofNat_mul]
  rfl

theorem crc_split (p : Packet) : crc16 p.payload (crc16 p.header initialCrc) = p.crc := by
  rw [← crc16_append, crc16_eq]
  rfl

theorem dataSize_ne_zero_iff (p : Packet) :
    UInt8.ofNat p.payload.length ≠ 0 ↔ p.payload ≠ [] := by
  rw [ne_eq, ne_eq, not_iff_not, ← UInt8.toNat_inj, p.toNat_dataSize]
  exact List.length_eq_zero_iff

end Packet

/-- The header bytes show a frame's size, mode and type. -/
theorem headerBytes_eq (f : HaierFrame) :
    (List.range' headerSizePos (frameHeaderSize - headerSizePos)).map f.getHeaderByte =
      [8 + f.dataSize, if f.useCrc then 0x40 else 0, 0, 0, 0, 0, 0, f.frameType] := by
  show [f.getHeaderByte 2, f.getHeaderByte 3, f.getHeaderByte 4, f.getHeaderByte 5,
    f.getHeaderByte 6, f.getHeaderByte 7, f.getHeaderByte 8, f.getHeaderByte 9] = _
  have h2 : f.getHeaderByte 2 = 8 + f.dataSize := rfl
  have h3 : f.getHeaderByte 3 = if f.useCrc then 0x40 else 0 := rfl
  have h9 : f.getHeaderByte 9 = f.frameType := rfl
  rw [h2, h3, h9]
  rfl

/-- A frame with a packet's type, size and mode has the packet's header bytes. -/
theorem map_getHeaderByte (p : Packet) {f : HaierFrame} (ht : f.frameType = p.frameType)
    (hs : f.dataSize = UInt8.ofNat p.payload.length) (hc : f.useCrc = p.useCrc) :
    (List.range' headerSizePos (frameHeaderSize - headerSizePos)).map f.getHeaderByte =
      p.header := by
  rw [headerBytes_eq, ht, hs, hc, Packet.header, UInt8.ofNat_add]
  rfl

theorem construct_eq (p : Packet) :
    HaierFrame.construct p.frameType p.payload (UInt8.ofNat p.payload.length) p.useCrc =
      p.frame := by
  have hsum := p.checksum_split
  have hcrc := p.crc_split
  have hn := p.toNat_dataSize
  rw [HaierFrame.construct]
  simp only [HaierFrame.foldl_accumulate_header, HaierFrame.foldl_accumulate_data]
  rw [map_getHeaderByte p rfl rfl rfl, HaierFrame.foldl_accumulate, Packet.frame]
  by_cases h : p.payload = []
  · have hlog : p.logical = p.header := by rw [Packet.logical, h, List.append_nil]
    rw [h] at hsum hcrc
    simp only [h, if_true, hlog, ← hsum, ← hcrc]
    cases p.useCrc <;> simp [HaierProtocol.checksum, crc16, initialCrc]
  · have hpos : UInt8.ofNat p.payload.length > 0 := by
      have := List.length_pos_iff.mpr h
      rw [gt_iff_lt, UInt8.lt_iff_toNat_lt, hn]
      simpa using this
    have hdata : ∀ g : HaierFrame, g.data = some (p.payload.take p.payload.length) →
        (List.range p.payload.length).map g.dataByte = p.payload := by
      intro g hg
      have hb : g.dataByte = fun i => p.payload.getD i 0 := by
        funext i
        rw [HaierFrame.dataByte, hg, List.take_length]
        rfl
      rw [hb, map_getD_range (Nat.le_refl _), List.take_length]
    simp only [hpos, if_true, hn, h, if_false]
    rw [hdata _ rfl, HaierFrame.foldl_accumulate]
    simp only [List.take_length, ← hsum, ← hcrc, Packet.logical, List.count_append, UInt8.ofNat_add,
      UInt8.zero_add]
    cases p.useCrc <;> rfl

end HaierProtocol
