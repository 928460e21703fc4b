import HaierProtocol.Transport.Encoder
import HaierProtocol.Transport.Acceptance

/-!
# Encoding what was decoded

A parsed frame keeps the frame type, the data size and the CRC mode of its header, and the
checksum and the CRC that it came with.  `fillBuffer` makes a header of the first three, with the
flags and the reserved bytes of a generated frame, and writes the other two as they are.  So what
it writes is a frame again where these bytes of the header add nothing to either sum but what the
generated ones do (`reencoding_iff`).
-/

namespace HaierProtocol
namespace HaierFrame

/-- The bytes of an encoding without their escapes.  The two separators have none. -/
def removeStuffing (bytes : List UInt8) : Option (List UInt8) :=
  (Stuffing.unstuff 0xFF 0x55 false (bytes.drop 2)).map (bytes.take 2 ++ ·)

/-- Bytes that the two calls take, for a frame with the type, data and CRC mode of `f`. -/
def Rereads (f : HaierFrame) (bytes : List UInt8) : Prop :=
  ∃ plain, removeStuffing bytes = some plain ∧
    (parseTwice (plain.take 10) (plain.drop 10)).2 = .completeFrame ∧
    (parseTwice (plain.take 10) (plain.drop 10)).1.frameType = f.frameType ∧
    (parseTwice (plain.take 10) (plain.drop 10)).1.data = f.data ∧
    (parseTwice (plain.take 10) (plain.drop 10)).1.useCrc = f.useCrc

/-- The flags and the reserved bytes of a generated frame. -/
def generatedFlags (useCrc : Bool) : List UInt8 := [if useCrc then 0x40 else 0, 0, 0, 0, 0, 0]

/-- The flags and the reserved bytes of the header leave the two sums as generated ones do. -/
structure LikeGenerated (header : List UInt8) : Prop where
  sum : HaierProtocol.checksum ((header.drop 3).take 6) 0 =
    HaierProtocol.checksum (generatedFlags (flagged header)) 0
  crc : flagged header = true → crc16 ((header.drop 2).take 7) 0 =
    crc16 (header.getD 2 0 :: generatedFlags true) 0

/-- The header that the serialiser makes for a frame parsed from `header`. -/
def generatedHeader (header : List UInt8) : List UInt8 :=
  header.getD 2 0 :: generatedFlags (flagged header) ++ [header.getD 9 0]

theorem flagged_generated (header : List UInt8) :
    flagged ([0xFF, 0xFF] ++ generatedHeader header) = flagged header := by
  show ((if flagged header then 0x40 else 0 : UInt8) &&& 0x40 != 0) = _
  cases flagged header <;> rfl

theorem admitted_generated {header : List UInt8} (h : Admitted header) :
    Admitted ([0xFF, 0xFF] ++ generatedHeader header) := ⟨rfl, h.large, h.small⟩

theorem drop_header {header : List UInt8} (hlen : header.length = 10) :
    header.drop 2 = header.getD 2 0 :: (header.drop 3).take 6 ++ [header.getD 9 0] := by
  match header, hlen with
  | [a, b, c, d, e₁, e₂, e₃, e₄, e₅, t], _ => rfl

/-! ## What the serialiser writes -/

section Accepted

variable {header body : List UInt8} (h : Accepted header body)
include h

theorem length_take_payload :
    (body.take (payloadSize header)).length = payloadSize header := by
  have hsize := h.size
  rw [bodySize_between h.admitted] at hsize
  rw [List.length_take]
  omega

theorem logical_complete :
    ((between header).complete body body).logical =
      generatedHeader header ++ body.take (payloadSize header) := by
  have hcarries := carries_complete h.admitted body
  have hlength := length_take_payload h
  have hsizeByte : 8 + ((between header).complete body body).dataSize = header.getD 2 0 := by
    show 8 + ((header.drop 2).getD 0 0 - 8) = _
    rw [getD_drop, UInt8.add_comm, UInt8.sub_add_cancel]
  have hheader : (List.range' headerSizePos (frameHeaderSize - headerSizePos)).map
      ((between header).complete body body).getHeaderByte = generatedHeader header := by
    rw [headerBytes_eq, hsizeByte, hcarries.useCrc, hcarries.frameType]
    rfl
  have hdata : (List.range (payloadSize header)).map
      ((between header).complete body body).dataByte = body.take (payloadSize header) := by
    have hb : ((between header).complete body body).dataByte =
        fun i => (body.take (payloadSize header)).getD i 0 := by
      funext i
      rw [dataByte, hcarries.data]
      by_cases hn : payloadSize header = 0
      · rw [if_pos hn, hn]
        rfl
      · rw [if_neg hn]
        rfl
    rw [hb, map_getD_range (Nat.le_of_eq hlength.symm), List.take_of_length_le
      (Nat.le_of_eq hlength)]
  rw [logical, hheader, hcarries.dataSize, hdata]

theorem additional_complete : ((between header).complete body body).additionalBytes.toNat =
    ((between header).complete body body).logical.count 0xFF := by
  have hcount := List.count_le_length (a := 0xFF) (l := body.take (payloadSize header))
  have hle := payloadSize_le h.admitted
  have hlength : header.getD 2 0 ≠ 0xFF := by
    intro heq
    have hsmall := h.admitted.small
    rw [heq] at hsmall
    exact absurd hsmall (by decide)
  have hheader : (generatedHeader header).count 0xFF =
      if header.getD 9 0 = 0xFF then 1 else 0 := by
    have hflag : (if flagged header then 0x40 else 0 : UInt8) ≠ 0xFF := by
      split <;> decide
    show (header.getD 2 0 :: (if flagged header then 0x40 else 0) :: [0, 0, 0, 0, 0,
      header.getD 9 0]).count 0xFF = _
    have htype : ∀ t : UInt8, [0, 0, 0, 0, 0, t].count 0xFF = if t = 0xFF then 1 else 0 := by
      intro t
      by_cases ht : t = 0xFF <;> simp [ht]
    rw [List.count_cons_of_ne hlength, List.count_cons_of_ne hflag, htype]
  rw [length_take_payload h] at hcount
  have hone : (if header.getD 9 0 = 0xFF then 1 else 0) ≤ 1 := by
    split <;> omega
  rw [logical_complete h, List.count_append, hheader]
  show ((between header).additionalBytes + (between header).marksIn body).toNat = _
  rw [between_additional, marksIn, between_dataSize h.admitted, ← UInt8.ofNat_add,
    UInt8.toNat_ofNat']
  omega

theorem getBufferSize_complete : ((between header).complete body body).getBufferSize =
    ((between header).complete body body).encoding.length :=
  getBufferSize_eq (additional_complete h)

end Accepted

theorem removeStuffing_encoding (f : HaierFrame) :
    removeStuffing f.encoding = some ([0xFF, 0xFF] ++ (f.logical ++ f.trailer)) := by
  show (Stuffing.unstuff 0xFF 0x55 false (Stuffing.stuff 0xFF 0x55 (f.logical ++ f.trailer))).map
    ([0xFF, 0xFF] ++ ·) = _
  rw [Stuffing.unstuff_stuff]
  rfl

/-! ## What the parser makes of it -/

/-- The two sums run on over what follows, so what they were before is told by what they are. -/
theorem checksum_left_iff (data : List UInt8) (u v : UInt8) :
    HaierProtocol.checksum data u = HaierProtocol.checksum data v ↔ u = v := by
  rw [checksum_eq, checksum_eq, UInt8.add_left_inj]

theorem crc16_left_iff (data : List UInt8) (u v : UInt16) : crc16 data u = crc16 data v ↔ u = v :=
  ⟨crc16_injective, fun h => by rw [h]⟩

theorem checksum_generated_iff {header : List UInt8} (hlen : header.length = 10) :
    HaierProtocol.checksum (generatedHeader header) 0 = HaierProtocol.checksum (header.drop 2) 0 ↔
      HaierProtocol.checksum ((header.drop 3).take 6) 0 =
        HaierProtocol.checksum (generatedFlags (flagged header)) 0 := by
  rw [drop_header hlen, generatedHeader, checksum_append, checksum_append, checksum_left_iff,
    checksum_cons, checksum_cons, checksum_eq, checksum_eq, checksum_eq, checksum_eq,
    UInt8.zero_add, UInt8.zero_add, UInt8.zero_add, UInt8.add_right_inj]
  exact eq_comm

theorem crc16_generated_iff {header : List UInt8} (hlen : header.length = 10)
    (hflag : flagged header = true) :
    crc16 (generatedHeader header) 0 = crc16 (header.drop 2) 0 ↔
      crc16 ((header.drop 2).take 7) 0 = crc16 (header.getD 2 0 :: generatedFlags true) 0 := by
  have hlength : ((header.drop 3).take 6).length = 6 := by
    rw [List.length_take, List.length_drop, hlen]
    rfl
  have htake : (header.drop 2).take 7 = header.getD 2 0 :: (header.drop 3).take 6 := by
    rw [drop_header hlen]
    exact List.take_left' (by rw [List.length_cons, hlength])
  rw [htake, drop_header hlen, generatedHeader, hflag, crc16_append, crc16_append, crc16_left_iff]
  exact eq_comm

section Reread

variable {header body : List UInt8} (hlen : header.length = 10) (h : Accepted header body)
include hlen h

/-- The CRC that was kept is that of the header that is written. -/
theorem crcFits_generated_iff :
    (between ([0xFF, 0xFF] ++ generatedHeader header)).CrcFits
        (body.take (payloadSize header) ++ ((between header).complete body body).trailer) ↔
      (flagged header = true → crc16 ((header.drop 2).take 7) 0 =
        crc16 (header.getD 2 0 :: generatedFlags true) 0) := by
  have hadm := admitted_generated h.admitted
  have hlength := length_take_payload h
  have hsize : payloadSize ([0xFF, 0xFF] ++ generatedHeader header) = payloadSize header := rfl
  have hflagged := flagged_generated header
  rw [CrcFits, between_useCrc, hflagged, between_dataSize hadm, hsize,
    List.take_left' hlength]
  refine imp_congr_right (fun hflag => ?_)
  have huse : ((between header).complete body body).useCrc = true :=
    (between_useCrc header).trans hflag
  have hcrc : ((between header).complete body body).crc =
      crc16 (body.take (payloadSize header)) (crc16 (header.drop 2) 0) := by
    show (if (between header).useCrc then _ else _) = _
    rw [between_useCrc, hflag, if_pos rfl, between_dataSize h.admitted, between_crc hflag]
  have hbytes : bigEndian
      ((body.take (payloadSize header) ++ ((between header).complete body body).trailer).getD
        (payloadSize header + 1) 0)
      ((body.take (payloadSize header) ++ ((between header).complete body body).trailer).getD
        (payloadSize header + 2) 0) = ((between header).complete body body).crc := by
    rw [List.getD_append_right _ _ _ _ (by omega), List.getD_append_right _ _ _ _ (by omega),
      hlength, Nat.add_sub_cancel_left, Nat.add_sub_cancel_left, trailer, huse, if_pos rfl]
    exact Packet.crc_bytes _
  rw [hbytes, hcrc, between_crc (hflagged.trans hflag), crc16_left_iff]
  exact crc16_generated_iff hlen hflag

/-- The checksum that was kept is that of the header that is written. -/
theorem sumFits_generated_iff :
    (between ([0xFF, 0xFF] ++ generatedHeader header)).SumFits
        (body.take (payloadSize header) ++ ((between header).complete body body).trailer)
        (body.take (payloadSize header) ++ ((between header).complete body body).trailer) ↔
      HaierProtocol.checksum ((header.drop 3).take 6) 0 =
        HaierProtocol.checksum (generatedFlags (flagged header)) 0 := by
  have hadm := admitted_generated h.admitted
  have hlength := length_take_payload h
  have hsize : payloadSize ([0xFF, 0xFF] ++ generatedHeader header) = payloadSize header := rfl
  have htype : ([0xFF, 0xFF] ++ generatedHeader header).getD 9 0 = header.getD 9 0 := rfl
  have hkept : (body.take (payloadSize header) ++
      ((between header).complete body body).trailer).getD (payloadSize header) 0 =
        (between header).bodySum body body := by
    rw [List.getD_append_right _ _ _ _ (by omega), hlength, Nat.sub_self, trailer]
    rfl
  have hchk : (between ([0xFF, 0xFF] ++ generatedHeader header)).checksum =
    HaierProtocol.checksum (generatedHeader header) 0 := rfl
  have hchk' : (between header).checksum = HaierProtocol.checksum (header.drop 2) 0 := rfl
  rw [SumFits, between_dataSize hadm, hsize, hkept, bodySum, bodySum, marksIn, marksIn,
    between_dataSize hadm, between_dataSize h.admitted, hsize, List.take_left' hlength,
    between_additional, between_additional, htype, hchk, hchk', UInt8.add_left_inj,
    checksum_left_iff]
  exact checksum_generated_iff hlen

/-- The header and the body that are written for an accepted frame. -/
theorem accepted_generated_iff :
    Accepted ([0xFF, 0xFF] ++ generatedHeader header)
        (body.take (payloadSize header) ++ ((between header).complete body body).trailer) ↔
      LikeGenerated header := by
  have hadm := admitted_generated h.admitted
  constructor
  · intro hacc
    exact ⟨(sumFits_generated_iff hlen h).mp hacc.sum, (crcFits_generated_iff hlen h).mp hacc.crc⟩
  · intro hlike
    refine ⟨hadm, ?_, (crcFits_generated_iff hlen h).mpr hlike.crc,
      (sumFits_generated_iff hlen h).mpr hlike.sum⟩
    have huse : ((between header).complete body body).useCrc = flagged header :=
      between_useCrc header
    rw [bodySize_between hadm, flagged_generated, List.length_append, length_take_payload h,
      trailer, huse]
    refine Nat.add_le_add_left ?_ _
    cases flagged header
    · exact Nat.le_refl 1
    · exact Nat.le_refl 3

theorem rereads_encoding_iff :
    Rereads ((between header).complete body body)
        ((between header).complete body body).encoding ↔ LikeGenerated header := by
  rw [← accepted_generated_iff hlen h]
  have hcarries := carries_complete h.admitted body
  have hplain : [0xFF, 0xFF] ++ (((between header).complete body body).logical ++
      ((between header).complete body body).trailer) = ([0xFF, 0xFF] ++ generatedHeader header) ++
        (body.take (payloadSize header) ++ ((between header).complete body body).trailer) := by
    rw [logical_complete h, List.append_assoc, List.append_assoc]
  have hten : ([0xFF, 0xFF] ++ generatedHeader header).length = 10 := rfl
  constructor
  · rintro ⟨plain, hremoved, hcomplete, -⟩
    rw [removeStuffing_encoding, hplain, Option.some_inj] at hremoved
    rw [← hremoved, List.take_left' hten, List.drop_left' hten] at hcomplete
    exact (parseTwice_complete_iff hten _).mp hcomplete
  · intro hacc
    refine ⟨_, (removeStuffing_encoding _).trans (congrArg some hplain), ?_⟩
    rw [List.take_left' hten, List.drop_left' hten, parseTwice_accepted hten hacc]
    have hagain := carries_complete hacc.admitted
      (body.take (payloadSize header) ++ ((between header).complete body body).trailer)
    have hsize : payloadSize ([0xFF, 0xFF] ++ generatedHeader header) = payloadSize header := rfl
    refine ⟨rfl, hagain.frameType.trans hcarries.frameType.symm, ?_,
      (hagain.useCrc.trans (flagged_generated header)).trans hcarries.useCrc.symm⟩
    rw [hagain.data, hcarries.data, hsize, List.take_left' (length_take_payload h)]

end Reread

/-- The serialiser writes as many bytes as it says, and they are the frame again if and only if
the flags and the reserved bytes that it leaves out leave the sums as those it writes do. -/
theorem reencoding_iff {header body buffer : List UInt8} {limit : Nat}
    (hlen : header.length = 10) (hcomplete : (parseTwice header body).2 = .completeFrame)
    (hsize : (parseTwice header body).1.getBufferSize ≤ 255)
    (hlimit : (parseTwice header body).1.getBufferSize ≤ limit) (hbuffer : limit ≤ buffer.length) :
    ((parseTwice header body).1.fillBuffer buffer limit).2 =
        (parseTwice header body).1.getBufferSize ∧
      ((parseTwice header body).1.fillBuffer buffer limit).1.drop
          (parseTwice header body).1.getBufferSize =
        buffer.drop (parseTwice header body).1.getBufferSize ∧
      (Rereads (parseTwice header body).1
          (((parseTwice header body).1.fillBuffer buffer limit).1.take
            (parseTwice header body).1.getBufferSize) ↔
        LikeGenerated header) := by
  have hacc := (parseTwice_complete_iff hlen body).mp hcomplete
  rw [parseTwice_accepted hlen hacc] at hsize hlimit ⊢
  have hwhole := getBufferSize_complete hacc
  rw [hwhole] at hsize hlimit ⊢
  rw [fillBuffer_eq, hwhole, if_neg (Nat.not_lt.mpr hlimit),
    putBytes_whole (by omega) (Nat.le_trans hlimit hbuffer)]
  refine ⟨rfl, List.drop_left .., ?_⟩
  rw [List.take_left]
  exact rereads_encoding_iff hlen hacc

/-- Flags and a reserved byte that add up to nothing, as those of a generated frame do. -/
theorem reencoding_cancelled :
    Rereads (parseTwice [0xFF, 0xFF, 0x09, 0x01, 0xFF, 0x00, 0x00, 0x00, 0x00, 0x01] [0x07, 0x11]).1
      (((parseTwice [0xFF, 0xFF, 0x09, 0x01, 0xFF, 0x00, 0x00, 0x00, 0x00, 0x01]
        [0x07, 0x11]).1.fillBuffer (List.replicate 12 0) 12).1.take
          (parseTwice [0xFF, 0xFF, 0x09, 0x01, 0xFF, 0x00, 0x00, 0x00, 0x00, 0x01]
            [0x07, 0x11]).1.getBufferSize) :=
  (reencoding_iff rfl (by decide +kernel) (by decide +kernel) (by decide +kernel)
    (by decide +kernel)).2.2.mpr ⟨by decide, fun hflag => absurd hflag (by decide)⟩

/-- A reserved byte that the checksum covers and the serialiser leaves out. -/
theorem reencoding_refused :
    ¬ ∀ (header body buffer : List UInt8) (limit : Nat), header.length = 10 →
      (parseTwice header body).2 = .completeFrame →
      (parseTwice header body).1.getBufferSize ≤ 255 →
      (parseTwice header body).1.getBufferSize ≤ limit → limit ≤ buffer.length →
      Rereads (parseTwice header body).1
        (((parseTwice header body).1.fillBuffer buffer limit).1.take
          (parseTwice header body).1.getBufferSize) := by
  intro hall
  have hrereads := hall [0xFF, 0xFF, 0x08, 0x00, 0x01, 0x00, 0x00, 0x00, 0x00, 0x01] [0x0A]
    (List.replicate 11 0) 11 rfl (by decide +kernel) (by decide +kernel) (by decide +kernel)
    (by decide +kernel)
  have hwritten : ((parseTwice [0xFF, 0xFF, 0x08, 0x00, 0x01, 0x00, 0x00, 0x00, 0x00, 0x01]
      [0x0A]).1.fillBuffer (List.replicate 11 0) 11).1.take
        (parseTwice [0xFF, 0xFF, 0x08, 0x00, 0x01, 0x00, 0x00, 0x00, 0x00, 0x01]
          [0x0A]).1.getBufferSize =
      [0xFF, 0xFF, 0x08, 0x00, 0x00, 0x00, 0x00, 0x00, 0x00, 0x01, 0x0A] := by decide +kernel
  have hplain : removeStuffing
      [0xFF, 0xFF, 0x08, 0x00, 0x00, 0x00, 0x00, 0x00, 0x00, 0x01, 0x0A] =
    some [0xFF, 0xFF, 0x08, 0x00, 0x00, 0x00, 0x00, 0x00, 0x00, 0x01, 0x0A] := by decide +kernel
  obtain ⟨plain, hremoved, hcomplete, -⟩ := hrereads
  rw [hwritten, hplain, Option.some_inj] at hremoved
  rw [← hremoved] at hcomplete
  exact absurd hcomplete (by decide +kernel)

end HaierFrame
end HaierProtocol
