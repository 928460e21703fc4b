import HaierProtocol.Transport.BodyCheck

/-!
# Parsing

What `parseBuffer` does with a header and then with a body, the two calls the transport
makes.  `parseBuffer_header` gives the outcome for any eight header bytes after the
separators, and `Packet.parse_header` with `Packet.parse_body` say that a packet's own bytes
give back the packet's frame.
-/

namespace HaierProtocol
namespace HaierFrame

/-- The frame that an accepted header leaves. -/
def ofHeader (header : List UInt8) : HaierFrame :=
  let useCrc := header.getD 1 0 &&& 0x40 != 0
  { frameType := header.getD 7 0
    useCrc := useCrc
    dataSize := header.getD 0 0 - 8
    checksum := HaierProtocol.checksum header 0
    crc := if useCrc then crc16 header 0 else 0
    data := none
    status := .frameHeaderOnly
    additionalBytes := if header.getD 7 0 = 0xFF then 1 else 0 }

/-- The header loop, over the eight bytes it reads. -/
theorem scan_header (b₀ b₁ b₂ b₃ b₄ b₅ b₆ b₇ extra : UInt8) (rest : List UInt8) :
    (List.range' frameSeparatorsCount (frameHeaderSize - frameSeparatorsCount)).foldl
      (fun s lpos => s.next lpos
        (([0xFF, 0xFF] ++ [b₀, b₁, b₂, b₃, b₄, b₅, b₆, b₇] ++ rest).getD lpos 0))
      { fsize := 0, useCrc := true, frameType := 0, chk := 0, crc := initialCrc,
        additionalBytes := extra : HeaderScan } =
      { fsize := b₀
        useCrc := (ofHeader [b₀, b₁, b₂, b₃, b₄, b₅, b₆, b₇]).useCrc
        frameType := b₇
        chk := (ofHeader [b₀, b₁, b₂, b₃, b₄, b₅, b₆, b₇]).checksum
        crc := (ofHeader [b₀, b₁, b₂, b₃, b₄, b₅, b₆, b₇]).crc
        additionalBytes := (ofHeader [b₀, b₁, b₂, b₃, b₄, b₅, b₆, b₇]).additionalBytes } := by
  show HeaderScan.next (HeaderScan.next (HeaderScan.next (HeaderScan.next (HeaderScan.next
    (HeaderScan.next (HeaderScan.next (HeaderScan.next _ 2 b₀) 3 b₁) 4 b₂) 5 b₃) 6 b₄) 7 b₅) 8 b₆)
    9 b₇ = _
  cases hc : b₁ &&& useCrcMask != 0 with
  | false =>
    have hc' : (b₁ &&& 0x40 != 0) = false := hc
    simp [HeaderScan.next, headerSizePos, headerCrcFlagPos, headerFrameTypePos, hc, ofHeader, hc',
      HaierProtocol.checksum, initialCrc, separatorByte]
    rfl
  | true =>
    have hc' : (b₁ &&& 0x40 != 0) = true := hc
    simp [HeaderScan.next, headerSizePos, headerCrcFlagPos, headerFrameTypePos, hc, ofHeader, hc',
      HaierProtocol.checksum, crc16, initialCrc, separatorByte]
    rfl

/-- The block for a header, on separators, eight more bytes and what follows them: the frame of
the header, unless the length byte is out of range. -/
theorem parseHeader_eq (f : HaierFrame) {header : List UInt8} (h : header.length = 8)
    (rest : List UInt8) :
    f.parseHeader ([0xFF, 0xFF] ++ header ++ rest) =
      if header.getD 0 0 < 8 then
        ({ f with additionalBytes := (ofHeader header).additionalBytes }, some .frameTooSmall, 10)
      else if header.getD 0 0 > 0xF1 then
        ({ f with additionalBytes := (ofHeader header).additionalBytes }, some .frameTooBig, 10)
      else ({ ofHeader header with data := f.data },
        if rest = [] then some .headerOnly else none, 10) := by
  match header, h with
  | [b₀, b₁, b₂, b₃, b₄, b₅, b₆, b₇], _ =>
    have hscan := scan_header b₀ b₁ b₂ b₃ b₄ b₅ b₆ b₇ f.additionalBytes rest
    have hlen : ([0xFF, 0xFF] ++ [b₀, b₁, b₂, b₃, b₄, b₅, b₆, b₇] ++ rest).length =
      frameHeaderSize + rest.length := List.length_append ..
    have hshort : ¬ ([0xFF, 0xFF] ++ [b₀, b₁, b₂, b₃, b₄, b₅, b₆, b₇] ++ rest).length <
      frameHeaderSize := by omega
    have hsep : (([0xFF, 0xFF] ++ [b₀, b₁, b₂, b₃, b₄, b₅, b₆, b₇] ++ rest).take
      frameSeparatorsCount).any (· != separatorByte) = false := rfl
    have hend : frameHeaderSize =
        ([0xFF, 0xFF] ++ [b₀, b₁, b₂, b₃, b₄, b₅, b₆, b₇] ++ rest).length ↔ rest = [] := by
      rw [hlen, ← List.length_eq_zero_iff]
      omega
    simp only [parseHeader, if_neg hshort, hsep, Bool.false_eq_true, if_false, hscan, hend,
      List.getD_cons_zero, pureHeaderSize, maxFrameSize]
    by_cases hsmall : b₀ < 8
    · rw [if_pos hsmall, if_pos hsmall]
      rfl
    · by_cases hbig : b₀ > 0xF1
      · rw [if_neg hsmall, if_pos hbig, if_neg hsmall, if_pos hbig]
        rfl
      · rw [if_neg hsmall, if_neg hbig, if_neg hsmall, if_neg hbig]
        by_cases hrest : rest = []
        · rw [if_pos hrest, if_pos hrest]
          rfl
        · rw [if_neg hrest, if_neg hrest]
          rfl

theorem any_ne_separator {buffer : List UInt8} (hlong : ¬ buffer.length < frameHeaderSize) :
    (buffer.take frameSeparatorsCount).any (· != separatorByte) = true ↔
      buffer.take 2 ≠ [0xFF, 0xFF] := by
  match buffer, hlong with
  | [], hlong => exact absurd (by decide) hlong
  | [a], hlong => exact absurd (show 1 < 10 by decide) hlong
  | a :: b :: rest, _ =>
    show (a != 0xFF || (b != 0xFF || false)) = true ↔ [a, b] ≠ [0xFF, 0xFF]
    by_cases ha : a = 0xFF <;> by_cases hb : b = 0xFF <;> simp [ha, hb]

/-- Separators, eight more bytes and what follows them. -/
theorem eq_append_of_separators {buffer : List UInt8} (hsep : buffer.take 2 = [0xFF, 0xFF]) :
    buffer = [0xFF, 0xFF] ++ (buffer.drop 2).take 8 ++ buffer.drop 10 := by
  rw [← hsep, List.append_assoc, ← List.drop_drop (i := 8) (j := 2), List.take_append_drop,
    List.take_append_drop]

theorem getD_drop (l : List UInt8) (n i : Nat) : (l.drop n).getD i 0 = l.getD (n + i) 0 := by
  rw [List.getD_eq_getElem?_getD, List.getElem?_drop, ← List.getD_eq_getElem?_getD]

theorem getD_header (buffer : List UInt8) {i : Nat} (hi : i < 8) :
    ((buffer.drop 2).take 8).getD i 0 = buffer.getD (2 + i) 0 := by
  rw [List.getD_eq_getElem?_getD, List.getElem?_take, if_pos hi, ← List.getD_eq_getElem?_getD,
    getD_drop]

theorem length_header {buffer : List UInt8} (hlong : frameHeaderSize ≤ buffer.length) :
    ((buffer.drop 2).take 8).length = 8 := by
  rw [frameHeaderSize] at hlong
  rw [List.length_take, List.length_drop]
  omega

/-! The outcomes of the block for a header. -/

theorem parseHeader_unread (f : HaierFrame) {buffer : List UInt8}
    (h : ¬ (frameHeaderSize ≤ buffer.length ∧ buffer.take 2 = [0xFF, 0xFF])) :
    f.parseHeader buffer = (f, some (if buffer.length < frameHeaderSize then .headerTooSmall
      else .frameSeparatorWrong), 0) := by
  by_cases hshort : buffer.length < frameHeaderSize
  · rw [parseHeader, if_pos hshort, if_pos hshort]
  · have hsep := (any_ne_separator hshort).mpr fun hsep => h ⟨Nat.not_lt.mp hshort, hsep⟩
    rw [parseHeader, if_neg hshort, if_pos hsep, if_neg hshort]

theorem parseHeader_outOfRange (f : HaierFrame) {buffer : List UInt8}
    (hlong : frameHeaderSize ≤ buffer.length) (hsep : buffer.take 2 = [0xFF, 0xFF])
    (h : buffer.getD 2 0 < 8 ∨ buffer.getD 2 0 > 0xF1) :
    f.parseHeader buffer =
      ({ f with additionalBytes := if buffer.getD 9 0 = 0xFF then 1 else 0 },
        some (if buffer.getD 2 0 < 8 then .frameTooSmall else .frameTooBig), 10) := by
  have hparse := parseHeader_eq f (length_header hlong) (buffer.drop 10)
  rw [← eq_append_of_separators hsep, getD_header buffer (by decide)] at hparse
  rw [hparse, ofHeader, getD_header buffer (by decide)]
  by_cases hsmall : buffer.getD 2 0 < 8
  · rw [if_pos hsmall, if_pos hsmall]
  · rw [if_neg hsmall, if_pos (h.resolve_left hsmall), if_neg hsmall]

theorem parseHeader_inRange (f : HaierFrame) {buffer : List UInt8}
    (hlong : frameHeaderSize ≤ buffer.length) (hsep : buffer.take 2 = [0xFF, 0xFF])
    (h : ¬ (buffer.getD 2 0 < 8 ∨ buffer.getD 2 0 > 0xF1)) :
    f.parseHeader buffer = ({ ofHeader ((buffer.drop 2).take 8) with data := f.data },
      if buffer.drop 10 = [] then some .headerOnly else none, 10) := by
  have hparse := parseHeader_eq f (length_header hlong) (buffer.drop 10)
  rw [← eq_append_of_separators hsep, getD_header buffer (by decide),
    if_neg (not_or.mp h).1, if_neg (not_or.mp h).2] at hparse
  exact hparse

/-- A call that ends with the header. -/
theorem parseBuffer_of_some {f g : HaierFrame} {buffer : List UInt8} {err : FrameError} {lpos : Nat}
    (hs : f.status = .frameEmpty) (h : f.parseHeader buffer = (g, some err, lpos)) :
    f.parseBuffer buffer = (g, err, lpos) := by
  rw [parseBuffer, hs]
  simp only [h]

/-- A call that goes on to the body. -/
theorem parseBuffer_of_none {f g : HaierFrame} {buffer : List UInt8} {lpos : Nat}
    (hs : f.status = .frameEmpty) (h : f.parseHeader buffer = (g, none, lpos)) :
    f.parseBuffer buffer =
      ((g.parseBody buffer lpos).1, (g.parseBody buffer lpos).2, lpos) := by
  rw [parseBuffer, hs]
  simp only [h]

/-- The outcome for separators and eight more bytes. -/
theorem parseBuffer_header {header : List UInt8} (h : header.length = 8) :
    empty.parseBuffer ([0xFF, 0xFF] ++ header) =
      if header.getD 0 0 < 8 then
        ({ empty with additionalBytes := (ofHeader header).additionalBytes }, .frameTooSmall, 10)
      else if header.getD 0 0 > 0xF1 then
        ({ empty with additionalBytes := (ofHeader header).additionalBytes }, .frameTooBig, 10)
      else (ofHeader header, .headerOnly, 10) := by
  have hparse := parseHeader_eq empty h []
  rw [List.append_nil, if_pos rfl] at hparse
  by_cases hsmall : header.getD 0 0 < 8
  · rw [if_pos hsmall] at hparse
    rw [parseBuffer_of_some rfl hparse, if_pos hsmall]
  · by_cases hbig : header.getD 0 0 > 0xF1
    · rw [if_neg hsmall, if_pos hbig] at hparse
      rw [parseBuffer_of_some rfl hparse, if_neg hsmall, if_pos hbig]
    · rw [if_neg hsmall, if_neg hbig] at hparse
      rw [parseBuffer_of_some rfl hparse, if_neg hsmall, if_neg hbig]
      rfl

theorem parseBody_ne_headerOnly (f : HaierFrame) (buffer : List UInt8) (lpos : Nat) :
    (f.parseBody buffer lpos).2 ≠ .headerOnly := by
  simp only [parseBody]
  generalize (if f.useCrc then 3 else 1 : UInt8) = trailerSize
  generalize (if f.useCrc then crc16 (buffer.take f.dataSize.toNat) f.crc else initialCrc) = crc
  split
  · exact FrameError.noConfusion
  · split
    · exact FrameError.noConfusion
    · generalize (if f.useCrc then _ else _ : Nat) = rpos
      split
      · exact FrameError.noConfusion
      · exact FrameError.noConfusion

/-- Only ten bytes with separators in front and a length byte in range are a header. -/
theorem parseBuffer_headerOnly {buffer : List UInt8}
    (h : (empty.parseBuffer buffer).2.1 = .headerOnly) :
    ∃ header : List UInt8, header.length = 8 ∧ buffer = [0xFF, 0xFF] ++ header ∧
      8 ≤ header.getD 0 0 ∧ header.getD 0 0 ≤ 0xF1 ∧
      (empty.parseBuffer buffer).1 = ofHeader header := by
  by_cases hread : frameHeaderSize ≤ buffer.length ∧ buffer.take 2 = [0xFF, 0xFF]
  · obtain ⟨hlong, hsep⟩ := hread
    by_cases hrange : buffer.getD 2 0 < 8 ∨ buffer.getD 2 0 > 0xF1
    · simp only [parseBuffer_of_some rfl (parseHeader_outOfRange empty hlong hsep hrange)] at h
      split at h <;> exact FrameError.noConfusion h
    · have hparse := parseHeader_inRange empty hlong hsep hrange
      by_cases hrest : buffer.drop 10 = []
      · have hsplit := eq_append_of_separators hsep
        rw [hrest, List.append_nil] at hsplit
        rw [if_pos hrest] at hparse
        simp only [not_or, UInt8.not_lt] at hrange
        refine ⟨_, length_header hlong, hsplit, ?_, ?_, ?_⟩
        · rw [getD_header buffer (by decide)]
          exact hrange.1
        · rw [getD_header buffer (by decide)]
          exact hrange.2
        · rw [parseBuffer_of_some rfl hparse]
          rfl
      · -- More than ten bytes go on to the body, which never reports a header.
        rw [if_neg hrest] at hparse
        rw [parseBuffer_of_none rfl hparse] at h
        exact absurd h (parseBody_ne_headerOnly _ _ _)
  · simp only [parseBuffer_of_some rfl (parseHeader_unread empty hread)] at h
    split at h <;> exact FrameError.noConfusion h

theorem dataSize_ofHeader {header : List UInt8} (hsmall : 8 ≤ header.getD 0 0)
    (hbig : header.getD 0 0 ≤ 0xF1) : (ofHeader header).dataSize.toNat ≤ 233 := by
  have hsize : (ofHeader header).dataSize = header.getD 0 0 - 8 := rfl
  have h2 := UInt8.le_iff_toNat_le.mp hbig
  have h8 : (8 : UInt8).toNat = 8 := rfl
  have hF1 : (0xF1 : UInt8).toNat = 241 := rfl
  rw [hsize, UInt8.toNat_sub_of_le _ _ hsmall, h8]
  omega

theorem dataSize_inRange {buffer : List UInt8}
    (h : ¬ (buffer.getD 2 0 < 8 ∨ buffer.getD 2 0 > 0xF1)) :
    (ofHeader ((buffer.drop 2).take 8)).dataSize.toNat ≤ 233 := by
  rw [← getD_header buffer (i := 0) (by decide), not_or, gt_iff_lt, UInt8.not_lt, UInt8.not_lt] at h
  exact dataSize_ofHeader h.1 h.2

theorem bodySize_ofHeader {header : List UInt8} (hsmall : 8 ≤ header.getD 0 0)
    (hbig : header.getD 0 0 ≤ 0xF1) :
    0 < (ofHeader header).bodySize ∧ (ofHeader header).bodySize ≤ 236 := by
  have hn := dataSize_ofHeader hsmall hbig
  rw [bodySize]
  split <;> omega

end HaierFrame

namespace Packet

/-- The frame between the two calls. -/
def headerFrame (p : Packet) : HaierFrame := .ofHeader p.header

theorem toNat_length (p : Packet) :
    (UInt8.ofNat (8 + p.payload.length)).toNat = 8 + p.payload.length := by
  have := p.payload_le
  rw [UInt8.toNat_ofNat']
  omega

theorem headerFrame_dataSize (p : Packet) :
    p.headerFrame.dataSize = UInt8.ofNat p.payload.length := by
  show UInt8.ofNat (8 + p.payload.length) - 8 = _
  rw [UInt8.ofNat_add, UInt8.add_comm]
  exact UInt8.add_sub_cancel _ _

theorem headerFrame_useCrc (p : Packet) : p.headerFrame.useCrc = p.useCrc := by
  show ((if p.useCrc then 0x40 else 0 : UInt8) &&& 0x40 != 0) = _
  cases p.useCrc <;> rfl

theorem bodySize_headerFrame (p : Packet) : p.headerFrame.bodySize = p.body.length := by
  rw [HaierFrame.bodySize, headerFrame_dataSize, headerFrame_useCrc, p.toNat_dataSize, body,
    List.length_append, length_trailer]

/-- The length byte, which is no separator. -/
def lengthByte (p : Packet) : UInt8 := UInt8.ofNat (8 + p.payload.length)

theorem lengthByte_ne (p : Packet) : p.lengthByte ≠ 0xFF := by
  have := p.payload_le
  intro h
  have := congrArg UInt8.toNat h
  rw [lengthByte, p.toNat_length] at this
  have : (0xFF : UInt8).toNat = 255 := rfl
  omega

/-- Of the header bytes only the type can need an escape. -/
theorem count_header (p : Packet) : p.header.count 0xFF = if p.frameType = 0xFF then 1 else 0 := by
  have hlen : UInt8.ofNat (8 + p.payload.length) ≠ 0xFF := p.lengthByte_ne
  have hflag : (if p.useCrc then 0x40 else 0 : UInt8) ≠ 0xFF := by
    cases p.useCrc <;> decide
  rw [header, List.count_cons_of_ne hlen, List.count_cons_of_ne hflag]
  by_cases ht : p.frameType = 0xFF
  · rw [ht]
    rfl
  · rw [if_neg ht]
    simp [ht]

theorem parse_header (p : Packet) :
    HaierFrame.empty.parseBuffer ([0xFF, 0xFF] ++ p.header) = (p.headerFrame, .headerOnly, 10) := by
  have h0 : p.header.getD 0 0 = UInt8.ofNat (8 + p.payload.length) := rfl
  have hle := p.payload_le
  have hsmall : ¬ UInt8.ofNat (8 + p.payload.length) < 8 := by
    rw [UInt8.lt_iff_toNat_lt, p.toNat_length]
    show ¬ 8 + p.payload.length < 8
    omega
  have hbig : ¬ UInt8.ofNat (8 + p.payload.length) > 0xF1 := by
    rw [gt_iff_lt, UInt8.lt_iff_toNat_lt, p.toNat_length]
    show ¬ 241 < 8 + p.payload.length
    omega
  rw [HaierFrame.parseBuffer_header rfl, h0, if_neg hsmall, if_neg hbig]
  rfl

/-- The two bytes of a CRC, high byte first, make it up again. -/
theorem crc_bytes (v : UInt16) : v.toUInt8.toUInt16 + ((v >>> 8).toUInt8.toUInt16 <<< 8) = v := by
  refine UInt16.toNat_inj.mp ?_
  have hv := v.toNat_lt
  simp only [UInt16.toNat_add, UInt16.toNat_shiftLeft, UInt8.toNat_toUInt16, UInt16.toNat_toUInt8,
    UInt16.toNat_shiftRight, Nat.shiftRight_eq_div_pow, Nat.shiftLeft_eq]
  have h8 : 2 ^ ((8 : UInt16).toNat % 16) = 256 := rfl
  rw [h8]
  omega

theorem additional_headerFrame (p : Packet) :
    p.headerFrame.additionalBytes = UInt8.ofNat (p.header.count 0xFF) := by
  rw [count_header]
  show (if p.frameType = 0xFF then 1 else 0) = _
  split <;> rfl

theorem crc_headerFrame (p : Packet) (hu : p.useCrc = true) :
    crc16 p.payload p.headerFrame.crc = p.crc := by
  have hc : p.headerFrame.crc = crc16 p.header 0 := by
    show (if p.headerFrame.useCrc then _ else _) = _
    rw [headerFrame_useCrc, hu, if_pos rfl]
  rw [hc]
  exact p.crc_split

/-- The checksum that the check computes on a packet's own body is the packet's. -/
theorem bodySum_headerFrame (p : Packet) :
    p.headerFrame.bodySum p.body p.body = p.checksum := by
  have htake : p.body.take p.headerFrame.dataSize.toNat = p.payload := by
    rw [headerFrame_dataSize, p.toNat_dataSize]
    exact List.take_left ..
  rw [HaierFrame.bodySum, HaierFrame.marksIn, htake, additional_headerFrame]
  exact p.checksum_split

/-- What the check leaves on a packet's own body is the packet's frame. -/
theorem complete_headerFrame (p : Packet) :
    p.headerFrame.complete p.body p.body = p.frame := by
  have hsum := p.bodySum_headerFrame
  have htake : p.body.take p.payload.length = p.payload := List.take_left ..
  have hadd : p.headerFrame.additionalBytes + p.headerFrame.marksIn p.body =
      UInt8.ofNat (p.logical.count 0xFF) := by
    rw [HaierFrame.marksIn, headerFrame_dataSize, p.toNat_dataSize, htake, p.additional_headerFrame,
      ← UInt8.ofNat_add, ← List.count_append, ← logical]
  have hdata : (if UInt8.ofNat p.payload.length ≠ 0 then some p.payload else none) =
      if p.payload = [] then none else some p.payload := by
    by_cases h : p.payload = []
    · rw [if_neg (by rw [p.dataSize_ne_zero_iff]; simp [h]), if_pos h]
    · rw [if_pos (p.dataSize_ne_zero_iff.mpr h), if_neg h]
  rw [HaierFrame.complete, hsum, HaierFrame.withMarks, hadd]
  simp only [headerFrame_dataSize, headerFrame_useCrc, p.toNat_dataSize, htake, hdata, frame]
  cases hu : p.useCrc with
  | false => rfl
  | true =>
    rw [if_pos rfl, if_pos rfl, p.crc_headerFrame hu]
    rfl

theorem parse_body (p : Packet) :
    p.headerFrame.parseBuffer p.body = (p.frame, .completeFrame, 0) := by
  have hn := p.toNat_dataSize
  have hle := p.payload_le
  have hsize : p.headerFrame.dataSize.toNat = p.payload.length := by
    rw [headerFrame_dataSize, hn]
  have htake : p.body.take p.payload.length = p.payload := List.take_left ..
  have hget : ∀ i, p.body.getD (p.payload.length + i) 0 = p.trailer.getD i 0 := by
    intro i
    rw [body, List.getD_eq_getElem?_getD, List.getElem?_append_right (Nat.le_add_right _ _),
      Nat.add_sub_cancel_left, ← List.getD_eq_getElem?_getD]
  have hfits : p.headerFrame.CrcFits p.body := by
    intro hu
    rw [headerFrame_useCrc] at hu
    rw [hsize, htake, p.crc_headerFrame hu, hget, hget, trailer, hu]
    exact (crc_bytes p.crc).symm
  have hsum : p.headerFrame.SumFits p.body p.body := by
    rw [HaierFrame.SumFits, bodySum_headerFrame, hsize]
    exact (hget 0).symm
  have hlong : ¬ p.body.length < p.headerFrame.bodySize := by
    rw [bodySize_headerFrame]
    exact Nat.lt_irrefl _
  have hstatus : p.headerFrame.status = .frameHeaderOnly := rfl
  rw [HaierFrame.parseBuffer, hstatus]
  simp only [HaierFrame.parseBody_eq (hsize ▸ hle), Nat.sub_zero, List.drop_zero, if_neg hlong,
    hfits, hsum, not_true_eq_false, if_false]
  rw [complete_headerFrame]

end Packet
end HaierProtocol
