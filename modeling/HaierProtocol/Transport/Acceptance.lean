import HaierProtocol.Transport.ParseBuffer

/-!
# Accepted frames

What a header and then a body have to be like for the two calls of `parse_buffer` to end in a
whole frame (`parseTwice_complete_iff`), and what that frame is (`parseTwice_accepted`).
-/

namespace HaierProtocol
namespace HaierFrame

/-! ## Two calls -/

/-- A header and then a body, parsed into one frame as `process_data` does: a header that is not
accepted ends it. -/
def parseTwice (header body : List UInt8) : HaierFrame × FrameError :=
  let (f, err, _) := empty.parseBuffer header
  if err = .headerOnly then ((f.parseBuffer body).1, (f.parseBuffer body).2.1) else (f, err)

/-- What a header has to be like. -/
structure Admitted (header : List UInt8) : Prop where
  separators : header.take 2 = [0xFF, 0xFF]
  large : 8 ≤ (header.getD 2 0).toNat
  small : (header.getD 2 0).toNat ≤ 0xF1

/-- The data bytes that a header announces. -/
def payloadSize (header : List UInt8) : Nat := (header.getD 2 0).toNat - 8

def flagged (header : List UInt8) : Bool := header.getD 3 0 &&& 0x40 != 0

/-- The frame that an admitted header leaves. -/
def between (header : List UInt8) : HaierFrame := ofHeader (header.drop 2)

theorem between_frameType (header : List UInt8) : (between header).frameType = header.getD 9 0 :=
  getD_drop header 2 7

theorem between_useCrc (header : List UInt8) : (between header).useCrc = flagged header := by
  show ((header.drop 2).getD 1 0 &&& 0x40 != 0) = _
  rw [getD_drop]
  rfl

theorem between_additional (header : List UInt8) :
    (between header).additionalBytes = UInt8.ofNat (if header.getD 9 0 = 0xFF then 1 else 0) := by
  show (if (header.drop 2).getD 7 0 = 0xFF then 1 else 0) = _
  rw [getD_drop]
  split <;> rfl

theorem between_dataSize {header : List UInt8} (h : Admitted header) :
    (between header).dataSize.toNat = payloadSize header := by
  have hlarge : 8 ≤ header.getD 2 0 := UInt8.le_iff_toNat_le.mpr h.large
  show ((header.drop 2).getD 0 0 - 8).toNat = _
  rw [getD_drop, UInt8.toNat_sub_of_le _ _ hlarge]
  rfl

theorem payloadSize_le {header : List UInt8} (h : Admitted header) : payloadSize header ≤ 233 := by
  have := h.small
  rw [payloadSize]
  omega

theorem bodySize_between {header : List UInt8} (h : Admitted header) :
    (between header).bodySize = payloadSize header + if flagged header then 3 else 1 := by
  rw [bodySize, between_dataSize h, between_useCrc]

theorem between_crc {header : List UInt8} (h : flagged header = true) :
    (between header).crc = crc16 (header.drop 2) 0 := by
  show (if (between header).useCrc then _ else _) = _
  rw [between_useCrc, h, if_pos rfl]

/-- The block for a header, on ten bytes and what follows them. -/
theorem parseHeader_admitted {header : List UInt8} (hlen : header.length = 10)
    (h : Admitted header) (rest : List UInt8) :
    empty.parseHeader (header ++ rest) =
      (between header, if rest = [] then some .headerOnly else none, 10) := by
  have hsplit : header = [0xFF, 0xFF] ++ header.drop 2 := by
    rw [← h.separators, List.take_append_drop]
  have hdrop : (header.drop 2).length = 8 := by
    rw [List.length_drop, hlen]
  have hsmall : ¬ (header.drop 2).getD 0 0 < 8 := by
    rw [getD_drop, UInt8.lt_iff_toNat_lt]
    exact Nat.not_lt.mpr h.large
  have hbig : ¬ (header.drop 2).getD 0 0 > 0xF1 := by
    rw [getD_drop, gt_iff_lt, UInt8.lt_iff_toNat_lt]
    exact Nat.not_lt.mpr h.small
  have hparse := parseHeader_eq empty hdrop rest
  rw [← hsplit, if_neg hsmall, if_neg hbig] at hparse
  exact hparse

/-- A header that is not admitted ends the parsing, with or without more bytes. -/
theorem parseHeader_rejected {header : List UInt8} (hlen : header.length = 10)
    (h : ¬ Admitted header) : ∃ f err lpos, err ≠ FrameError.headerOnly ∧
      err ≠ FrameError.completeFrame ∧
        ∀ rest, empty.parseHeader (header ++ rest) = (f, some err, lpos) := by
  have hlong : ∀ rest : List UInt8, frameHeaderSize ≤ (header ++ rest).length := by
    intro rest
    rw [List.length_append, hlen, frameHeaderSize]
    omega
  have htake : ∀ rest : List UInt8, (header ++ rest).take 2 = header.take 2 :=
    fun rest => List.take_append_of_le_length (by omega)
  have hget : ∀ rest i, i < 10 → (header ++ rest).getD i 0 = header.getD i 0 :=
    fun rest i hi => List.getD_append _ _ _ _ (by omega)
  by_cases hsep : header.take 2 = [0xFF, 0xFF]
  · have hrange : header.getD 2 0 < 8 ∨ header.getD 2 0 > 0xF1 := by
      by_contra hin
      simp only [not_or, UInt8.not_lt, gt_iff_lt, UInt8.le_iff_toNat_le] at hin
      exact h ⟨hsep, hin.1, hin.2⟩
    refine ⟨{ empty with additionalBytes := if header.getD 9 0 = 0xFF then 1 else 0 },
      if header.getD 2 0 < 8 then .frameTooSmall else .frameTooBig, 10, ?_, ?_, fun rest => ?_⟩
    · split <;> decide
    · split <;> decide
    · have hparse := parseHeader_outOfRange empty (hlong rest) ((htake rest).trans hsep)
        ((hget rest 2 (by decide)).symm ▸ hrange)
      rwa [hget rest 2 (by decide), hget rest 9 (by decide)] at hparse
  · refine ⟨empty, .frameSeparatorWrong, 0, by decide, by decide, fun rest => ?_⟩
    have hunread : ¬ (frameHeaderSize ≤ (header ++ rest).length ∧
        (header ++ rest).take 2 = [0xFF, 0xFF]) := by
      rw [htake]
      exact fun hread => hsep hread.2
    rw [parseHeader_unread empty hunread, if_neg (Nat.not_lt.mpr (hlong rest))]

theorem parseTwice_admitted {header : List UInt8} (hlen : header.length = 10)
    (h : Admitted header) (body : List UInt8) :
    parseTwice header body = (between header).parseBody body 0 := by
  have hparse := parseHeader_admitted hlen h []
  rw [List.append_nil, if_pos rfl] at hparse
  have hbetween : (between header).status = .frameHeaderOnly := rfl
  rw [parseTwice, parseBuffer_of_some rfl hparse]
  simp only [if_true, parseBuffer, hbetween]

theorem parseTwice_rejected {header : List UInt8} (hlen : header.length = 10)
    (h : ¬ Admitted header) (body : List UInt8) :
    (parseTwice header body).2 ≠ .completeFrame := by
  obtain ⟨f, err, lpos, honly, hcomplete, hparse⟩ := parseHeader_rejected hlen h
  have hnil := hparse []
  rw [List.append_nil] at hnil
  rw [parseTwice, parseBuffer_of_some rfl hnil]
  simp only [if_neg honly]
  exact hcomplete

/-- What a header and a body have to be like together. -/
structure Accepted (header body : List UInt8) : Prop where
  admitted : Admitted header
  size : (between header).bodySize ≤ body.length
  crc : (between header).CrcFits body
  sum : (between header).SumFits body body

theorem parseTwice_accepted {header body : List UInt8} (hlen : header.length = 10)
    (h : Accepted header body) :
    parseTwice header body = ((between header).complete body body, .completeFrame) := by
  have hn := payloadSize_le h.admitted
  rw [← between_dataSize h.admitted] at hn
  rw [parseTwice_admitted hlen h.admitted, parseBody_eq hn, Nat.sub_zero, List.drop_zero,
    if_neg (Nat.not_lt.mpr h.size), if_neg (not_not.mpr h.crc), if_neg (not_not.mpr h.sum)]

theorem parseTwice_complete_iff {header : List UInt8} (hlen : header.length = 10)
    (body : List UInt8) :
    (parseTwice header body).2 = .completeFrame ↔ Accepted header body := by
  constructor
  · intro hcomplete
    by_cases hadm : Admitted header
    · have hn := payloadSize_le hadm
      rw [← between_dataSize hadm] at hn
      rw [parseTwice_admitted hlen hadm, parseBody_eq hn, Nat.sub_zero, List.drop_zero] at hcomplete
      by_cases hsize : body.length < (between header).bodySize
      · rw [if_pos hsize] at hcomplete
        exact FrameError.noConfusion hcomplete
      by_cases hcrc : (between header).CrcFits body
      · by_cases hsum : (between header).SumFits body body
        · exact ⟨hadm, Nat.not_lt.mp hsize, hcrc, hsum⟩
        · rw [if_neg hsize, if_neg (not_not.mpr hcrc), if_pos hsum] at hcomplete
          exact FrameError.noConfusion hcomplete
      · rw [if_neg hsize, if_pos hcrc] at hcomplete
        exact FrameError.noConfusion hcomplete
    · exact absurd hcomplete (parseTwice_rejected hlen hadm body)
  · intro h
    rw [parseTwice_accepted hlen h]

/-- The frame of a header and a body. -/
structure Carries (f : HaierFrame) (header body : List UInt8) : Prop where
  frameType : f.frameType = header.getD 9 0
  useCrc : f.useCrc = flagged header
  dataSize : f.dataSize.toNat = payloadSize header
  data : f.data =
    if payloadSize header = 0 then none else some (body.take (payloadSize header))

/-- What an accepted header and body give. -/
theorem carries_complete {header : List UInt8} (h : Admitted header) (body : List UInt8) :
    Carries ((between header).complete body body) header body where
  frameType := between_frameType header
  useCrc := between_useCrc header
  dataSize := between_dataSize h
  data := by
    have hzero : (between header).dataSize ≠ 0 ↔ payloadSize header ≠ 0 := by
      rw [← between_dataSize h, ne_eq, ne_eq, ← UInt8.toNat_inj]
      rfl
    rw [complete, between_dataSize h]
    by_cases hn : payloadSize header = 0
    · rw [if_neg (hzero.not.mpr (not_not.mpr hn)), if_pos hn]
    · rw [if_pos (hzero.mpr hn), if_neg hn]

end HaierFrame
end HaierProtocol
