import HaierProtocol.Transport.Acceptance

/-!
# One call

`parse_buffer` goes on to the body where the buffer holds more than the header.  It then takes
the data from where the header ends, but looks for the bytes the CRC covers, for those that had an
escape, for the CRC and for the checksum from the start of the buffer, in the header.  So one call
does what two do only by accident: `callsAgree_iff` says when.
-/

namespace HaierProtocol
namespace HaierFrame

/-- A header and a body in one buffer. -/
def parseOnce (header body : List UInt8) : HaierFrame × FrameError :=
  let (f, err, _) := empty.parseBuffer (header ++ body)
  (f, err)

/-- What the two ways of parsing have to agree on. -/
structure Agree (once twice : HaierFrame × FrameError) : Prop where
  error : once.2 = twice.2
  status : once.1.status = twice.1.status
  frameType : once.1.frameType = twice.1.frameType
  useCrc : once.1.useCrc = twice.1.useCrc
  data : once.1.data = twice.1.data
  checksum : once.1.checksum = twice.1.checksum

/-- What lies at the start of the whole buffer passes the checks that what lies at the start of
the body passes, and no others. -/
structure ReadsAlike (header body : List UInt8) : Prop where
  crc : (between header).CrcFits (header ++ body) ↔ (between header).CrcFits body
  sum : (between header).CrcFits body →
    ((between header).SumFits body (header ++ body) ↔ (between header).SumFits body body)
  checksum : (between header).CrcFits body → (between header).SumFits body body →
    (header ++ body).getD (payloadSize header) 0 = body.getD (payloadSize header) 0

theorem parseOnce_admitted {header body : List UInt8} (hlen : header.length = 10)
    (hne : body ≠ []) (h : Admitted header) :
    parseOnce header body = (between header).parseBody (header ++ body) 10 := by
  have hparse := parseHeader_admitted hlen h body
  rw [if_neg hne] at hparse
  rw [parseOnce, parseBuffer_of_none rfl hparse]

theorem parseOnce_rejected {header : List UInt8} (hlen : header.length = 10)
    (h : ¬ Admitted header) (body : List UInt8) :
    parseOnce header body = parseTwice header body := by
  obtain ⟨f, err, lpos, honly, -, hparse⟩ := parseHeader_rejected hlen h
  have hnil := hparse []
  rw [List.append_nil] at hnil
  rw [parseOnce, parseTwice, parseBuffer_of_some rfl (hparse body), parseBuffer_of_some rfl hnil]
  simp only [if_neg honly]

theorem not_agree {f g : HaierFrame} {err err' : FrameError} (h : err ≠ err') :
    ¬ Agree (f, err) (g, err') := fun hagree => h hagree.error

/-- A check that fails leaves what the two ways have to agree on. -/
theorem agree_withMarks (f : HaierFrame) (window window' : List UInt8) (err : FrameError) :
    Agree (f.withMarks window, err) (f.withMarks window', err) := ⟨rfl, rfl, rfl, rfl, rfl, rfl⟩

/-- Two checks that succeed agree but for the checksum they found. -/
theorem agree_complete_iff {f : HaierFrame} {data window window' : List UInt8}
    (h : f.SumFits data window) (h' : f.SumFits data window') :
    Agree (f.complete data window, .completeFrame) (f.complete data window', .completeFrame) ↔
      window.getD f.dataSize.toNat 0 = window'.getD f.dataSize.toNat 0 := by
  rw [← show f.bodySum data window = _ from h, ← show f.bodySum data window' = _ from h']
  exact ⟨fun hagree => hagree.checksum, fun hsum => ⟨rfl, rfl, rfl, rfl, rfl, hsum⟩⟩

/-- The two checks of a body that is long enough. -/
theorem agree_checks_iff {f : HaierFrame} {header body : List UInt8} (hlen : header.length = 10)
    (hn : f.dataSize.toNat ≤ 233) (hsize : ¬ body.length < f.bodySize) :
    Agree (f.parseBody (header ++ body) 10) (f.parseBody body 0) ↔
      (f.CrcFits (header ++ body) ↔ f.CrcFits body) ∧
      (f.CrcFits body → (f.SumFits body (header ++ body) ↔ f.SumFits body body)) ∧
      (f.CrcFits body → f.SumFits body body →
        (header ++ body).getD f.dataSize.toNat 0 = body.getD f.dataSize.toNat 0) := by
  have hdrop : (header ++ body).drop 10 = body := by
    rw [← hlen]
    exact List.drop_left ..
  have hlength : (header ++ body).length - 10 = body.length := by
    rw [List.length_append, hlen]
    exact Nat.add_sub_cancel_left ..
  have honce := parseBody_eq hn (header ++ body) 10
  have htwice := parseBody_eq hn body 0
  rw [hlength, if_neg hsize, hdrop] at honce
  rw [Nat.sub_zero, if_neg hsize, List.drop_zero] at htwice
  rw [honce, htwice]
  by_cases hc : f.CrcFits body
  · rw [if_neg (not_not.mpr hc)]
    by_cases hc' : f.CrcFits (header ++ body)
    · rw [if_neg (not_not.mpr hc'), and_iff_right (iff_of_true hc' hc)]
      by_cases hs : f.SumFits body body
      · rw [if_neg (not_not.mpr hs)]
        by_cases hs' : f.SumFits body (header ++ body)
        · rw [if_neg (not_not.mpr hs'), agree_complete_iff hs' hs]
          exact ⟨fun heq => ⟨fun _ => iff_of_true hs' hs, fun _ _ => heq⟩, fun h => h.2 hc hs⟩
        · rw [if_pos hs']
          exact iff_of_false (not_agree (by decide)) fun h => hs' ((h.1 hc).mpr hs)
      · rw [if_pos hs]
        by_cases hs' : f.SumFits body (header ++ body)
        · rw [if_neg (not_not.mpr hs')]
          exact iff_of_false (not_agree (by decide)) fun h => hs ((h.1 hc).mp hs')
        · rw [if_pos hs']
          exact iff_of_true (agree_withMarks f _ _ _)
            ⟨fun _ => iff_of_false hs' hs, fun _ h => absurd h hs⟩
    · rw [if_pos hc']
      refine iff_of_false ?_ fun h => hc' (h.1.mpr hc)
      split
      · exact not_agree (by decide)
      · exact not_agree (by decide)
  · rw [if_pos hc]
    by_cases hc' : f.CrcFits (header ++ body)
    · rw [if_neg (not_not.mpr hc')]
      refine iff_of_false ?_ fun h => hc (h.1.mp hc')
      split
      · exact not_agree (by decide)
      · exact not_agree (by decide)
    · rw [if_pos hc']
      exact iff_of_true (agree_withMarks f _ _ _)
        ⟨iff_of_false hc' hc, fun h => absurd h hc, fun h => absurd h hc⟩

/-- One call agrees with two where the header is not admitted, where the body is too short, and
where the start of the buffer happens to read like the body. -/
theorem callsAgree_iff {header body : List UInt8} (hlen : header.length = 10) (hne : body ≠ []) :
    Agree (parseOnce header body) (parseTwice header body) ↔
      ¬ Admitted header ∨ body.length < (between header).bodySize ∨ ReadsAlike header body := by
  by_cases hadm : Admitted header
  · have hn := payloadSize_le hadm
    rw [← between_dataSize hadm] at hn
    rw [parseOnce_admitted hlen hne hadm, parseTwice_admitted hlen hadm,
      or_iff_right (not_not.mpr hadm)]
    by_cases hsize : body.length < (between header).bodySize
    · have hlength : (header ++ body).length - 10 = body.length := by
        rw [List.length_append, hlen]
        exact Nat.add_sub_cancel_left ..
      rw [parseBody_eq hn, parseBody_eq hn, hlength, Nat.sub_zero, if_pos hsize, if_pos hsize]
      exact iff_of_true ⟨rfl, rfl, rfl, rfl, rfl, rfl⟩ (Or.inl hsize)
    · rw [or_iff_right hsize, agree_checks_iff hlen hn hsize, between_dataSize hadm]
      exact ⟨fun h => ⟨h.1, h.2.1, h.2.2⟩, fun h => ⟨h.crc, h.sum, h.checksum⟩⟩
  · rw [parseOnce_rejected hlen hadm]
    exact iff_of_true ⟨rfl, rfl, rfl, rfl, rfl, rfl⟩ (Or.inl hadm)

/-- Without data and CRC the first separator of the header stands for the checksum. -/
theorem callsAgree_separator :
    Agree (parseOnce [0xFF, 0xFF, 0x08, 0x00, 0x00, 0x00, 0x00, 0x00, 0x00, 0xF7] [0xFF])
      (parseTwice [0xFF, 0xFF, 0x08, 0x00, 0x00, 0x00, 0x00, 0x00, 0x00, 0xF7] [0xFF]) :=
  (callsAgree_iff rfl (List.cons_ne_nil _ _)).mpr
    (Or.inr (Or.inr ⟨by decide, fun _ => by decide, fun _ _ => rfl⟩))

/-- One byte of data: two calls take the frame, and one call does not. -/
theorem parseOnce_refuses :
    (parseTwice [0xFF, 0xFF, 0x09, 0x00, 0x00, 0x00, 0x00, 0x00, 0x00, 0x01] [0x07, 0x11]).2 =
        .completeFrame ∧
      (parseOnce [0xFF, 0xFF, 0x09, 0x00, 0x00, 0x00, 0x00, 0x00, 0x00, 0x01] [0x07, 0x11]).2 =
        .checksumWrong ∧
      ¬ ∀ header body : List UInt8, header.length = 10 → body ≠ [] →
        Agree (parseOnce header body) (parseTwice header body) := by
  have htwice : (parseTwice [0xFF, 0xFF, 0x09, 0x00, 0x00, 0x00, 0x00, 0x00, 0x00, 0x01]
      [0x07, 0x11]).2 = .completeFrame := by decide +kernel
  have honce : (parseOnce [0xFF, 0xFF, 0x09, 0x00, 0x00, 0x00, 0x00, 0x00, 0x00, 0x01]
      [0x07, 0x11]).2 = .checksumWrong := by decide +kernel
  refine ⟨htwice, honce, fun hall => ?_⟩
  have hagree := (hall [0xFF, 0xFF, 0x09, 0x00, 0x00, 0x00, 0x00, 0x00, 0x00, 0x01]
    [0x07, 0x11] rfl (List.cons_ne_nil _ _)).error
  rw [htwice, honce] at hagree
  exact FrameError.noConfusion hagree

end HaierFrame
end HaierProtocol
