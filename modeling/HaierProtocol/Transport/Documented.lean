import HaierProtocol.Transport.Acceptance

/-!
# The documented format

The protocol reference adds an escape to the checksum for every byte of the header, from the
length on, that is the separator.  So does the constructor.  The parser adds one for the frame
type and for the data alone (`documentedSum_eq`), so a separator among the flags and the reserved
bytes tells the two apart (`acceptsAsDocumented_iff`).
-/

namespace HaierProtocol
namespace HaierFrame

/-- The bytes after the header that it announces. -/
def impliedLength (header : List UInt8) : Nat :=
  payloadSize header + if flagged header then 3 else 1

/-- The bytes that the checksum and the CRC cover, from the length through the data. -/
def covered (header body : List UInt8) : List UInt8 :=
  header.drop 2 ++ body.take (payloadSize header)

def documentedSum (header body : List UInt8) : UInt8 :=
  UInt8.ofNat (((covered header body).map UInt8.toNat).sum +
    0x55 * (covered header body).count 0xFF)

/-- The CRC bytes are those of the reference. -/
def CrcDocumented (header body : List UInt8) : Prop :=
  flagged header = true →
    bigEndian (body.getD (payloadSize header + 1) 0) (body.getD (payloadSize header + 2) 0) =
      crc16Arc 0 (covered header body)

/-- The format of the reference. -/
structure Documented (header body : List UInt8) : Prop where
  admitted : Admitted header
  checksum : body.getD (payloadSize header) 0 = documentedSum header body
  crc : CrcDocumented header body

/-- The parser takes the documented frames alone, and takes from them what they carry. -/
def AcceptsAsDocumented (header body : List UInt8) : Prop :=
  ((parseTwice header body).2 = .completeFrame ↔ Documented header body) ∧
    ((parseTwice header body).2 = .completeFrame → Carries (parseTwice header body).1 header body)

/-- The separators among the flags and the reserved bytes. -/
def uncounted (header : List UInt8) : Nat := ((header.drop 3).take 6).count 0xFF

/-- The frames that the parser and the reference disagree on: all is right but for the checksum,
which has the escapes of these separators or has not. -/
structure Miscounted (header body : List UInt8) : Prop where
  admitted : Admitted header
  crc : CrcDocumented header body
  uncounted : uncounted header ≠ 0
  checksum : body.getD (payloadSize header) 0 = documentedSum header body ∨
    body.getD (payloadSize header) 0 =
      documentedSum header body - UInt8.ofNat (HaierFrame.uncounted header) * 0x55

/-! ## The two sums -/

theorem crcFits_iff {header : List UInt8} (h : Admitted header) (body : List UInt8) :
    (between header).CrcFits body ↔ CrcDocumented header body := by
  rw [CrcFits, CrcDocumented, between_useCrc, between_dataSize h]
  refine imp_congr_right (fun hflag => ?_)
  rw [between_crc hflag, ← crc16_append, ← covered, crc16_eq]
  exact eq_comm

theorem count_drop {header : List UInt8} (hlen : header.length = 10) (h : Admitted header) :
    (header.drop 2).count 0xFF =
      uncounted header + if header.getD 9 0 = 0xFF then 1 else 0 := by
  match header, hlen with
  | [a, b, c, d, e₁, e₂, e₃, e₄, e₅, t], _ =>
    have hc : c ≠ 0xFF := by
      intro heq
      have hsmall : c.toNat ≤ 0xF1 := h.small
      rw [heq] at hsmall
      exact absurd hsmall (by decide)
    show [c, d, e₁, e₂, e₃, e₄, e₅, t].count 0xFF =
      [d, e₁, e₂, e₃, e₄, e₅].count 0xFF + if t = 0xFF then 1 else 0
    rw [List.count_cons_of_ne hc, show [d, e₁, e₂, e₃, e₄, e₅, t] = [d, e₁, e₂, e₃, e₄, e₅] ++ [t]
      from rfl, List.count_append, List.count_singleton]
    simp

/-- The sum of the reference has the escapes that the parser leaves out. -/
theorem documentedSum_eq {header : List UInt8} (hlen : header.length = 10) (h : Admitted header)
    (body : List UInt8) :
    documentedSum header body =
      (between header).bodySum body body + UInt8.ofNat (uncounted header) * 0x55 := by
  have hsum : HaierProtocol.checksum (body.take (payloadSize header)) (between header).checksum =
      UInt8.ofNat ((covered header body).map UInt8.toNat).sum := by
    show HaierProtocol.checksum _ (HaierProtocol.checksum (header.drop 2) 0) = _
    rw [← checksum_append, checksum_eq, UInt8.zero_add]
    rfl
  rw [bodySum, marksIn, between_dataSize h, hsum, between_additional, documentedSum,
    UInt8.ofNat_add, Nat.mul_comm, UInt8.ofNat_mul, covered, List.count_append,
    count_drop hlen h, UInt8.ofNat_add, UInt8.ofNat_add]
  rw [UInt8.add_assoc (UInt8.ofNat (uncounted header)), UInt8.add_mul, UInt8.add_comm
    (UInt8.ofNat (uncounted header) * UInt8.ofNat 0x55), ← UInt8.add_assoc]
  rfl

theorem uncounted_le (header : List UInt8) : uncounted header ≤ 6 := by
  have hcount := List.count_le_length (a := 0xFF) (l := (header.drop 3).take 6)
  rw [List.length_take] at hcount
  rw [uncounted]
  omega

/-- So few escapes never add up to nothing. -/
theorem escapes_ne_zero {header : List UInt8} (h : uncounted header ≠ 0) :
    UInt8.ofNat (uncounted header) * 0x55 ≠ 0 := by
  have hle := uncounted_le header
  intro hzero
  have hnat := congrArg UInt8.toNat hzero
  rw [UInt8.toNat_mul, UInt8.toNat_ofNat', show (0x55 : UInt8).toNat = 85 from rfl,
    show (0 : UInt8).toNat = 0 from rfl] at hnat
  omega

theorem sub_escapes {header : List UInt8} (h : uncounted header = 0) (s : UInt8) :
    s - UInt8.ofNat (uncounted header) * 0x55 = s := by
  rw [h]
  exact UInt8.sub_zero s

theorem sumFits_iff {header : List UInt8} (hlen : header.length = 10) (h : Admitted header)
    (body : List UInt8) :
    (between header).SumFits body body ↔ body.getD (payloadSize header) 0 =
      documentedSum header body - UInt8.ofNat (uncounted header) * 0x55 := by
  rw [SumFits, between_dataSize h, documentedSum_eq hlen h, UInt8.add_sub_cancel]
  exact eq_comm

theorem accepted_iff {header body : List UInt8} (hlen : header.length = 10)
    (hbody : body.length = impliedLength header) (h : Admitted header) :
    Accepted header body ↔ CrcDocumented header body ∧ body.getD (payloadSize header) 0 =
      documentedSum header body - UInt8.ofNat (uncounted header) * 0x55 := by
  rw [← crcFits_iff h, ← sumFits_iff hlen h]
  constructor
  · exact fun hacc => ⟨hacc.crc, hacc.sum⟩
  · rintro ⟨hcrc, hsum⟩
    refine ⟨h, ?_, hcrc, hsum⟩
    rw [hbody, bodySize_between h]
    exact Nat.le_refl _

theorem acceptsAsDocumented_iff {header body : List UInt8} (hlen : header.length = 10)
    (hbody : body.length = impliedLength header) :
    AcceptsAsDocumented header body ↔ ¬ Miscounted header body := by
  have hcarries : (parseTwice header body).2 = .completeFrame →
      Carries (parseTwice header body).1 header body := by
    intro hcomplete
    have hacc := (parseTwice_complete_iff hlen body).mp hcomplete
    rw [parseTwice_accepted hlen hacc]
    exact carries_complete hacc.admitted body
  rw [AcceptsAsDocumented, and_iff_left hcarries, parseTwice_complete_iff hlen]
  constructor
  · -- A frame that one of the two takes and the other not would have escapes that cancel.
    intro hiff hmis
    have hacc := accepted_iff hlen hbody hmis.admitted
    have hboth : body.getD (payloadSize header) 0 = documentedSum header body ∧
        body.getD (payloadSize header) 0 =
          documentedSum header body - UInt8.ofNat (uncounted header) * 0x55 := by
      rcases hmis.checksum with hdoc | hcode
      · have hdocumented : Documented header body := ⟨hmis.admitted, hdoc, hmis.crc⟩
        exact ⟨hdoc, (hacc.mp (hiff.mpr hdocumented)).2⟩
      · exact ⟨(hiff.mp (hacc.mpr ⟨hmis.crc, hcode⟩)).checksum, hcode⟩
    have hself := hboth.1.symm.trans hboth.2
    have hadd := congrArg (· + UInt8.ofNat (uncounted header) * 0x55) hself
    simp only [UInt8.sub_add_cancel] at hadd
    exact escapes_ne_zero hmis.uncounted (by simpa using hadd)
  · intro hmis
    constructor
    · intro hacc
      obtain ⟨hcrc, hcode⟩ := (accepted_iff hlen hbody hacc.admitted).mp hacc
      by_cases hnone : uncounted header = 0
      · rw [sub_escapes hnone] at hcode
        exact ⟨hacc.admitted, hcode, hcrc⟩
      · exact absurd ⟨hacc.admitted, hcrc, hnone, Or.inr hcode⟩ hmis
    · intro hdoc
      by_cases hnone : uncounted header = 0
      · refine (accepted_iff hlen hbody hdoc.admitted).mpr ⟨hdoc.crc, ?_⟩
        rw [sub_escapes hnone]
        exact hdoc.checksum
      · exact absurd ⟨hdoc.admitted, hdoc.crc, hnone, Or.inl hdoc.checksum⟩ hmis

/-- A header with a separator among its reserved bytes, for no data and no CRC. -/
def reservedHeader : List UInt8 := [0xFF, 0xFF, 0x08, 0x00, 0xFF, 0x00, 0x00, 0x00, 0x00, 0x01]

/-- The documented checksum is refused, and the one without the escape is taken. -/
theorem reservedHeader_not_documented :
    Documented reservedHeader [0x5D] ∧
      (parseTwice reservedHeader [0x5D]).2 = .checksumWrong ∧
      ¬ Documented reservedHeader [0x08] ∧
      (parseTwice reservedHeader [0x08]).2 = .completeFrame ∧
      ¬ ∀ header body : List UInt8, header.length = 10 → body.length = impliedLength header →
        AcceptsAsDocumented header body := by
  have hsum : (parseTwice reservedHeader [0x08]).2 = .completeFrame := by decide +kernel
  have hnot : ¬ Documented reservedHeader [0x08] := by
    intro h
    exact absurd h.checksum (by decide)
  refine ⟨⟨⟨rfl, by decide, by decide⟩, by decide, ?_⟩, by decide +kernel, hnot, hsum, ?_⟩
  · intro hflag
    exact absurd hflag (by decide)
  · intro hall
    exact hnot ((hall reservedHeader [0x08] rfl rfl).1.mp hsum)

/-- A header without separators among those bytes, and its body. -/
theorem acceptsAsDocumented_plain :
    AcceptsAsDocumented [0xFF, 0xFF, 0x09, 0x00, 0x00, 0x00, 0x00, 0x00, 0x00, 0x01] [0xFF, 0x5E] :=
  (acceptsAsDocumented_iff rfl rfl).mpr fun h => h.uncounted (by decide)

end HaierFrame
end HaierProtocol
