import HaierProtocol.Transport.Acceptance

/-!
# Failed attempts

`parse_buffer` keeps what it reads in locals until the checks have passed, but for the number of
escapes.  A failed attempt leaves that number changed, and the next attempt adds to it.
`keepsFrame_iff` says which attempts do so, on any frame that a program can hold.
-/

namespace HaierProtocol
namespace HaierFrame

/-- The frames that a program can hold. -/
inductive Arises : HaierFrame → Prop where
  | default : Arises empty
  | constructed (frameType : UInt8) (data : List UInt8) (dataSize : UInt8) (useCrc : Bool) :
      Arises (construct frameType data dataSize useCrc)
  /-- What a move leaves behind. -/
  | movedFrom {f : HaierFrame} : Arises f → Arises { f with data := none }
  | reset {f : HaierFrame} : Arises f → Arises f.reset
  | parsed {f : HaierFrame} (buffer : List UInt8) : Arises f → Arises (f.parseBuffer buffer).1

/-- The attempt returns an error without having gone on to the next status. -/
def Failed (f : HaierFrame) (buffer : List UInt8) : Prop :=
  (f.parseBuffer buffer).2.1 ≠ .headerOnly ∧ (f.parseBuffer buffer).2.1 ≠ .completeFrame ∧
    (f.parseBuffer buffer).1.status = f.status

/-- Nothing that can be asked of the frame tells that there was an attempt, nor does any later
attempt. -/
structure Untouched (f after : HaierFrame) : Prop where
  frameType : after.frameType = f.frameType
  useCrc : after.useCrc = f.useCrc
  dataSize : after.dataSize = f.dataSize
  checksum : after.checksum = f.checksum
  crc : after.crc = f.crc
  data : after.data = f.data
  status : after.status = f.status
  size : after.getBufferSize = f.getBufferSize
  later : ∀ buffer, after.parseBuffer buffer = f.parseBuffer buffer

def KeepsFrame (f : HaierFrame) (buffer : List UInt8) : Prop :=
  Failed f buffer → Untouched f (f.parseBuffer buffer).1

/-- The attempts that leave another number of escapes. -/
def LeavesMark (f : HaierFrame) (buffer : List UInt8) : Prop :=
  match f.status with
  | .frameEmpty => frameHeaderSize ≤ buffer.length ∧ buffer.take 2 = [0xFF, 0xFF] ∧
      (buffer.getD 2 0 < 8 ∨ buffer.getD 2 0 > 0xF1) ∧
      f.additionalBytes ≠ if buffer.getD 9 0 = 0xFF then 1 else 0
  | .frameHeaderOnly => f.bodySize ≤ buffer.length ∧
      ¬ (f.CrcFits buffer ∧ f.SumFits buffer buffer) ∧ 0xFF ∈ buffer.take f.dataSize.toNat
  | .frameComplete => False

/-! ## The data size of a header -/

/-- A frame with a header has a data size that the parser admits. -/
def Sized (f : HaierFrame) : Prop := f.status = .frameHeaderOnly → f.dataSize.toNat ≤ 233

theorem status_construct (frameType : UInt8) (data : List UInt8) (dataSize : UInt8)
    (useCrc : Bool) : (construct frameType data dataSize useCrc).status = .frameComplete := by
  rw [construct]
  simp only [foldl_accumulate_header, foldl_accumulate_data]
  split
  · rw [foldl_accumulate, foldl_accumulate]
  · rw [foldl_accumulate]

theorem sized_parseBody {f : HaierFrame} (hn : f.dataSize.toNat ≤ 233) (buffer : List UInt8)
    (lpos : Nat) : Sized (f.parseBody buffer lpos).1 := by
  intro _
  rw [parseBody_eq hn]
  split
  · exact hn
  · split
    · exact hn
    · split
      · exact hn
      · exact hn

theorem sized_parseBuffer {f : HaierFrame} (h : Sized f) (buffer : List UInt8) :
    Sized (f.parseBuffer buffer).1 := by
  cases hs : f.status with
  | frameComplete =>
    rw [parseBuffer, hs]
    exact h
  | frameHeaderOnly =>
    rw [parseBuffer, hs]
    exact sized_parseBody (h hs) buffer 0
  | frameEmpty =>
    by_cases hread : frameHeaderSize ≤ buffer.length ∧ buffer.take 2 = [0xFF, 0xFF]
    · by_cases hrange : buffer.getD 2 0 < 8 ∨ buffer.getD 2 0 > 0xF1
      · rw [parseBuffer_of_some hs (parseHeader_outOfRange f hread.1 hread.2 hrange)]
        exact h
      · have hn := dataSize_inRange hrange
        have hparse := parseHeader_inRange f hread.1 hread.2 hrange
        by_cases hrest : buffer.drop 10 = []
        · rw [if_pos hrest] at hparse
          rw [parseBuffer_of_some hs hparse]
          exact fun _ => hn
        · rw [if_neg hrest] at hparse
          rw [parseBuffer_of_none hs hparse]
          refine sized_parseBody ?_ buffer 10
          exact hn
    · rw [parseBuffer_of_some hs (parseHeader_unread f hread)]
      exact h

theorem Arises.sized {f : HaierFrame} (h : Arises f) : Sized f := by
  have hempty : Sized empty := fun hs => FrameStatus.noConfusion hs
  induction h with
  | default => exact hempty
  | constructed frameType data dataSize useCrc =>
    intro hs
    rw [status_construct] at hs
    exact FrameStatus.noConfusion hs
  | movedFrom _ ih => exact ih
  | reset _ _ => exact hempty
  | parsed buffer _ ih => exact sized_parseBuffer ih buffer

/-! ## What a failed attempt leaves -/

theorem getBufferSize_additional (f : HaierFrame) (n : UInt8) :
    { f with additionalBytes := n }.getBufferSize + f.additionalBytes.toNat =
      f.getBufferSize + n.toNat := by
  by_cases h1 : f.checksum = separatorByte <;>
    by_cases h2 : f.crc &&& 0xFF = separatorByte.toUInt16 <;>
    by_cases h3 : (f.crc >>> 8) &&& 0xFF = separatorByte.toUInt16 <;>
    by_cases h4 : f.useCrc = true <;>
    simp only [getBufferSize, h1, h2, h3, h4, if_true, if_false, Bool.false_eq_true] <;> omega

/-- A frame with another number of escapes is of another size. -/
theorem untouched_iff (f : HaierFrame) (n : UInt8) :
    Untouched f { f with additionalBytes := n } ↔ n = f.additionalBytes := by
  constructor
  · intro h
    have hsize := getBufferSize_additional f n
    rw [h.size] at hsize
    exact UInt8.toNat_inj.mp (by omega)
  · intro h
    rw [h]
    exact ⟨rfl, rfl, rfl, rfl, rfl, rfl, rfl, rfl, fun _ => rfl⟩

theorem marksIn_eq_zero_iff {f : HaierFrame} (hn : f.dataSize.toNat ≤ 233) (window : List UInt8) :
    f.marksIn window = 0 ↔ 0xFF ∉ window.take f.dataSize.toNat := by
  have hcount := List.count_le_length (a := 0xFF) (l := window.take f.dataSize.toNat)
  rw [List.length_take] at hcount
  rw [← List.count_eq_zero, marksIn, ← UInt8.toNat_inj, UInt8.toNat_ofNat',
    show (0 : UInt8).toNat = 0 from rfl]
  omega

theorem keepsFrame_of_eq {f : HaierFrame} {buffer : List UInt8}
    (h : (f.parseBuffer buffer).1 = f) : KeepsFrame f buffer := by
  intro _
  rw [h]
  exact (untouched_iff f f.additionalBytes).mpr rfl

theorem status_parseBody {f : HaierFrame} (hn : f.dataSize.toNat ≤ 233) (buffer : List UInt8)
    (lpos : Nat) : (f.parseBody buffer lpos).1.status = f.status ∨
      (f.parseBody buffer lpos).1.status = .frameComplete := by
  rw [parseBody_eq hn]
  split
  · exact Or.inl rfl
  · split
    · exact Or.inl rfl
    · split
      · exact Or.inl rfl
      · exact Or.inr rfl

theorem keepsFrame_empty {f : HaierFrame} (hs : f.status = .frameEmpty) (buffer : List UInt8) :
    KeepsFrame f buffer ↔ ¬ LeavesMark f buffer := by
  have hmark : LeavesMark f buffer ↔ frameHeaderSize ≤ buffer.length ∧
      buffer.take 2 = [0xFF, 0xFF] ∧ (buffer.getD 2 0 < 8 ∨ buffer.getD 2 0 > 0xF1) ∧
        f.additionalBytes ≠ if buffer.getD 9 0 = 0xFF then 1 else 0 := by
    rw [LeavesMark, hs]
  rw [hmark]
  by_cases hread : frameHeaderSize ≤ buffer.length ∧ buffer.take 2 = [0xFF, 0xFF]
  · obtain ⟨hlong, hsep⟩ := hread
    by_cases hrange : buffer.getD 2 0 < 8 ∨ buffer.getD 2 0 > 0xF1
    · have hafter := parseBuffer_of_some hs (parseHeader_outOfRange f hlong hsep hrange)
      have hfailed : Failed f buffer := by
        have honly : (if buffer.getD 2 0 < 8 then .frameTooSmall else .frameTooBig) ≠
          FrameError.headerOnly := by split <;> decide
        have hcomplete : (if buffer.getD 2 0 < 8 then .frameTooSmall else .frameTooBig) ≠
          FrameError.completeFrame := by split <;> decide
        rw [Failed, hafter]
        exact ⟨honly, hcomplete, rfl⟩
      rw [KeepsFrame, hafter, untouched_iff]
      constructor
      · rintro hkeeps ⟨-, -, -, hne⟩
        exact hne (hkeeps hfailed).symm
      · intro hmarks _
        by_contra hne
        exact hmarks ⟨hlong, hsep, hrange, fun heq => hne heq.symm⟩
    · -- The frame gets a header, so the status is another one.
      have hparse := parseHeader_inRange f hlong hsep hrange
      refine iff_of_true (fun hfailed => absurd hfailed ?_) fun h => hrange h.2.2.1
      rintro ⟨honly, -, hstatus⟩
      rw [hs] at hstatus
      by_cases hrest : buffer.drop 10 = []
      · rw [if_pos hrest] at hparse
        rw [parseBuffer_of_some hs hparse] at honly
        exact honly rfl
      · rw [if_neg hrest] at hparse
        rw [parseBuffer_of_none hs hparse] at hstatus
        have hbody := status_parseBody
          (f := { ofHeader ((buffer.drop 2).take 8) with data := f.data })
          (dataSize_inRange hrange) buffer 10
        rw [hstatus] at hbody
        rcases hbody with h | h
        · exact FrameStatus.noConfusion h
        · exact FrameStatus.noConfusion h
  · refine iff_of_true (keepsFrame_of_eq ?_) fun h => hread ⟨h.1, h.2.1⟩
    rw [parseBuffer_of_some hs (parseHeader_unread f hread)]

theorem keepsFrame_headerOnly {f : HaierFrame} (hs : f.status = .frameHeaderOnly)
    (hn : f.dataSize.toNat ≤ 233) (buffer : List UInt8) :
    KeepsFrame f buffer ↔ ¬ LeavesMark f buffer := by
  have hmark : LeavesMark f buffer ↔ f.bodySize ≤ buffer.length ∧
      ¬ (f.CrcFits buffer ∧ f.SumFits buffer buffer) ∧ 0xFF ∈ buffer.take f.dataSize.toNat := by
    rw [LeavesMark, hs]
  have hparse : f.parseBuffer buffer =
      ((f.parseBody buffer 0).1, (f.parseBody buffer 0).2, 0) := by
    rw [parseBuffer, hs]
  have hbody := parseBody_eq hn buffer 0
  rw [Nat.sub_zero, List.drop_zero] at hbody
  rw [hmark]
  by_cases hsize : buffer.length < f.bodySize
  · rw [if_pos hsize] at hbody
    refine iff_of_true (keepsFrame_of_eq ?_) fun h => Nat.not_lt.mpr h.1 hsize
    rw [hparse, hbody]
  rw [if_neg hsize] at hbody
  by_cases hfits : f.CrcFits buffer ∧ f.SumFits buffer buffer
  · rw [if_neg (not_not.mpr hfits.1), if_neg (not_not.mpr hfits.2)] at hbody
    refine iff_of_true (fun hfailed => absurd hfailed ?_) fun h => h.2.1 hfits
    intro hfailed
    rw [Failed, hparse, hbody] at hfailed
    exact hfailed.2.1 rfl
  · have hwrong : ∃ err, err ≠ .headerOnly ∧ err ≠ .completeFrame ∧
        f.parseBody buffer 0 = (f.withMarks buffer, err) := by
      by_cases hcrc : f.CrcFits buffer
      · rw [if_neg (not_not.mpr hcrc), if_pos fun hsum => hfits ⟨hcrc, hsum⟩] at hbody
        exact ⟨_, FrameError.noConfusion, FrameError.noConfusion, hbody⟩
      · rw [if_pos hcrc] at hbody
        exact ⟨_, FrameError.noConfusion, FrameError.noConfusion, hbody⟩
    obtain ⟨err, honly, hcomplete, hleft⟩ := hwrong
    have hfailed : Failed f buffer := by
      rw [Failed, hparse, hleft]
      exact ⟨honly, hcomplete, rfl⟩
    have hmarks := marksIn_eq_zero_iff hn buffer
    have hadd : f.additionalBytes + f.marksIn buffer = f.additionalBytes ↔
        f.marksIn buffer = 0 := UInt8.add_eq_left
    rw [KeepsFrame, hparse, hleft, withMarks, untouched_iff, hadd, hmarks]
    constructor
    · rintro hkeeps ⟨-, -, hmem⟩
      exact hkeeps hfailed hmem
    · intro hleaves _ hmem
      exact hleaves ⟨Nat.not_lt.mp hsize, hfits, hmem⟩

/-- A failed attempt leaves the frame as it was unless it read escapes: a header whose length is
out of range sets their number by the frame type, and a body that does not fit adds to it. -/
theorem keepsFrame_iff {f : HaierFrame} (h : Arises f) (buffer : List UInt8) :
    KeepsFrame f buffer ↔ ¬ LeavesMark f buffer := by
  cases hs : f.status with
  | frameEmpty => exact keepsFrame_empty hs buffer
  | frameHeaderOnly => exact keepsFrame_headerOnly hs (h.sized hs) buffer
  | frameComplete =>
    refine iff_of_true (keepsFrame_of_eq ?_) ?_
    · rw [parseBuffer, hs]
    · rw [LeavesMark, hs]
      exact not_false

/-- The header of one byte of data, without a CRC. -/
def oneByteHeader : List UInt8 := [0xFF, 0xFF, 0x09, 0x00, 0x00, 0x00, 0x00, 0x00, 0x00, 0x01]

/-- A wrong body without separators does no harm. -/
theorem keepsFrame_wrongBody : KeepsFrame (empty.parseBuffer oneByteHeader).1 [0x00, 0x00] := by
  refine (keepsFrame_iff (.parsed oneByteHeader .default) [0x00, 0x00]).mpr fun h => ?_
  have hheader : (empty.parseBuffer oneByteHeader).1 = between oneByteHeader := by decide +kernel
  rw [hheader] at h
  exact absurd h.2.2 (by decide +kernel)

/-- A wrong body with a separator makes the correct one fail after it. -/
theorem correctBody_refused :
    ((empty.parseBuffer oneByteHeader).1.parseBuffer [0xFF, 0x00]).2.1 = .checksumWrong ∧
      ((empty.parseBuffer oneByteHeader).1.parseBuffer [0x07, 0x11]).2.1 = .completeFrame ∧
      (((empty.parseBuffer oneByteHeader).1.parseBuffer [0xFF, 0x00]).1.parseBuffer
        [0x07, 0x11]).2.1 = .checksumWrong ∧
      ¬ ∀ (f : HaierFrame) (buffer : List UInt8), Arises f →
        f.status = .frameEmpty ∨ f.status = .frameHeaderOnly → KeepsFrame f buffer := by
  have hwrong : ((empty.parseBuffer oneByteHeader).1.parseBuffer [0xFF, 0x00]).2.1 =
    .checksumWrong := by decide +kernel
  have hright : ((empty.parseBuffer oneByteHeader).1.parseBuffer [0x07, 0x11]).2.1 =
    .completeFrame := by decide +kernel
  have hlater : (((empty.parseBuffer oneByteHeader).1.parseBuffer [0xFF, 0x00]).1.parseBuffer
    [0x07, 0x11]).2.1 = .checksumWrong := by decide +kernel
  refine ⟨hwrong, hright, hlater, fun hall => ?_⟩
  have hstatus : (empty.parseBuffer oneByteHeader).1.status = .frameHeaderOnly := by decide +kernel
  have hfailed : Failed (empty.parseBuffer oneByteHeader).1 [0xFF, 0x00] := by
    rw [Failed, hwrong]
    exact ⟨by decide, by decide, by decide +kernel⟩
  have hkeeps := hall _ [0xFF, 0x00] (.parsed oneByteHeader .default) (Or.inr hstatus) hfailed
  have hsame := congrArg (fun r => r.2.1) (hkeeps.later [0x07, 0x11])
  simp only [hright, hlater] at hsame
  exact FrameError.noConfusion hsame

end HaierFrame
end HaierProtocol
