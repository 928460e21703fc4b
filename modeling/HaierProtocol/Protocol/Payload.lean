import HaierProtocol.Protocol.Objects
import HaierProtocol.Transport.FailedParse

/-!
# The payload of an object

What an object that can be read serialises, and what its constructors and `parse_buffer` make of its
payload: nothing, or a block of its own of the object's data size (`Fresh`).
-/

namespace HaierProtocol

open Ownership

/-! ## Objects that can be read -/

section Values

variable {heap : PayloadHeap} {m : MessageObject} {f : FrameObject} {bytes : List UInt8}

theorem HaierMessage.fillBuffer_size (m : HaierMessage) (buffer : List UInt8) {limit : Nat}
    (h : m.getBufferSize ≤ limit) : (m.fillBuffer buffer limit).2 = m.getBufferSize := by
  rw [fillBuffer, if_neg (Nat.not_lt.mpr h), getBufferSize]
  by_cases hsub : m.subcommand = noSubcommand
  · rw [if_pos hsub, if_neg (not_not.mpr hsub)]
    exact Nat.add_comm ..
  · rw [if_neg hsub, if_pos hsub]
    exact Nat.add_comm ..

theorem HaierFrame.fillBuffer_size (f : HaierFrame) (buffer : List UInt8) {limit : Nat}
    (h : f.getBufferSize ≤ limit) : (f.fillBuffer buffer limit).2 = f.getBufferSize := by
  rw [fillBuffer]
  exact congrArg Prod.snd (if_neg (Nat.not_lt.mpr h))

/-- An object whose block can be read serialises what is in it. -/
theorem MessageObject.fillBuffer_of_read (h : heap.read m.data m.dataSize = some bytes)
    (hlen : bytes.length = m.dataSize) (buffer : List UInt8) (limit : Nat) :
    ∃ r, m.fillBuffer heap buffer limit = some r ∧
      (m.getBufferSize ≤ limit → r.2 = m.getBufferSize) := by
  have hsize : (m.value bytes).getBufferSize = m.getBufferSize := by
    show bytes.length + _ = m.dataSize + _
    rw [hlen]
    rfl
  by_cases hlimit : m.getBufferSize > limit
  · exact ⟨_, if_pos hlimit, fun hle => absurd hlimit (Nat.not_lt.mpr hle)⟩
  · refine ⟨_, (if_neg hlimit).trans (congrArg _ h), fun hle => ?_⟩
    rw [← hsize]
    exact HaierMessage.fillBuffer_size _ _ (hsize ▸ hle)

theorem FrameObject.fillBuffer_of_read (h : heap.read f.data f.dataSize.toNat = some bytes)
    (buffer : List UInt8) (limit : Nat) :
    ∃ r, f.fillBuffer heap buffer limit = some r ∧
      (f.getBufferSize ≤ limit → r.2 = f.getBufferSize) := by
  by_cases hlimit : f.getBufferSize > limit
  · exact ⟨_, if_pos hlimit, fun hle => absurd hlimit (Nat.not_lt.mpr hle)⟩
  · exact ⟨_, (if_neg hlimit).trans (congrArg _ h), fun hle => HaierFrame.fillBuffer_size _ _ hle⟩

/-- Whoever can be serialised has a block, unless there is nothing in it. -/
theorem PayloadObject.data_of_fillBuffer {o : PayloadObject}
    (h : ∃ r, o.fillBuffer heap [] o.getBufferSize = some r) (hsize : o.dataSize ≠ 0) :
    o.data ≠ none := by
  intro hnull
  obtain ⟨r, hr⟩ := h
  cases o with
  | message m =>
    have hread : heap.read m.data m.dataSize = none := by
      rw [show m.data = none from hnull]
      exact heap.read_eq_none hsize
    have hnone : m.fillBuffer heap [] m.getBufferSize = none :=
      (if_neg (Nat.lt_irrefl _)).trans (congrArg _ hread)
    rw [fillBuffer, getBufferSize, hnone] at hr
    cases hr
  | frame f =>
    have hread : heap.read f.data f.dataSize.toNat = none := by
      rw [show f.data = none from hnull]
      exact heap.read_eq_none hsize
    have hnone : f.fillBuffer heap [] f.getBufferSize = none :=
      (if_neg (Nat.lt_irrefl _)).trans (congrArg _ hread)
    rw [fillBuffer, getBufferSize, hnone] at hr
    cases hr

end Values

/-! ## New payloads -/

namespace HaierFrame

variable (frameType : UInt8) (data : List UInt8) (dataSize : UInt8) (useCrc : Bool)

theorem dataSize_construct : (construct frameType data dataSize useCrc).dataSize = dataSize := by
  rw [construct]
  simp only [foldl_accumulate_header, foldl_accumulate_data]
  split
  · rw [foldl_accumulate, foldl_accumulate]
  · rw [foldl_accumulate]

theorem data_construct : (construct frameType data dataSize useCrc).data =
    if dataSize > 0 then some (data.take dataSize.toNat) else none := by
  rw [construct]
  simp only [foldl_accumulate_header, foldl_accumulate_data]
  rw [foldl_accumulate]
  by_cases hpos : dataSize > 0
  · simp only [hpos, if_true]
    rw [foldl_accumulate]
  · simp only [hpos, if_false]

end HaierFrame

/-- An object with data has a block, and a frame with a block is complete. -/
structure Sane (o : PayloadObject) : Prop where
  filled : o.dataSize ≠ 0 → o.data ≠ none
  complete : o.data ≠ none → o.isComplete = true

theorem Sane.of_empty {o : PayloadObject} (hdata : o.data = none) (hsize : o.dataSize = 0) :
    Sane o := ⟨fun hne => absurd hsize hne, fun hne => absurd hdata hne⟩

/-- An object and the heap after it has been made: it has no data, or a new block of them. -/
inductive Fresh (heap : PayloadHeap) : PayloadObject → PayloadHeap → Prop where
  | empty (o : PayloadObject) (data : o.data = none) (size : o.dataSize = 0) : Fresh heap o heap
  | filled (o : PayloadObject) (block : List UInt8) (data : o.data = some heap.next)
      (length : block.length = o.dataSize) (complete : o.isComplete = true) :
      Fresh heap o (heap.alloc block)

namespace MessageObject

variable (heap : PayloadHeap)

theorem fresh_construct (frameType : FrameType) (subcommand : UInt16) (dataSize : Nat)
    (data : Option (Vector UInt8 dataSize)) :
    let r := construct heap frameType subcommand dataSize data
    Fresh heap (.message r.1) r.2 := by
  cases data with
  | none => exact .empty _ rfl rfl
  | some bytes =>
    by_cases hsize : dataSize ≠ 0
    · rw [construct, if_pos hsize]
      exact .filled _ _ rfl bytes.length_toList rfl
    · rw [construct, if_neg hsize]
      exact .empty _ rfl rfl

variable {heap}

theorem copy_of_read {m : MessageObject} {bytes : List UInt8}
    (h : heap.read m.data m.dataSize = some bytes) :
    m.copy heap = some ({ m with data := some heap.next }, heap.alloc bytes) := by
  rw [copy, h]
  rfl

end MessageObject

/-! ## One frame -/

/-- The body behind an admitted header is accepted in the same call. -/
def BodyFits (buffer : List UInt8) : Prop :=
  let header := HaierFrame.between (buffer.take frameHeaderSize)
  header.bodySize ≤ buffer.length - frameHeaderSize ∧ header.CrcFits buffer ∧
    header.SumFits (buffer.drop frameHeaderSize) buffer

/-- The buffer starts with a header that is admitted and announces data, and no body that is
accepted follows. -/
structure OnlyHeader (buffer : List UInt8) : Prop where
  long : frameHeaderSize ≤ buffer.length
  admitted : HaierFrame.Admitted buffer
  announces : HaierFrame.payloadSize buffer ≠ 0
  refused : ¬BodyFits buffer

theorem HaierFrame.Admitted.take {buffer : List UInt8} (h : HaierFrame.Admitted buffer) :
    HaierFrame.Admitted (buffer.take frameHeaderSize) ∧
      HaierFrame.payloadSize (buffer.take frameHeaderSize) = HaierFrame.payloadSize buffer := by
  have hsize : (buffer.take frameHeaderSize).getD 2 0 = buffer.getD 2 0 := by
    rw [List.getD_eq_getElem?_getD, List.getElem?_take, if_pos (by decide),
      ← List.getD_eq_getElem?_getD]
  refine ⟨⟨?_, by rw [hsize]; exact h.large, by rw [hsize]; exact h.small⟩, ?_⟩
  · rw [List.take_take]
    exact h.separators
  · rw [HaierFrame.payloadSize, hsize, HaierFrame.payloadSize]

namespace FrameObject

variable {heap : PayloadHeap} {f : FrameObject}

theorem fresh_construct (heap : PayloadHeap) (frameType dataSize : UInt8)
    (data : Vector UInt8 dataSize.toNat) (useCrc : Bool) :
    let r := construct heap frameType dataSize data useCrc
    Fresh heap (.frame r.1) r.2 := by
  have hstatus := HaierFrame.status_construct frameType data.toList dataSize useCrc
  have hsize := HaierFrame.dataSize_construct frameType data.toList dataSize useCrc
  have hdata := HaierFrame.data_construct frameType data.toList dataSize useCrc
  rw [construct]
  by_cases hpos : dataSize > 0
  · rw [if_pos hpos] at hdata
    rw [hdata]
    refine .filled _ _ rfl ?_ (beq_iff_eq.mpr hstatus)
    show _ = (HaierFrame.construct frameType data.toList dataSize useCrc).dataSize.toNat
    rw [hsize, List.length_take, data.length_toList, Nat.min_self]
  · rw [if_neg hpos] at hdata
    rw [hdata]
    refine .empty _ rfl ?_
    show (HaierFrame.construct frameType data.toList dataSize useCrc).dataSize.toNat = 0
    rw [hsize]
    exact Nat.le_zero.mp (Nat.not_lt.mp (UInt8.lt_iff_toNat_lt.not.mp hpos))

theorem dataSize_eq_zero (hf : Sane (.frame f)) (hs : f.status ≠ .frameComplete) :
    f.data = none ∧ f.dataSize.toNat = 0 := by
  have hdata : f.data = none := by
    by_contra hdata
    have hcomplete := hf.complete hdata
    exact hs (beq_iff_eq.mp hcomplete)
  refine ⟨hdata, ?_⟩
  by_contra hsize
  exact hf.filled hsize hdata

/-- A complete frame is not parsed again. -/
theorem parseBuffer_complete (hs : f.status = .frameComplete) (buffer : List UInt8) :
    f.parseBuffer heap buffer = (f, heap) := by
  have hvalue : (f.value none).parseBuffer buffer = (f.value none, .unknownData, 0) := by
    rw [HaierFrame.parseBuffer, show (f.value none).status = _ from hs]
  rw [parseBuffer, hvalue]
  rfl

/-- The body at `lpos` is accepted for the header that `g` has. -/
def Accepts (g : HaierFrame) (buffer : List UInt8) (lpos : Nat) : Prop :=
  g.bodySize ≤ buffer.length - lpos ∧ g.CrcFits buffer ∧ g.SumFits (buffer.drop lpos) buffer

variable {g : HaierFrame} {buffer : List UInt8} {lpos : Nat}

theorem settle_refused (heap : PayloadHeap) (hn : g.dataSize.toNat ≤ 233)
    (h : ¬Accepts g buffer lpos) :
    ∃ g', settle heap none (g.parseBody buffer lpos).1 (g.parseBody buffer lpos).2 =
        (ofFrame g' none, heap) ∧ g'.dataSize = g.dataSize := by
  rw [HaierFrame.parseBody_eq hn]
  by_cases hshort : buffer.length - lpos < g.bodySize
  · rw [if_pos hshort]
    exact ⟨g, rfl, rfl⟩
  · rw [if_neg hshort]
    by_cases hcrc : g.CrcFits buffer
    · rw [if_neg (not_not.mpr hcrc)]
      by_cases hsum : g.SumFits (buffer.drop lpos) buffer
      · exact absurd ⟨Nat.not_lt.mp hshort, hcrc, hsum⟩ h
      · rw [if_pos hsum]
        exact ⟨g.withMarks buffer, rfl, rfl⟩
    · rw [if_pos hcrc]
      exact ⟨g.withMarks buffer, rfl, rfl⟩

theorem settle_accepted (heap : PayloadHeap) (hn : g.dataSize.toNat ≤ 233)
    (h : Accepts g buffer lpos) :
    ∃ g', g'.status = .frameComplete ∧ g'.dataSize = g.dataSize ∧
      settle heap none (g.parseBody buffer lpos).1 (g.parseBody buffer lpos).2 =
        if g.dataSize ≠ 0 then (ofFrame g' (some heap.next),
          heap.alloc ((buffer.drop lpos).take g.dataSize.toNat))
        else (ofFrame g' none, heap) := by
  obtain ⟨hlong, hcrc, hsum⟩ := h
  refine ⟨g.complete (buffer.drop lpos) buffer, rfl, rfl, ?_⟩
  rw [HaierFrame.parseBody_eq hn, if_neg (Nat.not_lt.mpr hlong), if_neg (not_not.mpr hcrc),
    if_neg (not_not.mpr hsum)]
  by_cases hsize : g.dataSize ≠ 0
  · have hdata : (g.complete (buffer.drop lpos) buffer).data =
        some ((buffer.drop lpos).take g.dataSize.toNat) := if_pos hsize
    rw [if_pos hsize, settle, if_pos rfl, hdata]
  · have hdata : (g.complete (buffer.drop lpos) buffer).data = none := if_neg hsize
    rw [if_neg hsize, settle, if_pos rfl, hdata]

/-- What the attempt makes of a body that is accepted, or of one without data. -/
theorem fresh_settle (hn : g.dataSize.toNat ≤ 233)
    (h : Accepts g buffer lpos ∨ g.dataSize.toNat = 0) :
    let r := settle heap none (g.parseBody buffer lpos).1 (g.parseBody buffer lpos).2
    Fresh heap (.frame r.1) r.2 := by
  by_cases haccepts : Accepts g buffer lpos
  · obtain ⟨g', hstatus, hsize', hsettle⟩ := settle_accepted heap hn haccepts
    rw [hsettle]
    by_cases hsize : g.dataSize ≠ 0
    · rw [if_pos hsize]
      refine .filled _ _ rfl ?_ (beq_iff_eq.mpr hstatus)
      have hbody : g.dataSize.toNat < g.bodySize := by
        rw [HaierFrame.bodySize]
        split <;> omega
      have hlong := haccepts.1
      show _ = g'.dataSize.toNat
      rw [hsize', List.length_take, List.length_drop]
      omega
    · rw [if_neg hsize]
      refine .empty _ rfl ?_
      show g'.dataSize.toNat = 0
      rw [hsize', not_not.mp hsize]
      rfl
  · obtain ⟨g', hsettle, hsize'⟩ := settle_refused heap hn haccepts
    rw [hsettle]
    refine .empty _ rfl ?_
    show g'.dataSize.toNat = 0
    rw [hsize']
    exact h.resolve_left haccepts

/-- The block for a header that is admitted. -/
theorem parseHeader_admitted {v : HaierFrame} (hdata : v.data = none)
    (hlong : frameHeaderSize ≤ buffer.length) (h : HaierFrame.Admitted buffer) :
    v.parseHeader buffer = (HaierFrame.between (buffer.take frameHeaderSize),
      if buffer.drop 10 = [] then some .headerOnly else none, 10) := by
  have hrange : ¬(buffer.getD 2 0 < 8 ∨ buffer.getD 2 0 > 0xF1) := by
    rw [not_or, UInt8.not_lt, gt_iff_lt, UInt8.not_lt]
    exact ⟨UInt8.le_iff_toNat_le.mpr h.large, UInt8.le_iff_toNat_le.mpr h.small⟩
  have hdrop : (buffer.take frameHeaderSize).drop 2 = (buffer.drop 2).take 8 := List.drop_take ..
  rw [HaierFrame.parseHeader_inRange v hlong h.separators hrange, HaierFrame.between, hdrop, hdata]
  rfl

/-- The block for a header that is not. -/
theorem parseHeader_refused (v : HaierFrame)
    (h : ¬(frameHeaderSize ≤ buffer.length ∧ HaierFrame.Admitted buffer)) :
    ∃ g err lpos, v.parseHeader buffer = (g, some err, lpos) ∧ g.dataSize = v.dataSize ∧
      err ≠ .completeFrame := by
  by_cases hread : frameHeaderSize ≤ buffer.length ∧ buffer.take 2 = [0xFF, 0xFF]
  · have hrange : buffer.getD 2 0 < 8 ∨ buffer.getD 2 0 > 0xF1 := by
      by_contra hrange
      rw [not_or, UInt8.not_lt, gt_iff_lt, UInt8.not_lt] at hrange
      exact h ⟨hread.1, hread.2, UInt8.le_iff_toNat_le.mp hrange.1,
        UInt8.le_iff_toNat_le.mp hrange.2⟩
    refine ⟨_, _, _, HaierFrame.parseHeader_outOfRange v hread.1 hread.2 hrange, rfl, ?_⟩
    split <;> exact FrameError.noConfusion
  · refine ⟨_, _, _, HaierFrame.parseHeader_unread v hread, rfl, ?_⟩
    split <;> exact FrameError.noConfusion

theorem parseBuffer_eq {r : HaierFrame × FrameError × Nat}
    (h : (f.value none).parseBuffer buffer = r) :
    f.parseBuffer heap buffer = settle heap f.data r.1 r.2.1 := by
  rw [parseBuffer, h]

/-- An empty frame with an admitted header goes on to the body, if anything follows. -/
theorem parseBuffer_admitted (hs : f.status = .frameEmpty) (hdata : f.data = none)
    (hlong : frameHeaderSize ≤ buffer.length) (h : HaierFrame.Admitted buffer) :
    f.parseBuffer heap buffer =
      let g := HaierFrame.between (buffer.take frameHeaderSize)
      if buffer.drop 10 = [] then (ofFrame g none, heap)
      else settle heap none (g.parseBody buffer 10).1 (g.parseBody buffer 10).2 := by
  have hparse := parseHeader_admitted (v := f.value none) rfl hlong h
  by_cases hrest : buffer.drop 10 = []
  · rw [if_pos hrest] at hparse
    rw [parseBuffer_eq (HaierFrame.parseBuffer_of_some hs hparse), hdata]
    exact (if_pos hrest).symm
  · rw [if_neg hrest] at hparse
    rw [parseBuffer_eq (HaierFrame.parseBuffer_of_none hs hparse), hdata]
    exact (if_neg hrest).symm

/-- There is no body where nothing follows the header. -/
theorem not_bodyFits (hrest : buffer.drop 10 = []) : ¬BodyFits buffer := by
  rintro ⟨hlong, -⟩
  have hsize : 0 < (HaierFrame.between (buffer.take frameHeaderSize)).bodySize := by
    rw [HaierFrame.bodySize]
    split <;> omega
  have hlen := List.drop_eq_nil_iff.mp hrest
  rw [frameHeaderSize] at hlong hsize
  omega

/-- A frame that is not complete has a new payload after `parse_buffer`, unless it stays with the
header of a body. -/
theorem fresh_parseBuffer (hf : Sane (.frame f)) (hs : f.status ≠ .frameComplete)
    (h : ¬(f.status = .frameEmpty ∧ OnlyHeader buffer)) :
    Fresh heap (.frame (f.parseBuffer heap buffer).1) (f.parseBuffer heap buffer).2 := by
  obtain ⟨hdata, hzero⟩ := dataSize_eq_zero hf hs
  cases hstatus : f.status with
  | frameComplete => exact absurd hstatus hs
  | frameHeaderOnly =>
    have hparse : (f.value none).parseBuffer buffer = (((f.value none).parseBody buffer 0).1,
        ((f.value none).parseBody buffer 0).2, 0) := by
      rw [HaierFrame.parseBuffer, show (f.value none).status = _ from hstatus]
    have hsize : (f.value none).dataSize.toNat = 0 := hzero
    rw [parseBuffer_eq hparse, hdata]
    exact fresh_settle (by omega) (Or.inr hsize)
  | frameEmpty =>
    by_cases hheader : frameHeaderSize ≤ buffer.length ∧ HaierFrame.Admitted buffer
    · obtain ⟨hlong, hadmitted⟩ := hheader
      obtain ⟨htake, hpayload⟩ := hadmitted.take
      have hsize := HaierFrame.between_dataSize htake
      have hbody : BodyFits buffer ∨ HaierFrame.payloadSize buffer = 0 := by
        by_contra hnone
        rw [not_or] at hnone
        exact h ⟨hstatus, hlong, hadmitted, hnone.2, hnone.1⟩
      rw [parseBuffer_admitted hstatus hdata hlong hadmitted]
      by_cases hrest : buffer.drop 10 = []
      · rw [if_pos hrest]
        refine .empty _ rfl ?_
        exact hsize.trans (hpayload.trans (hbody.resolve_left (not_bodyFits hrest)))
      · rw [if_neg hrest]
        refine fresh_settle ?_ ?_
        · exact hsize.trans_le (HaierFrame.payloadSize_le htake)
        · exact hbody.imp id fun hnone => hsize.trans (hpayload.trans hnone)
    · obtain ⟨g, err, lpos, hparse, hsize, herr⟩ := parseHeader_refused (f.value none) hheader
      rw [parseBuffer_eq (HaierFrame.parseBuffer_of_some hstatus hparse), settle, if_neg herr]
      refine .empty _ hdata ?_
      show g.dataSize.toNat = 0
      rw [hsize]
      exact hzero

/-- Where it stays with the header, the frame has a data size and no data. -/
theorem parseBuffer_left (heap : PayloadHeap) (hf : Sane (.frame f)) (hs : f.status = .frameEmpty)
    (h : OnlyHeader buffer) :
    (f.parseBuffer heap buffer).1.data = none ∧
      (f.parseBuffer heap buffer).1.dataSize.toNat ≠ 0 := by
  have hempty := dataSize_eq_zero hf (by rw [hs]; exact FrameStatus.noConfusion)
  obtain ⟨htake, hpayload⟩ := h.admitted.take
  have hsize := (HaierFrame.between_dataSize htake).trans hpayload
  rw [parseBuffer_admitted hs hempty.1 h.long h.admitted]
  by_cases hrest : buffer.drop 10 = []
  · rw [if_pos hrest]
    exact ⟨rfl, fun hzero => h.announces (hsize.symm.trans hzero)⟩
  · have hn := hsize.trans_le (hpayload ▸ HaierFrame.payloadSize_le htake)
    obtain ⟨g', hsettle, hsize'⟩ :=
      settle_refused heap hn (show ¬Accepts _ buffer 10 from h.refused)
    rw [if_neg hrest, hsettle]
    refine ⟨rfl, fun hzero => h.announces ?_⟩
    rw [← hsize, ← hsize']
    exact hzero

end FrameObject

end HaierProtocol
