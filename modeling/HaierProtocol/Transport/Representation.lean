import HaierProtocol.Transport.Checked

/-!
# The representation of the receive state

What `pos_`, `sep_count_`, `frame_start_found_` and `current_frame_` say about the bytes in the
ring buffer.  `process_data`, `reset_protocol` and the calls that take frames out of the queue keep
it.  `read_data` does not: on overflow it gives up the oldest bytes, and while no frame has been
found it leaves `pos_` where it was.  `KeepsMarks` is when this does no harm.
-/

namespace HaierProtocol

namespace TransportLevelHandler

structure WellFormed (h : TransportLevelHandler) : Prop where
  pos_le : h.pos ≤ h.buffer.getSize
  /-- All that has been looked at are separators. -/
  seeking : h.frameStartFound = false →
    h.currentFrame.status = .frameEmpty ∧ h.sepCount = 0 ∧ h.pos ≤ 2 ∧
      ∀ i < h.pos, h.buffer.get i = separatorByte
  /-- The buffer starts with the beginning of a frame. -/
  header : h.frameStartFound = true → h.currentFrame.status = .frameEmpty →
    h.buffer.get 0 = separatorByte ∧ h.buffer.get 1 = separatorByte ∧
      h.buffer.get 2 ≠ separatorByte ∧ 3 ≤ h.pos ∧
      h.sepCount = ((h.buffer.contents.take h.pos).drop 3).count separatorByte
  body : h.currentFrame.status = .frameHeaderOnly →
    h.frameStartFound = true ∧ h.sepCount = (h.buffer.contents.take h.pos).count separatorByte

/-- How many bytes `read_data` gives up. -/
def excess (h : TransportLevelHandler) (input : List UInt8) : Nat :=
  min input.length h.buffer.capacity - h.buffer.getSpace

/-- Bytes given up in the middle of a search leave as many separators in front. -/
def KeepsMarks (h : TransportLevelHandler) (input : List UInt8) : Prop :=
  h.frameStartFound = false → 0 < h.excess input → ∀ i < h.pos,
    ((h.buffer.contents ++ input.take h.buffer.capacity).drop (h.excess input))[i]? =
      some separatorByte

end TransportLevelHandler

open TransportLevelHandler

namespace Receiver

/-- What stands before the position looked at. -/
structure Marked (r : Receiver) : Prop where
  seeking : r.found = false → ∀ i < r.pos, r.byteAt i = 0xFF
  header : r.found = true → r.frame = .empty → r.byteAt 0 = 0xFF ∧ r.byteAt 1 = 0xFF

namespace Marked

variable {r r' : Receiver}

theorem of_reset (hfound : r.found = false) (hpos : r.pos = 0) : Marked r := by
  refine ⟨fun _ i hi => ?_, fun hf => ?_⟩
  · omega
  · rw [hfound] at hf
    cases hf

theorem of_body (hfound : r.found = true) (hstatus : r.frame.status = .frameHeaderOnly) :
    Marked r := by
  refine ⟨fun hf => ?_, fun _ hframe => ?_⟩
  · rw [hfound] at hf
    cases hf
  · rw [hframe] at hstatus
    cases hstatus

theorem seekMove (h : Marked r) (hinv : r.Inv) (hfound : r.found = false) (hm : r.SeekMove r') :
    Marked r' := by
  have hmarks := h.seeking hfound
  have hpos := (hinv.of_seeking hfound).2.2
  cases hm with
  | mark hbyte =>
    refine ⟨fun _ i hi => ?_, fun hf => ?_⟩
    · have hlt : i < r.pos + 1 - (r.pos + 1 - 2) := hi
      show r.stream.getD (r.front + (r.pos + 1 - 2) + i) 0 = 0xFF
      rw [Nat.add_assoc]
      by_cases hlast : r.pos + 1 - 2 + i = r.pos
      · rw [hlast]
        exact hbyte
      · exact hmarks (r.pos + 1 - 2 + i) (by omega)
    · exact absurd (hf.symm.trans hfound) (by decide)
  | start hbyte htwo =>
    refine ⟨fun hf => Bool.noConfusion hf, fun _ _ => ⟨?_, ?_⟩⟩
    · exact hmarks 0 (by omega)
    · exact hmarks 1 (by omega)
  | garbage => exact of_reset hfound rfl

theorem headerMove (h : Marked r) (hfound : r.found = true) (hframe : r.frame = .empty)
    (hm : r.HeaderMove r') : Marked r' := by
  cases hm with
  | byte =>
    refine ⟨fun hf => ?_, fun _ _ => h.header hfound hframe⟩
    exact absurd (hf.symm.trans hfound) (by decide)
  | escape => exact of_reset rfl rfl
  | reject => exact of_reset rfl rfl
  | accept _ _ herr =>
    obtain ⟨_, _, _, _, _, hof⟩ := HaierFrame.parseBuffer_headerOnly herr
    refine of_body hfound ?_
    rw [hof]
    rfl

theorem bodyMove (hfound : r.found = true) (hstatus : r.frame.status = .frameHeaderOnly)
    (hm : r.BodyMove r') : Marked r' := by
  cases hm with
  | byte => exact of_body hfound hstatus
  | escape => exact of_reset rfl rfl
  | reject => exact of_reset rfl rfl
  | accept => exact of_reset rfl rfl

theorem move (h : Marked r) (hinv : r.Inv) (hm : r.Move r') : Marked r' := by
  cases hm with
  | seeking hfound hm => exact h.seekMove hinv hfound hm
  | header hfound hframe hm => exact h.headerMove hfound hframe hm
  | body hfound hstatus hm => exact bodyMove hfound hstatus hm

theorem settle (h : Marked r) (hinv : r.Inv) : Marked r.settle :=
  settle_moves (fun hi _ hm hp => hp.move hi hm) hinv h

theorem push (h : Marked r) (hinv : r.Inv) (bytes : List UInt8) : Marked (r.push bytes) := by
  have hcursor := hinv.cursor_le
  refine ⟨fun hfound i hi => ?_, fun hfound hframe => ?_⟩
  · have hlt : i < r.pos := hi
    rw [byteAt_push bytes (by omega)]
    exact h.seeking hfound i hi
  · obtain ⟨hpos, _⟩ := hinv.of_header hfound hframe
    rw [byteAt_push bytes (by omega), byteAt_push bytes (by omega)]
    exact h.header hfound hframe

end Marked
end Receiver

/-! ## Handlers -/

section

variable {h : TransportLevelHandler} {r : Receiver}

/-- What a handler has buffered is what its receiver holds. -/
theorem Tracks.contents_take (ht : Tracks h 0 r) (n : Nat) :
    h.buffer.contents.take n = r.window n := by
  have hcontents := ht.contents
  rw [List.drop_zero] at hcontents
  rw [hcontents]
  rfl

theorem Tracks.get (ht : Tracks h 0 r) {i : Nat} (hi : i < r.held) :
    h.buffer.get i = r.byteAt i := by
  have hget := ht.get_eq hi
  rwa [Nat.zero_add] at hget

theorem Tracks.pos_le_held (ht : Tracks h 0 r) (hinv : r.Inv) : h.pos = r.pos ∧ r.pos ≤ r.held := by
  have hpos := ht.pos
  have hcursor := hinv.cursor_le
  unfold Receiver.held
  omega

/-- The code's invariant is the receiver's, with the marks. -/
theorem wellFormed_iff (ht : Tracks h 0 r) (hinv : r.Inv) : h.WellFormed ↔ r.Marked := by
  obtain ⟨hpos, hheld⟩ := ht.pos_le_held hinv
  have hsize := ht.getSize_sub
  have hfound := ht.found
  have hframe := ht.frame
  have hsep := ht.sepCount
  constructor
  · intro hw
    refine ⟨fun hf i hi => ?_, fun hf he => ?_⟩
    · rw [← ht.get (by omega)]
      exact (hw.seeking (hfound.trans hf)).2.2.2 i (by omega)
    · obtain ⟨hthree, _⟩ := hinv.of_header hf he
      obtain ⟨hfirst, hsecond, _⟩ := hw.header (hfound.trans hf) (by rw [hframe, he]; rfl)
      rw [← ht.get (by omega), ← ht.get (by omega)]
      exact ⟨hfirst, hsecond⟩
  · intro hm
    refine ⟨by omega, ?_, ?_, ?_⟩
    · intro hf
      rw [hfound] at hf
      obtain ⟨hempty, hzero, htwo⟩ := hinv.of_seeking hf
      refine ⟨by rw [hframe, hempty]; rfl, hsep.trans hzero, by omega, ?_⟩
      intro i hi
      rw [ht.get (by omega)]
      exact hm.seeking hf i (by omega)
    · intro hf hstatus
      rw [hfound] at hf
      rw [hframe] at hstatus
      rw [hpos, hsep, ht.contents_take]
      cases hinv.mode with
      | seeking hno => exact absurd (hf.symm.trans hno) (by decide)
      | header _ he hthree hlen hcount =>
        obtain ⟨hfirst, hsecond⟩ := hm.header hf he
        rw [ht.get (by omega), ht.get (by omega), ht.get (by omega)]
        exact ⟨hfirst, hsecond, hlen, hthree, hcount⟩
      | body _ hno => exact absurd (hstatus.symm.trans hno) (by decide)
    · intro hstatus
      rw [hframe] at hstatus
      rw [hpos, hsep, hfound, ht.contents_take]
      cases hinv.mode with
      | seeking _ he =>
        rw [he] at hstatus
        cases hstatus
      | header _ he =>
        rw [he] at hstatus
        cases hstatus
      | body hf _ hcount => exact ⟨hf, hcount⟩

/-- The receiver after `read_data` is marked exactly if the marks are kept. -/
theorem marked_receive_iff (ht : Tracks h 0 r) (hinv : r.Inv) (hm : r.Marked)
    (input : List UInt8) :
    (r.receive h.buffer.capacity input).Marked ↔ h.KeepsMarks input := by
  obtain ⟨hpos, hheld⟩ := ht.pos_le_held hinv
  have hsize := ht.getSize_sub
  have hle := h.buffer.getSize_le
  have hcursor := hinv.cursor_le
  have hcontents := ht.contents
  have hexcess : h.excess input =
      min input.length h.buffer.capacity - (h.buffer.capacity - r.held) := by
    rw [excess, Members.getSpace]
    omega
  rw [List.drop_zero] at hcontents
  rw [KeepsMarks, Receiver.receive, ← hexcess, ht.found, hpos, hcontents]
  by_cases hover : h.excess input > 0
  · rw [if_pos hover]
    cases hfound : r.found with
    | true =>
      have hreset : (r.skip (h.excess input)).reset.Marked := .of_reset rfl rfl
      have hfront : (r.skip (h.excess input)).front ≤ r.stream.length := by
        unfold Receiver.held at hheld hexcess hsize
        show r.front + h.excess input ≤ r.stream.length
        omega
      rw [if_pos rfl]
      exact ⟨fun _ hf => Bool.noConfusion hf,
        fun _ => hreset.push (Receiver.inv_reset hfront) _⟩
    | false =>
      -- The bytes that come to stand in front, old or new.
      have hbyte : ∀ i < r.pos, ((r.skip (h.excess input)).push
          (input.take (min input.length h.buffer.capacity))).byteAt i = 0xFF ↔
          ((r.stream.drop r.front ++ input.take h.buffer.capacity).drop (h.excess input))[i]? =
            some separatorByte := by
        intro i hi
        have htake : input.take (min input.length h.buffer.capacity) =
            input.take h.buffer.capacity := List.take_eq_take_iff.mpr (by omega)
        have hsplit : (r.stream.drop r.front ++ input.take h.buffer.capacity).drop
            (h.excess input) = (r.stream ++ input.take h.buffer.capacity).drop
              (r.front + h.excess input) := by
          rw [← List.drop_append_of_le_length (by omega), List.drop_drop]
        have hlt : r.front + h.excess input + i <
            (r.stream ++ input.take h.buffer.capacity).length := by
          unfold Receiver.held at hheld hexcess hsize
          rw [List.length_append, List.length_take]
          omega
        rw [htake, hsplit, List.getElem?_drop, List.getElem?_eq_getElem hlt, Option.some_inj]
        show (r.stream ++ input.take h.buffer.capacity).getD _ 0 = 0xFF ↔ _
        rw [List.getD_eq_getElem?_getD]
        show ((r.stream ++ input.take h.buffer.capacity)[r.front + h.excess input + i]?).getD 0 =
          0xFF ↔ _
        rw [List.getElem?_eq_getElem hlt]
        rfl
      rw [if_neg Bool.false_ne_true]
      constructor
      · exact fun hmarked _ _ i hi => (hbyte i hi).mp (hmarked.seeking hfound i hi)
      · intro hkeep
        refine ⟨fun _ i hi => (hbyte i hi).mpr (hkeep rfl hover i hi), fun hf => ?_⟩
        exact absurd (hf.symm.trans hfound) (by decide)
  · rw [if_neg hover]
    exact ⟨fun _ _ hpos => absurd hpos hover, fun _ => hm.push hinv _⟩

end

/-! ## Histories -/

namespace History

variable {s : History} {r : Receiver}

theorem wellFormed_readData_iff (hmatch : Matches s r) (h : s.handler.WellFormed) :
    (s.after .readData).handler.WellFormed ↔ s.handler.KeepsMarks s.input := by
  have hread := hmatch.readData
  have hmarked := (wellFormed_iff hmatch.tracks hmatch.inv).mp h
  rw [wellFormed_iff hread.tracks hread.inv]
  exact marked_receive_iff hmatch.tracks hmatch.inv hmarked s.input

/-- All other calls keep the invariant. -/
theorem wellFormed_after (hmatch : Matches s r) (h : s.handler.WellFormed) {call : Call}
    (hcall : call ≠ .readData) : (s.after call).handler.WellFormed := by
  have hmarked := (wellFormed_iff hmatch.tracks hmatch.inv).mp h
  have htake : ∀ framesCount, (s.after (.drop framesCount)).handler.WellFormed := by
    intro framesCount
    have hdrop := hmatch.drop framesCount
    exact (wellFormed_iff hdrop.tracks hdrop.inv).mpr ⟨hmarked.seeking, hmarked.header⟩
  cases call with
  | arrive bytes => exact h
  | readData => exact absurd rfl hcall
  | processData now =>
    have hnext := hmatch.processData now
    exact (wellFormed_iff hnext.tracks hnext.inv).mpr (hmarked.settle hmatch.inv)
  | resetProtocol =>
    have htracks := resetProtocol_tracks hmatch.tracks hmatch.inv
    exact (wellFormed_iff htracks (inv_resync hmatch.inv)).mpr (.of_reset rfl rfl)
  | pop =>
    rw [show s.after .pop = s.after (.drop 1) by rw [after, after, pop_eq_drop]]
    exact htake 1
  | drop framesCount => exact htake framesCount

/-- In every run, every state reached is well formed if and only if no `read_data` that overflows
in the middle of a search moves other bytes to where separators stood. -/
theorem wellFormed_run_iff (cells : Nat → UInt8) (bufferSize : Nat) (calls : List Call) :
    (∀ before after, calls = before ++ after →
        ((start cells bufferSize).run before).handler.WellFormed) ↔
      ∀ before after, calls = before ++ .readData :: after →
        ((start cells bufferSize).run before).handler.KeepsMarks
          ((start cells bufferSize).run before).input := by
  constructor
  · intro hall before after hcalls
    obtain ⟨r, hmatch⟩ := Matches.run before (Matches.start cells bufferSize)
    have hnext := hall (before ++ [.readData]) after (by rw [hcalls, List.append_cons])
    rw [run_append] at hnext
    exact (wellFormed_readData_iff hmatch (hall before _ hcalls)).mp hnext
  · intro hkeep before
    induction before using List.reverseRecOn with
    | nil =>
      intro _ _
      have hstart := Matches.start cells bufferSize
      exact (wellFormed_iff hstart.tracks hstart.inv).mpr (.of_reset rfl rfl)
    | append_singleton before call ih =>
      intro after hcalls
      rw [← List.append_cons] at hcalls
      have h := ih (call :: after) hcalls
      obtain ⟨r, hmatch⟩ := Matches.run before (Matches.start cells bufferSize)
      rw [run_append]
      by_cases hcall : call = .readData
      · subst hcall
        exact (wellFormed_readData_iff hmatch h).mpr (hkeep before after hcalls)
      · exact wellFormed_after hmatch h hcall

/-- The same with the checks, as long as too little is stored for them to fail. -/
theorem run_wellFormed_iff (cells : Nat → UInt8) (bufferSize : Nat) (calls : List Call)
    (hsmall : (start cells bufferSize).StoresLittle calls) :
    (∀ before after, calls = before ++ after →
        ∃ s, (start cells bufferSize).runChecked before = .ok s ∧ s.handler.WellFormed) ↔
      ∀ before after, calls = before ++ .readData :: after →
        ∃ s, (start cells bufferSize).runChecked before = .ok s ∧
          s.handler.KeepsMarks s.input := by
  have hreach : ∀ before after, calls = before ++ after →
      (start cells bufferSize).StoresLittle before := by
    rintro before after rfl
    exact hsmall.of_append
  have hiff := wellFormed_run_iff cells bufferSize calls
  constructor
  · intro hall before after hcalls
    refine ((hreach before _ hcalls).exists_iff _).mpr (hiff.mp ?_ before after hcalls)
    exact fun before after hcalls =>
      ((hreach before _ hcalls).exists_iff _).mp (hall before after hcalls)
  · intro hkeep before after hcalls
    refine ((hreach before _ hcalls).exists_iff _).mpr (hiff.mpr ?_ before after hcalls)
    exact fun before after hcalls =>
      ((hreach before _ hcalls).exists_iff _).mp (hkeep before after hcalls)

/-- Two separators are looked at, and then as many bytes arrive as the buffer holds. -/
def overrun : List Call :=
  [.arrive [0xFF, 0xFF], .readData, .processData 0, .arrive (List.replicate 128 0), .readData]

theorem run_wellFormed_iff_overrun :
    (∀ before after, overrun = before ++ after →
        ∃ s, (start (fun _ => 0) 128).runChecked before = .ok s ∧ s.handler.WellFormed) ↔
      ∀ before after, overrun = before ++ .readData :: after →
        ∃ s, (start (fun _ => 0) 128).runChecked before = .ok s ∧ s.handler.KeepsMarks s.input :=
  run_wellFormed_iff (fun _ => 0) 128 overrun (storesLittle_of_lt _ (by decide) overrun)

/-- The search goes on as if the first two of them were separators. -/
theorem overrun_not_wellFormed :
    ∃ s, (start (fun _ => 0) 128).runChecked overrun = .ok s ∧ ¬ s.handler.WellFormed := by
  refine ⟨_, runChecked_ok (storesLittle_of_lt _ (by decide) overrun), ?_⟩
  intro h
  have hfound : ((start (fun _ => 0) 128).run overrun).handler.frameStartFound = false := by
    decide +kernel
  have hpos : 0 < ((start (fun _ => 0) 128).run overrun).handler.pos := by decide +kernel
  have hbyte : ((start (fun _ => 0) 128).run overrun).handler.buffer.get 0 ≠ separatorByte := by
    decide +kernel
  exact hbyte ((h.seeking hfound).2.2.2 0 hpos)

end History
end HaierProtocol
