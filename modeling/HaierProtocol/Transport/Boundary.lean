import HaierProtocol.Transport.Decoder

/-!
# Between two packets

A receiver that has looked at everything and is not inside a frame stands at a boundary.  There it
takes a packet whole, wherever it stands in the stream and whatever it has received before
(`settle_wire`), and ends at a boundary again.  What has been taken out of the queue makes no
difference to what is received later (`settle_take`).
-/

namespace HaierProtocol

namespace Receiver

open Stuffing (unstuff)

variable {r r' : Receiver}

/-- Nothing is held and no frame has been started. -/
structure AtBoundary (r : Receiver) : Prop where
  found : r.found = false
  front : r.front = r.stream.length

theorem atBoundary_fresh : AtBoundary fresh := ⟨rfl, rfl⟩

theorem AtBoundary.not_ready (h : AtBoundary r) : r.ready = false := by
  rw [ready, decide_eq_false_iff_not, h.front]
  omega

/-- The receiver after a packet that starts where the stream ends. -/
def withPacket (r : Receiver) (p : Packet) : Receiver :=
  (r.push p.wire).finish p r.stream.length

theorem atBoundary_withPacket (r : Receiver) (p : Packet) : AtBoundary (r.withPacket p) := by
  refine ⟨rfl, ?_⟩
  show r.stream.length + p.wire.length = (r.stream ++ p.wire).length
  rw [List.length_append]

/-- A packet that arrives at a boundary is received. -/
theorem AtBoundary.settle_wire (h : AtBoundary r) (hinv : r.Inv) (p : Packet) :
    (r.push p.wire).settle = r.withPacket p := by
  have hpush := inv_push p.wire hinv
  have hcar : ∀ s : Receiver, s.stream = r.stream ++ p.wire →
      s.stream.drop r.stream.length ++ [] = p.wire ++ [] := by
    intro s hs
    rw [hs, List.drop_left]
  obtain ⟨hstream, hend⟩ := settle_moves
    (P := fun s => s.stream = r.stream ++ p.wire ∧
      (Collecting p r.stream.length s ∧ s.log = r.log ∧ s.taken = r.taken ∨ s = r.withPacket p))
    (r := r.push p.wire) (fun {s s'} hi hr hm ⟨hstream, hs⟩ => by
      refine ⟨hm.stream_eq.trans hstream, ?_⟩
      rcases hs with ⟨hc, hlog, htaken⟩ | rfl
      · rcases hc.move hi hr hm (hcar s hstream) with ⟨hc', hlog'⟩ | rfl
        · exact .inl ⟨hc', hlog'.trans hlog, hm.taken_eq.trans htaken⟩
        · refine .inr ?_
          rw [withPacket, finish, finish, hlog]
          show Receiver.mk s.stream _ 0 0 false .empty _ s.taken = _
          rw [hstream, htaken]
          rfl
      · exact absurd hr (by rw [(atBoundary_withPacket r p).not_ready]; decide))
    hpush ⟨rfl, .inl ⟨.marks h.found h.front, rfl, rfl⟩⟩
  rcases hend with ⟨hc, _⟩ | hend
  · have hlt := hc.not_settled (inv_settle hpush) (settle_not_ready hpush) (hcar _ hstream)
    rw [hstream, List.length_append] at hlt
    omega
  · exact hend

/-! ## What has been taken out of the queue -/

/-- The receiver with another number of frames taken. -/
def withTaken (n : Nat) (r : Receiver) : Receiver := { r with taken := n }

theorem seek_withTaken (n : Nat) : (r.withTaken n).seek = r.seek.withTaken n := by
  rw [seek, seek]
  by_cases hb : r.byteAt r.pos = 0xFF
  · rw [if_pos hb, if_pos (show (r.withTaken n).byteAt (r.withTaken n).pos = 0xFF from hb)]
    rfl
  · rw [if_neg hb, if_neg (show ¬(r.withTaken n).byteAt (r.withTaken n).pos = 0xFF from hb)]
    by_cases hp : r.pos = 2
    · rw [if_pos hp, if_pos (show (r.withTaken n).pos = 2 from hp)]
      rfl
    · rw [if_neg hp, if_neg (show ¬(r.withTaken n).pos = 2 from hp)]
      rfl

theorem finishHeader_withTaken (n : Nat) :
    (r.withTaken n).finishHeader = r.finishHeader.withTaken n := by
  rw [finishHeader, finishHeader, show (r.withTaken n).seen = r.seen from rfl]
  cases unstuff 0xFF 0x55 false (r.seen.drop 3) with
  | none => rfl
  | some header =>
    rw [show (r.withTaken n).frame = r.frame from rfl]
    by_cases herr : (r.frame.parseBuffer (r.seen.take 3 ++ header)).2.1 = .headerOnly
    · simp only [herr, if_true]
      rfl
    · simp only [herr, if_false]
      rfl

theorem finishBody_withTaken (n : Nat) :
    (r.withTaken n).finishBody = r.finishBody.withTaken n := by
  rw [finishBody, finishBody, show (r.withTaken n).seen = r.seen from rfl]
  cases unstuff 0xFF 0x55 false r.seen with
  | none => rfl
  | some body =>
    rw [show (r.withTaken n).frame = r.frame from rfl]
    by_cases herr : (r.frame.parseBuffer body).2.1 = .completeFrame
    · simp only [herr, if_true]
      rfl
    · simp only [herr, if_false]
      rfl

theorem step_withTaken (n : Nat) : (r.withTaken n).step = r.step.withTaken n := by
  rw [step, step, seek_withTaken, finishHeader_withTaken, finishBody_withTaken,
    show (r.withTaken n).found = r.found from rfl, show (r.withTaken n).pos = r.pos from rfl,
    show (r.withTaken n).byteAt r.pos = r.byteAt r.pos from rfl,
    show (r.withTaken n).sepCount = r.sepCount from rfl,
    show (r.withTaken n).frame = r.frame from rfl]
  by_cases hf : r.found = false
  · rw [if_pos hf, if_pos hf]
  · rw [if_neg hf, if_neg hf]
    generalize (if r.byteAt r.pos = 0xFF then r.sepCount + 1 else r.sepCount) = sepCount
    cases r.frame.status with
    | frameComplete => rfl
    | frameHeaderOnly =>
      by_cases hlast : r.pos + 1 - sepCount = r.frame.bodySize
      · simp only [hlast, if_true]
      · simp only [hlast, if_false]
        rfl
    | frameEmpty =>
      by_cases hlast : r.pos + 1 - sepCount = 10
      · simp only [hlast, if_true]
      · simp only [hlast, if_false]
        rfl

/-- Settling does not depend on what has been taken. -/
theorem settle_withTaken (n : Nat) : (r.withTaken n).settle = r.settle.withTaken n :=
  (BoundedLoop.run_related (R := fun s s' : Receiver => s' = s.withTaken n)
    (fun _ _ h => h ▸ rfl) (fun _ _ _ h => h ▸ step_withTaken n)
    (measure (r.held + 1) r) r (r.withTaken n) rfl)

end Receiver
end HaierProtocol
