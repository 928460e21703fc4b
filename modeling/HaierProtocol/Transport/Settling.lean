import HaierProtocol.Transport.Receiver

/-!
# Settling

`settle` lets a receiver run until it has looked at every byte.  `settle_induction` carries a
property along the steps, and `settle_push` says that bytes which arrive after the receiver
has settled might as well have been there before: this is why the cuts between chunks of
input do not matter.
-/

namespace HaierProtocol
namespace Receiver

open Stuffing (unstuff accepted completed)

/-- The number of bytes held. -/
def held (r : Receiver) : Nat := r.stream.length - r.front

def settle (r : Receiver) : Receiver :=
  BoundedLoop.run ready step (measure (r.held + 1) r) r

/-- Bytes arrive. -/
def push (r : Receiver) (bytes : List UInt8) : Receiver := { r with stream := r.stream ++ bytes }

/-! ## Steps keep the stream -/

theorem Move.stream_eq {r r' : Receiver} (hm : r.Move r') : r'.stream = r.stream := by
  obtain ⟨_, hm⟩ | ⟨_, _, hm⟩ | ⟨_, _, hm⟩ := hm <;> cases hm <;> rfl

theorem Move.taken_eq {r r' : Receiver} (hm : r.Move r') : r'.taken = r.taken := by
  obtain ⟨_, hm⟩ | ⟨_, _, hm⟩ | ⟨_, _, hm⟩ := hm <;> cases hm <;> rfl

theorem Move.front_le {r r' : Receiver} (hm : r.Move r') : r.front ≤ r'.front := by
  obtain ⟨_, hm⟩ | ⟨_, _, hm⟩ | ⟨_, _, hm⟩ := hm <;> cases hm <;>
    first | exact Nat.le_add_right _ _ | exact Nat.le_refl _

/-! ## The loop -/

section Loop

variable {r : Receiver}

/-- What holds throughout a run in which the receiver never holds more than `n` bytes. -/
def Within (n : Nat) (r : Receiver) : Prop := r.Inv ∧ r.held ≤ n

theorem within_step {n : Nat} {r : Receiver} (hr : r.ready = true) (h : r.Within n) :
    r.step.Within n := by
  obtain ⟨hinv, hheld⟩ := h
  have hm := move_step hinv hr
  refine ⟨inv_move hinv hr hm, ?_⟩
  have hfront := hm.front_le
  unfold held at hheld ⊢
  rw [hm.stream_eq]
  omega

theorem measure_step {n : Nat} {r : Receiver} (hr : r.ready = true) (h : r.Within n) :
    measure (n + 1) r.step < measure (n + 1) r :=
  measure_move h.1 hr (move_step h.1 hr) (Nat.lt_succ_of_le h.2)

theorem measure_mono {m n : Nat} (h : m ≤ n) : measure m r ≤ measure n r :=
  Nat.add_le_add_right (Nat.mul_le_mul_left _ h) _

/-- Any sufficient number of rounds settles. -/
theorem run_eq_settle {n fuel : Nat} (h : r.Within n) (hfuel : measure (n + 1) r ≤ fuel) :
    BoundedLoop.run ready step fuel r = settle r :=
  BoundedLoop.run_fuel (fun _ hr hw => within_step hr hw)
    (fun _ hr hw => measure_step hr hw) fuel _ r
    (show r.Within r.held from ⟨h.1, Nat.le_refl _⟩)
    (Nat.le_trans (measure_mono (Nat.succ_le_succ h.2)) hfuel) (Nat.le_refl _)

theorem settle_not_ready (h : r.Inv) : r.settle.ready = false :=
  BoundedLoop.run_exit (fun _ hr hw => within_step hr hw) (fun _ hr hw => measure_step hr hw) _ r
    (show r.Within r.held from ⟨h, Nat.le_refl _⟩) (Nat.le_refl _)

theorem settle_of_not_ready (h : r.ready = false) : r.settle = r := BoundedLoop.run_done h _

theorem settle_step (h : r.Inv) (hr : r.ready = true) : r.step.settle = r.settle := by
  have hw : r.Within r.held := ⟨h, Nat.le_refl _⟩
  have hw' := within_step hr hw
  have hlt := measure_step hr hw
  obtain ⟨fuel, hfuel⟩ := Nat.exists_eq_add_of_lt hlt
  have hrest : BoundedLoop.run ready step (measure (r.held + 1) r.step + fuel) r.step =
    r.step.settle :=
    run_eq_settle hw' (Nat.le_add_right _ _)
  rw [← hrest, ← BoundedLoop.run_step hr]
  exact run_eq_settle hw (by omega)

/-- What every step keeps, settling keeps. -/
theorem settle_induction {P : Receiver → Prop}
    (hstep : ∀ {r : Receiver}, r.Inv → r.ready = true → P r → P r.step) (h : r.Inv) (hP : P r) :
    P r.settle := by
  have hrun := BoundedLoop.run_invariant (P := fun r => Inv r ∧ P r)
    (fun r hr hi => ⟨inv_step hi.1 hr, hstep hi.1 hr hi.2⟩) (measure (r.held + 1) r) r ⟨h, hP⟩
  exact hrun.2

/-- The same, over the moves. -/
theorem settle_moves {P : Receiver → Prop}
    (hmove : ∀ {r r' : Receiver}, r.Inv → r.ready = true → r.Move r' → P r → P r')
    (h : r.Inv) (hP : P r) : P r.settle :=
  settle_induction (fun hi hr hp => hmove hi hr (move_step hi hr) hp) h hP

theorem inv_settle (h : r.Inv) : r.settle.Inv :=
  settle_induction (fun hi hr _ => inv_step hi hr) h h

theorem settle_stream (h : r.Inv) : r.settle.stream = r.stream :=
  settle_moves (P := fun r' => r'.stream = r.stream)
    (fun _ _ hm hP => hm.stream_eq.trans hP) h rfl

theorem settle_taken (h : r.Inv) : r.settle.taken = r.taken :=
  settle_moves (P := fun r' => r'.taken = r.taken)
    (fun _ _ hm hP => hm.taken_eq.trans hP) h rfl

end Loop

theorem window_of_settled {r : Receiver} (hinv : r.Inv) (hr : r.ready = false) :
    r.window r.pos = r.stream.drop r.front := by
  have hcursor := hinv.cursor_le
  have hend := le_of_not_ready hr
  rw [window, List.take_of_length_le]
  rw [List.length_drop]
  omega

/-! ## Later bytes -/

section Push

variable {r : Receiver} (bytes : List UInt8)

theorem byteAt_push {i : Nat} (h : r.front + i < r.stream.length) :
    (r.push bytes).byteAt i = r.byteAt i := by
  rw [byteAt, byteAt, List.getD_eq_getElem?_getD, List.getD_eq_getElem?_getD]
  show ((r.stream ++ bytes)[r.front + i]?).getD 0 = _
  rw [List.getElem?_append_left h]

theorem window_push {n : Nat} (h : r.front + n ≤ r.stream.length) :
    (r.push bytes).window n = r.window n := by
  show ((r.stream ++ bytes).drop r.front).take n = _
  rw [window, List.drop_append_of_le_length (by omega), List.take_append_of_le_length]
  rw [List.length_drop]
  omega

theorem seen_push (hr : r.ready = true) : (r.push bytes).seen = r.seen :=
  window_push bytes (ready_iff.mp hr)

theorem ready_push (hr : r.ready = true) : (r.push bytes).ready = true := by
  rw [ready_iff] at hr ⊢
  show r.front + r.pos < (r.stream ++ bytes).length
  rw [List.length_append]
  omega

theorem seek_push (hr : r.ready = true) : (r.push bytes).seek = r.seek.push bytes := by
  have hbyte : (r.push bytes).byteAt (r.push bytes).pos = r.byteAt r.pos :=
    byteAt_push bytes (ready_iff.mp hr)
  have hpos : (r.push bytes).pos = r.pos := rfl
  rw [seek, seek, hbyte, hpos]
  by_cases hb : r.byteAt r.pos = 0xFF
  · rw [if_pos hb, if_pos hb]
    rfl
  · rw [if_neg hb, if_neg hb]
    by_cases hp : r.pos = 2
    · rw [if_pos hp, if_pos hp]
      rfl
    · rw [if_neg hp, if_neg hp]
      rfl

theorem finishHeader_push (hr : r.ready = true) :
    (r.push bytes).finishHeader = r.finishHeader.push bytes := by
  rw [finishHeader, finishHeader, seen_push bytes hr]
  cases unstuff 0xFF 0x55 false (r.seen.drop 3) with
  | none => rfl
  | some header =>
    have hframe : (r.push bytes).frame = r.frame := rfl
    simp only [hframe]
    by_cases herr : (r.frame.parseBuffer (r.seen.take 3 ++ header)).2.1 = .headerOnly
    · rw [if_pos herr, if_pos herr]
      rfl
    · rw [if_neg herr, if_neg herr]
      rfl

theorem finishBody_push (hr : r.ready = true) :
    (r.push bytes).finishBody = r.finishBody.push bytes := by
  rw [finishBody, finishBody, seen_push bytes hr]
  cases unstuff 0xFF 0x55 false r.seen with
  | none => rfl
  | some body =>
    have hframe : (r.push bytes).frame = r.frame := rfl
    simp only [hframe]
    by_cases herr : (r.frame.parseBuffer body).2.1 = .completeFrame
    · rw [if_pos herr, if_pos herr]
      rfl
    · rw [if_neg herr, if_neg herr]
      rfl

/-- A step looks at no byte beyond the current one. -/
theorem step_push (hr : r.ready = true) : (r.push bytes).step = r.step.push bytes := by
  have hbyte : (r.push bytes).byteAt (r.push bytes).pos = r.byteAt r.pos :=
    byteAt_push bytes (ready_iff.mp hr)
  have hframe : (r.push bytes).frame = r.frame := rfl
  have hfound : (r.push bytes).found = r.found := rfl
  have hsep : (r.push bytes).sepCount = r.sepCount := rfl
  have hpos : (r.push bytes).pos = r.pos := rfl
  rw [step, step, seek_push bytes hr, finishHeader_push bytes hr, finishBody_push bytes hr, hbyte,
    hframe, hfound, hsep, hpos]
  by_cases hf : r.found = false
  · rw [if_pos hf, if_pos hf]
  · rw [if_neg hf, if_neg hf]
    generalize (if r.byteAt r.pos = 0xFF then r.sepCount + 1 else r.sepCount) = sepCount
    cases r.frame.status with
    | frameComplete => rfl
    | frameHeaderOnly =>
      by_cases hlast : r.pos + 1 - sepCount = r.frame.bodySize
      · simp only [hlast, if_true]
      · simp only [hlast, if_false]
        rfl
    | frameEmpty =>
      by_cases hlast : r.pos + 1 - sepCount = 10
      · simp only [hlast, if_true]
      · simp only [hlast, if_false]
        rfl

theorem inv_push (h : r.Inv) : (r.push bytes).Inv := by
  have hcursor := h.cursor_le
  have hwindow : (r.push bytes).window (r.push bytes).pos = r.window r.pos :=
    window_push bytes hcursor
  refine ⟨?_, ?_⟩
  · show r.front + r.pos ≤ (r.stream ++ bytes).length
    rw [List.length_append]
    omega
  · cases h.mode with
    | seeking hfound hframe hsep hpos => exact .seeking hfound hframe hsep hpos
    | header hfound hframe hpos hlen hsep hmore =>
      refine .header hfound hframe hpos ?_ (by rw [hwindow]; exact hsep)
        (by rw [hwindow]; exact hmore)
      rwa [byteAt_push bytes (by omega)]
    | body hfound hstatus hsep hmore hsize =>
      exact .body hfound hstatus (by rw [hwindow]; exact hsep) (by rw [hwindow]; exact hmore) hsize

/-- Bytes that arrive after the receiver has settled might have been there before. -/
theorem settle_push (h : r.Inv) : (r.settle.push bytes).settle = (r.push bytes).settle := by
  refine settle_induction (P := fun r' => (r'.push bytes).settle = (r.push bytes).settle) ?_ h rfl
  intro r' hinv hr hP
  rw [← step_push bytes hr, settle_step (inv_push bytes hinv) (ready_push bytes hr)]
  exact hP

end Push
end Receiver
end HaierProtocol
