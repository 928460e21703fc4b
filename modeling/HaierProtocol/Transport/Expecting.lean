import HaierProtocol.Transport.Boundary
import HaierProtocol.Transport.History

/-!
# A packet on its way

A receiver that was at a boundary when a packet was sent, and has been given some of its bytes.  It
holds no others (`held_le`).  With more of the bytes it is still in this position, or the packet is
complete and the receiver at a boundary again (`settle_push`).
-/

namespace HaierProtocol

open Receiver

/-- Of the packet `p`, which the receiver is collecting, `line` is still to come. -/
structure Expecting (p : Packet) (line : List UInt8) (r : Receiver) : Prop where
  inv : r.Inv
  place : ∃ start, Collecting p start r ∧ start ≤ r.stream.length ∧
    r.stream.drop start ++ line = p.wire

/-- What a receiver has become that was given the rest of the packet. -/
structure Completed (p : Packet) (r r' : Receiver) : Prop where
  boundary : r'.AtBoundary
  log : ∃ stop, r'.log = r.log ++ [⟨p.frame, stop⟩]
  taken : r'.taken = r.taken

namespace Expecting

variable {p : Packet} {line input : List UInt8} {r : Receiver}

theorem of_boundary (h : r.AtBoundary) (hinv : r.Inv) (p : Packet) : Expecting p p.wire r := by
  refine ⟨hinv, r.stream.length, .marks h.found h.front, Nat.le_refl _, ?_⟩
  rw [List.drop_length, List.nil_append]

theorem start_le_front {start : Nat} (hc : Collecting p start r) : start ≤ r.front := by
  cases hc with
  | marks _ hfront => exact Nat.le_of_eq hfront.symm
  | header _ _ hfront => exact Nat.le_of_eq hfront.symm
  | body _ _ hfront =>
    rw [hfront]
    exact Nat.le_add_right _ _

/-- The bytes held belong to the packet. -/
theorem held_le (h : Expecting p line r) : r.held + line.length ≤ p.wire.length := by
  obtain ⟨start, hc, hle, hwire⟩ := h.place
  have hfront := start_le_front hc
  rw [← hwire, List.length_append, List.length_drop]
  unfold Receiver.held
  omega

/-- With some more bytes the receiver is still collecting, or the packet is complete. -/
theorem settle_push (h : Expecting p (input ++ line) r) :
    line ≠ [] ∧ Expecting p line (r.push input).settle ∧
        (r.push input).settle.log = r.log ∧ (r.push input).settle.taken = r.taken ∨
      line = [] ∧ Completed p r (r.push input).settle := by
  obtain ⟨start, hc, hle, hwire⟩ := h.place
  have hpush := inv_push input h.inv
  have hcar : ∀ s : Receiver, s.stream = r.stream ++ input →
      s.stream.drop start ++ line = p.wire ++ [] := by
    intro s hs
    rw [hs, List.drop_append_of_le_length hle, List.append_assoc, hwire, List.append_nil]
  have hstart : Collecting p start (r.push input) := by
    cases hc with
    | marks hfound hfront => exact .marks hfound hfront
    | header hfound hframe hfront => exact .header hfound hframe hfront
    | body hfound hframe hfront => exact .body hfound hframe hfront
  have hlength : start + p.wire.length = r.stream.length + input.length + line.length := by
    rw [← hwire, List.length_append, List.length_drop, List.length_append]
    omega
  -- Each move stays inside the packet or is the last one.
  obtain ⟨hstream, hend⟩ := settle_moves
    (P := fun s => s.stream = r.stream ++ input ∧
      (Collecting p start s ∧ s.log = r.log ∧ s.taken = r.taken ∨ line = [] ∧ Completed p r s))
    (r := r.push input) (fun {s s'} hi hr hm ⟨hstream, hs⟩ => by
      refine ⟨hm.stream_eq.trans hstream, ?_⟩
      rcases hs with ⟨hc, hlog, htaken⟩ | ⟨_, hdone⟩
      · rcases hc.move hi hr hm (hcar s hstream) with ⟨hc', hlog'⟩ | rfl
        · exact .inl ⟨hc', hlog'.trans hlog, hm.taken_eq.trans htaken⟩
        · have hcursor : start + p.wire.length ≤ s.stream.length := (inv_move hi hr hm).cursor_le
          rw [hstream, List.length_append, hlength] at hcursor
          have hnil : line = [] := List.length_eq_zero_iff.mp (by omega)
          refine .inr ⟨hnil, ⟨rfl, ?_⟩, ⟨_, congrArg (· ++ _) hlog⟩, htaken⟩
          show start + p.wire.length = s.stream.length
          rw [hlength, hstream, hnil, List.length_append]
          rfl
      · exact absurd hr (by rw [hdone.boundary.not_ready]; decide))
    hpush ⟨rfl, .inl ⟨hstart, rfl, rfl⟩⟩
  have hinv := inv_settle hpush
  rcases hend with ⟨hc', hlog, htaken⟩ | hdone
  · have hlt := hc'.not_settled hinv (settle_not_ready hpush) (hcar _ hstream)
    rw [hstream, List.length_append, hlength] at hlt
    refine .inl ⟨?_, ⟨hinv, start, hc', ?_, ?_⟩, hlog, htaken⟩
    · rintro rfl
      exact absurd hlt (Nat.lt_irrefl _)
    · rw [hstream, List.length_append]
      omega
    · rw [hcar _ hstream, List.append_nil]
  · exact .inr hdone

end Expecting

/-- A receiver at a boundary that is given nothing stays there. -/
theorem Receiver.AtBoundary.settle_nil {r : Receiver} (h : r.AtBoundary) :
    (r.push []).settle = r := by
  have hnil : r.push [] = r := by rw [Receiver.push, List.append_nil]
  rw [hnil, settle_of_not_ready h.not_ready]

end HaierProtocol
