import HaierProtocol.Utils.BoundedFifo

/-!
# What `reserve` hands out

`reserve` compares with the end of the block only, so it hands out the cells of stored elements
where these come before the end.  `reserve_free_iff` says when it does not: the request fits, or
the stored elements lie before the next free cell, in one piece.
-/

namespace HaierProtocol
namespace Members

variable {α : Type}

/-- What a caller of `reserve` relies on. -/
structure ReservesFree (m : Members α) (size : Nat) : Prop where
  size_le : (m.reserve size).2.2 ≤ min size m.getSpace
  contiguous : (m.reserve size).2.1 + (m.reserve size).2.2 ≤ m.capacity
  free : ∀ i, i < m.getSize →
    ¬((m.reserve size).2.1 ≤ m.cell i ∧ m.cell i < (m.reserve size).2.1 + (m.reserve size).2.2)
  grows : (m.reserve size).1.getSize = m.getSize + (m.reserve size).2.2
  keeps : (m.reserve size).1.contents.take m.getSize = m.contents
  /-- Also when the caller has filled the region. -/
  keeps_filled : ∀ items : List α, items.length = (m.reserve size).2.2 →
    ((m.reserve size).1.store (m.reserve size).2.1 items).contents.take m.getSize = m.contents

/-- The region never leaves the block. -/
theorem reserve_contiguous (m : Members α) (size : Nat) :
    (m.reserve size).2.1 + (m.reserve size).2.2 ≤ m.capacity := by
  have := m.tail_lt
  rw [reserve_snd]
  show m.tail + min size (m.capacity - m.tail) ≤ m.capacity
  omega

/-- No more than the room there is: all else follows. -/
theorem reservesFree_of_le {m : Members α} {size : Nat}
    (hspace : (m.reserve size).2.2 ≤ m.getSpace) : ReservesFree m size := by
  have hfirst : (m.reserve size).2.1 = m.tail := by rw [reserve_snd]
  have hn : (m.reserve size).2.2 = min size (m.capacity - m.tail) := by rw [reserve_snd]
  have hgrows := (m.reserve_extends size).getSize hspace
  refine ⟨by omega, m.reserve_contiguous size, fun i hi => ?_, hgrows, ?_, fun items hitems => ?_⟩
  · rw [hfirst]
    exact m.cell_not_reserved hspace hi
  · rw [contents, contents, ← List.map_take, List.take_range, hgrows,
      Nat.min_eq_left (Nat.le_add_right _ _)]
    rfl
  · rw [m.contents_reserve_store size hspace hitems, List.take_left' m.length_contents]

/-- Elements in one piece before the next free cell leave the room up to the end of the block. -/
theorem le_getSpace_iff (m : Members α) (size : Nat) :
    (m.reserve size).2.2 ≤ m.getSpace ↔ size ≤ m.getSpace ∨ m.getSize ≤ m.tail := by
  have hsize := m.getSize_le
  have htail := m.tail_lt
  have hn : (m.reserve size).2.2 = min size (m.capacity - m.tail) := by rw [reserve_snd]
  unfold getSpace
  omega

/-- `reserve` keeps to free cells exactly where the request fits or the stored elements do not
come before the end of the block. -/
theorem reserve_free_iff (m : Members α) (size : Nat) :
    ReservesFree m size ↔ size ≤ m.getSpace ∨ m.getSize ≤ m.tail := by
  rw [← le_getSpace_iff]
  constructor
  · exact fun h => Nat.le_trans h.size_le (Nat.min_le_right _ _)
  · exact reservesFree_of_le

/-- A new buffer of the smallest capacity, filled. -/
def filled : Members UInt8 :=
  Machine.after step (CircularBuffer.ofCapacity (fun _ => 0) 128).toMembers
    [.reserve 128 fun _ => 0xAA]

/-- One more cell is asked for, and handed out is that of the oldest element. -/
theorem filled_not_reservesFree : ¬ ReservesFree filled 1 := by
  intro h
  have hle : 1 ≤ min 1 filled.getSpace := h.size_le
  have hspace : filled.getSpace = 0 := rfl
  omega

end Members
end HaierProtocol
