import HaierProtocol.Utils.Members

/-!
# The ring buffer

`CircularBuffer` is an object of the class in `utils/circular_buffer.h` that was filled and emptied
by its own calls: to the `Members` it adds that `isEmpty` is only set where the two indices
coincide.  `drop`, `reserve` and what a caller does with the region handed out keep it that way.
-/

namespace HaierProtocol

def circularBufferMinimumSize : Nat := 0x80

structure CircularBuffer (α : Type) extends Members α where
  head_eq_tail : isEmpty = true → head = tail

namespace CircularBuffer

variable {α : Type}

/-- A new buffer.  `cells` is whatever the freshly allocated block holds. -/
def ofCapacity (cells : Nat → α) (capacity : Nat) : CircularBuffer α where
  isEmpty := true
  capacity := if capacity < circularBufferMinimumSize then circularBufferMinimumSize else capacity
  buffer := cells
  head := 0
  tail := 0
  head_lt := by unfold circularBufferMinimumSize; split <;> omega
  tail_lt := by unfold circularBufferMinimumSize; split <;> omega
  head_eq_tail := fun _ => rfl

theorem getSize_eq_zero_iff (b : CircularBuffer α) : b.getSize = 0 ↔ b.isEmpty = true := by
  constructor
  · exact Members.isEmpty_of_getSize
  · intro h
    rw [Members.getSize, if_pos (b.head_eq_tail h).symm, if_pos h]

theorem flagged (b : CircularBuffer α) : b.toMembers.Flagged := b.getSize_eq_zero_iff.mpr

/-- Remove the `size` oldest elements, or all of them; the second component is the
number removed. -/
def drop (b : CircularBuffer α) (size : Nat) : CircularBuffer α × Nat :=
  ({ toMembers := (b.toMembers.drop size).1
     head_eq_tail := (b.flagged.drop size).head_eq_tail }, (b.toMembers.drop size).2)

/-- Hand out up to `size` contiguous cells from the next free one on.  The result is
the buffer with those cells counted as stored, the first of them, and their
number. -/
def reserve (b : CircularBuffer α) (size : Nat) : CircularBuffer α × Nat × Nat :=
  ({ toMembers := (b.toMembers.reserve size).1
     head_eq_tail := ((b.reserve_extends size).flagged b.flagged).head_eq_tail },
    (b.toMembers.reserve size).2)

/-- Store `items` in consecutive cells from `first` on, as a caller does through the
pointer `reserve` returns. -/
def store (b : CircularBuffer α) (first : Nat) (items : List α) : CircularBuffer α :=
  { toMembers := b.toMembers.store first items, head_eq_tail := b.head_eq_tail }

theorem getSize_drop (b : CircularBuffer α) (size : Nat) :
    (b.drop size).1.getSize = b.getSize - size := b.toMembers.getSize_drop size

@[simp] theorem contents_drop (b : CircularBuffer α) (size : Nat) :
    (b.drop size).1.contents = b.contents.drop size := b.toMembers.contents_drop size

@[simp] theorem capacity_drop (b : CircularBuffer α) (size : Nat) :
    (b.drop size).1.capacity = b.capacity := rfl

theorem reserve_snd (b : CircularBuffer α) (size : Nat) :
    (b.reserve size).2 = (b.tail, min size (b.capacity - b.tail)) := b.toMembers.reserve_snd size

theorem reserve_tail (b : CircularBuffer α) (size : Nat) :
    (b.reserve size).1.tail = (b.tail + (b.reserve size).2.2) % b.capacity := rfl

@[simp] theorem capacity_reserve (b : CircularBuffer α) (size : Nat) :
    (b.reserve size).1.capacity = b.capacity := rfl

@[simp] theorem capacity_store (b : CircularBuffer α) (first : Nat) (items : List α) :
    (b.store first items).capacity = b.capacity := rfl

/-- Filling the cells one call hands out appends them, provided they were free. -/
theorem contents_store_reserve (b : CircularBuffer α) {size : Nat} {items : List α}
    (h : size ≤ b.getSpace) (hlen : items.length = (b.reserve size).2.2) :
    ((b.reserve size).1.store (b.reserve size).2.1 items).contents = b.contents ++ items := by
  refine b.toMembers.contents_reserve_store size ?_ hlen
  show (b.reserve size).2.2 ≤ b.getSpace
  rw [reserve_snd]
  exact Nat.le_trans (Nat.min_le_left _ _) h

end CircularBuffer
end HaierProtocol
