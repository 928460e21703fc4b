import HaierProtocol.Utils.BoundedFifo

/-!
# Copies of a ring buffer

Copy construction and assignment bring over the indices and the cells of the stored elements into
a fresh block.  The assignment leaves `is_empty_` as the target has it.  `Same` is what two
buffers must agree on so that no call tells them apart (`Same.record`): all members but the
cells that store no element.
-/

namespace HaierProtocol

open Machine

namespace Members

variable {α : Type}

/-- The loop of both copies, on a fresh block. -/
def copyLoop (cells : Nat → α) (source : Members α) : Nat → Nat → α
  | 0 => cells
  | n + 1 =>
    Function.update (copyLoop cells source n) (source.cell n) (source.buffer (source.cell n))

/-- The copy constructor. -/
def copy (cells : Nat → α) (source : Members α) : Members α where
  isEmpty := source.isEmpty
  capacity := source.capacity
  buffer := copyLoop cells source source.getSize
  head := source.head
  tail := source.tail
  head_lt := source.head_lt
  tail_lt := source.tail_lt

/-- `operator=` of another object.  Assignment to itself does nothing. -/
def assign (cells : Nat → α) (m source : Members α) : Members α where
  isEmpty := m.isEmpty
  capacity := source.capacity
  buffer := copyLoop cells source source.getSize
  head := source.head
  tail := source.tail
  head_lt := source.head_lt
  tail_lt := source.tail_lt

/-- A copy that its user cannot tell from the source, now or later. -/
structure Faithful (source copied : Members α) : Prop where
  capacity : copied.capacity = source.capacity
  getSize : copied.getSize = source.getSize
  empty : copied.isEmpty = source.isEmpty
  elements : ∀ i, i < source.getSize → copied.get i = source.get i
  answers : ∀ calls : List (Call α), record step copied calls = record step source calls

/-- The stored elements are copied. -/
theorem copyLoop_cell (cells : Nat → α) (source : Members α) {n i : Nat} (hn : n ≤ source.capacity)
    (hi : i < n) : copyLoop cells source n (source.cell i) = source.buffer (source.cell i) := by
  induction n with
  | zero => exact absurd hi (Nat.not_lt_zero i)
  | succ n ih =>
    rw [copyLoop]
    by_cases heq : i = n
    · rw [heq, Function.update_self]
    · have hne : source.cell i ≠ source.cell n :=
        fun h => heq (source.cell_inj (by omega) (by omega) h)
      rw [Function.update_of_ne hne, ih (by omega) (by omega)]

/-! ## Buffers that behave the same -/

structure Same (m c : Members α) : Prop where
  isEmpty : c.isEmpty = m.isEmpty
  capacity : c.capacity = m.capacity
  head : c.head = m.head
  tail : c.tail = m.tail
  contents : c.contents = m.contents

theorem contents_eq_iff {m c : Members α} (hsize : c.getSize = m.getSize) :
    c.contents = m.contents ↔ ∀ i, i < m.getSize → c.get i = m.get i := by
  rw [Members.contents, Members.contents, hsize]
  constructor
  · intro h i hi
    exact List.map_inj_left.mp h i (List.mem_range.mpr hi)
  · exact fun h => List.map_congr_left fun i hi => h i (List.mem_range.mp hi)

namespace Same

variable {m c m' c' : Members α}

theorem getSize (h : Same m c) : c.getSize = m.getSize := by
  rw [← length_contents, h.contents, length_contents]

theorem getSpace (h : Same m c) : c.getSpace = m.getSpace := by
  rw [Members.getSpace, Members.getSpace, h.getSize, h.capacity]

theorem cell (h : Same m c) (i : Nat) : c.cell i = m.cell i := by
  rw [Members.cell, Members.cell, h.head, h.capacity]

theorem get (h : Same m c) {i : Nat} (hi : i < m.getSize) : c.get i = m.get i :=
  (contents_eq_iff h.getSize).mp h.contents i hi

theorem extend (h : Same m c) {n : Nat} (hm : Extends m n m') (hc : Extends c n c')
    (hcontents : c'.contents = m'.contents) : Same m' c' where
  isEmpty := by rw [hc.isEmpty, hm.isEmpty, h.isEmpty]
  capacity := by rw [hc.capacity, hm.capacity, h.capacity]
  head := by rw [hc.head, hm.head, h.head]
  tail := by rw [hc.tail, hm.tail, h.tail, h.capacity]
  contents := hcontents

theorem push (h : Same m c) (items : List α) :
    (c.push items).2 = (m.push items).2 ∧ Same (m.push items).1 (c.push items).1 := by
  have hcount : (c.push items).2 = (m.push items).2 := by
    rw [push_snd, push_snd, h.getSpace]
  refine ⟨hcount, h.extend (m.push_extends items) (hcount ▸ c.push_extends items) ?_⟩
  rw [contents_push, contents_push, hcount, h.contents]

theorem drop (h : Same m c) (size : Nat) :
    (c.drop size).2 = (m.drop size).2 ∧ Same (m.drop size).1 (c.drop size).1 := by
  have hcount : (c.drop size).2 = (m.drop size).2 := by
    rw [drop_snd, drop_snd, h.getSize]
  refine ⟨hcount, ?_, h.capacity, ?_, h.tail, ?_⟩
  · rw [drop_isEmpty, drop_isEmpty, h.getSize, h.isEmpty]
  · show (c.head + (c.drop size).2) % c.capacity = (m.head + (m.drop size).2) % m.capacity
    rw [hcount, h.head, h.capacity]
  · rw [contents_drop, contents_drop, h.contents]

/-- Also a region that covers stored elements leaves nothing that one of them alone has: what is
stored then was stored before, or is in the region. -/
theorem reserve (h : Same m c) (size : Nat) {items : List α}
    (hlen : items.length = (m.reserve size).2.2) :
    (c.reserve size).2 = (m.reserve size).2 ∧
      Same ((m.reserve size).1.store (m.reserve size).2.1 items)
        ((c.reserve size).1.store (c.reserve size).2.1 items) := by
  have htail := m.tail_lt
  have hregion : (c.reserve size).2 = (m.reserve size).2 := by
    rw [reserve_snd, reserve_snd, h.tail, h.capacity]
  have hm := m.reserve_store_extends size items
  have hc := c.reserve_store_extends size items
  rw [show (c.reserve size).2.2 = (m.reserve size).2.2 by rw [hregion]] at hc
  have hend : (m.reserve size).2.2 ≤ m.capacity - m.tail := by
    rw [reserve_snd]
    exact Nat.min_le_right _ _
  refine ⟨hregion, h.extend hm hc ?_⟩
  have hsize : ((c.reserve size).1.store (c.reserve size).2.1 items).getSize =
      ((m.reserve size).1.store (m.reserve size).2.1 items).getSize := by
    have hempty : ((c.reserve size).1.store (c.reserve size).2.1 items).isEmpty =
        ((m.reserve size).1.store (m.reserve size).2.1 items).isEmpty := by
      rw [hc.isEmpty, hm.isEmpty, h.isEmpty]
    rw [Members.getSize, Members.getSize, hempty, hc.capacity, hm.capacity, hc.head, hm.head,
      hc.tail, hm.tail, h.capacity, h.head, h.tail]
  refine (contents_eq_iff hsize).mpr (fun i hi => ?_)
  rw [Members.get, Members.get, hm.cell, hc.cell, reserve_store_buffer, reserve_store_buffer,
    h.tail, h.cell]
  by_cases hold : i < m.getSize
  · have hget : c.buffer (m.cell i) = m.buffer (m.cell i) := by
      have := h.get hold
      rwa [Members.get, Members.get, h.cell] at this
    rw [hget]
  · have hle := hm.getSize_le
    have hcell := Extends.cell_add m (i - m.getSize)
    rw [Nat.add_sub_cancel' (Nat.le_of_not_lt hold), Nat.mod_eq_of_lt (by omega)] at hcell
    rw [hcell, if_pos (Nat.le_add_right _ _), if_pos (Nat.le_add_right _ _),
      Nat.add_sub_cancel_left, List.getElem?_eq_getElem (by omega), Option.getD_some,
      Option.getD_some]

/-- One call: the same answer, and the buffers still agree. -/
theorem step (h : Same m c) (call : Call α) :
    (c.step call).2 = (m.step call).2 ∧ Same (m.step call).1 (c.step call).1 := by
  cases call with
  | pushItem item =>
    rw [step_pushItem, step_pushItem]
    exact ⟨congrArg Answer.count (h.push [item]).1, (h.push [item]).2⟩
  | push items => exact ⟨congrArg Answer.count (h.push items).1, (h.push items).2⟩
  | pop size =>
    rw [step_pop, step_pop, h.contents, h.getSize]
    exact ⟨rfl, (h.drop size).2⟩
  | drop size => exact ⟨congrArg Answer.count (h.drop size).1, (h.drop size).2⟩
  | clear =>
    refine ⟨rfl, rfl, h.capacity, rfl, rfl, ?_⟩
    exact c.contents_clear.trans m.contents_clear.symm
  | reserve size fill =>
    have hlen : ((List.range (m.reserve size).2.2).map fill).length = (m.reserve size).2.2 := by
      rw [List.length_map, List.length_range]
    obtain ⟨hregion, hsame⟩ := h.reserve size hlen
    have hcount : (c.reserve size).2.2 = (m.reserve size).2.2 := by rw [hregion]
    refine ⟨?_, ?_⟩
    · show Answer.region (c.reserve size).2.1 (c.reserve size).2.2 = _
      rw [hregion]
      rfl
    · show Same _ ((c.reserve size).1.store (c.reserve size).2.1
        ((List.range (c.reserve size).2.2).map fill))
      rw [hcount]
      exact hsame
  | read index =>
    refine ⟨congrArg Answer.element ?_, h⟩
    rw [h.getSize]
    by_cases hi : index < m.getSize
    · rw [if_pos hi, if_pos hi, h.get hi]
    · rw [if_neg hi, if_neg hi]
  | getSize => exact ⟨congrArg Answer.count h.getSize, h⟩
  | getSpace => exact ⟨congrArg Answer.count h.getSpace, h⟩
  | getCapacity => exact ⟨congrArg Answer.count h.capacity, h⟩
  | empty => exact ⟨congrArg Answer.flag h.isEmpty, h⟩

/-- No sequence of calls tells the buffers apart. -/
theorem record (h : Same m c) (calls : List (Call α)) :
    Machine.record Members.step c calls = Machine.record Members.step m calls :=
  (record_congr (fun _ _ call h => ⟨(Same.step h call).1.symm, (Same.step h call).2⟩)
    calls m c h).symm

theorem faithful (h : Same m c) : Faithful m c :=
  ⟨h.capacity, h.getSize, h.isEmpty, fun _ hi => h.get hi, h.record⟩

end Same

/-! ## Copies -/

theorem copy_same (cells : Nat → α) (source : Members α) : Same source (source.copy cells) := by
  have hsize : (source.copy cells).getSize = source.getSize := rfl
  refine ⟨rfl, rfl, rfl, rfl, (contents_eq_iff hsize).mpr fun i hi => ?_⟩
  exact copyLoop_cell cells source source.getSize_le hi

/-- With the right flag an assignment is a copy. -/
theorem assign_eq_copy (cells : Nat → α) {m source : Members α} (h : m.isEmpty = source.isEmpty) :
    m.assign cells source = source.copy cells := by
  rw [assign, copy, h]

/-- A copy-constructed buffer is faithful, and an assigned one exactly where the target was empty
before if and only if the source is. -/
theorem copies_faithful_iff (cells : Nat → α) (m source : Members α) :
    Faithful source (source.copy cells) ∧
      (Faithful source (m.assign cells source) ↔ m.isEmpty = source.isEmpty) := by
  refine ⟨(source.copy_same cells).faithful, ?_⟩
  constructor
  · exact fun h => h.empty
  · intro hempty
    rw [assign_eq_copy cells hempty]
    exact (source.copy_same cells).faithful

/-- A new buffer. -/
def unused : Members UInt8 := (CircularBuffer.ofCapacity (fun _ => 0) 128).toMembers

/-- The new buffer, which is empty, is assigned one with an element. -/
theorem unused_assign_not_faithful :
    ¬ Faithful (after step unused [.push [0xAA]])
      (unused.assign (fun _ => 0) (after step unused [.push [0xAA]])) := by
  intro h
  exact Bool.noConfusion (show true = false from h.empty)

end Members
end HaierProtocol
