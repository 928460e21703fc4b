import Mathlib.Data.List.Basic
import Mathlib.Logic.Function.Basic

/-!
# The members of a ring buffer

`Members` is an object of the class in `utils/circular_buffer.h` as its members have it, in every
state the class can bring it into.  Both indices are inside the block, always.  That `isEmpty` is
only set where they coincide is true of a buffer that was filled and emptied by its own calls, and
`CircularBuffer` adds it.  An assignment may break it, so the calls are defined here, without it.

What the calls do to `contents`, the stored elements with the oldest first, does not depend on
it either.
-/

namespace HaierProtocol

structure Members (α : Type) where
  isEmpty : Bool
  capacity : Nat
  buffer : Nat → α
  head : Nat
  tail : Nat
  head_lt : head < capacity
  tail_lt : tail < capacity

namespace Members

variable {α : Type}

theorem capacity_pos (m : Members α) : 0 < m.capacity :=
  Nat.lt_of_le_of_lt (Nat.zero_le _) m.head_lt

def getSize (m : Members α) : Nat :=
  if m.tail = m.head then
    if m.isEmpty then 0 else m.capacity
  else if m.head < m.tail then m.tail - m.head
  else m.capacity - m.head + m.tail

def getSpace (m : Members α) : Nat := m.capacity - m.getSize

/-- The cell of the element with this index. -/
def cell (m : Members α) (index : Nat) : Nat := (m.head + index) % m.capacity

/-- `operator[]`. -/
def get (m : Members α) (index : Nat) : α := m.buffer (m.cell index)

/-- `buffer_[tail_] = item`, and `tail_` moves on. -/
def storeNext (m : Members α) (item : α) : Members α :=
  { m with
    buffer := Function.update m.buffer m.tail item
    tail := (m.tail + 1) % m.capacity
    tail_lt := Nat.mod_lt _ m.capacity_pos }

/-- `push` of one element, and the number stored. -/
def pushItem (m : Members α) (item : α) : Members α × Nat :=
  if m.isEmpty = true ∨ m.tail ≠ m.head then ({ m.storeNext item with isEmpty := false }, 1)
  else (m, 0)

/-- The loop of `push`. -/
def pushLoop (m : Members α) : List α → Members α
  | [] => m
  | item :: items => (m.storeNext item).pushLoop items

/-- `push` of an array, and the number stored. -/
def push (m : Members α) (items : List α) : Members α × Nat :=
  let sizeToPush := if m.getSpace > items.length then items.length else m.getSpace
  let pushed := m.pushLoop (items.take sizeToPush)
  ({ pushed with isEmpty := if sizeToPush > 0 then false else pushed.isEmpty }, sizeToPush)

/-- The loop of `pop`, and what it stores in the caller's array. -/
def popLoop (m : Members α) : Nat → Members α × List α
  | 0 => (m, [])
  | n + 1 =>
    let (popped, items) := popLoop { m with
      head := (m.head + 1) % m.capacity
      head_lt := Nat.mod_lt _ m.capacity_pos } n
    (popped, m.buffer m.head :: items)

/-- `pop`, the elements it hands over and the number it returns. -/
def pop (m : Members α) (size : Nat) : Members α × List α × Nat :=
  let sz := m.getSize
  let popSize := if size < sz then size else sz
  let (popped, items) := m.popLoop popSize
  ({ popped with isEmpty := if popSize = sz then true else popped.isEmpty }, items, popSize)

/-- `reserve`, the first cell of the region and its size. -/
def reserve (m : Members α) (size : Nat) : Members α × Nat × Nat :=
  let head := if m.head = 0 then m.capacity else 0
  let newSize := if head > m.tail then min size (head - m.tail) else min size (m.capacity - m.tail)
  ({ m with
      tail := (m.tail + newSize) % m.capacity
      tail_lt := Nat.mod_lt _ m.capacity_pos
      isEmpty := if newSize > 0 then false else m.isEmpty }, m.tail, newSize)

/-- Store `items` in consecutive cells from `first` on, as a caller does through the
pointer `reserve` returns. -/
def store (m : Members α) (first : Nat) (items : List α) : Members α :=
  { m with buffer := fun i =>
      if first ≤ i then (items[i - first]?).getD (m.buffer i) else m.buffer i }

def clear (m : Members α) : Members α :=
  { m with
      isEmpty := true
      head := 0
      tail := 0
      head_lt := m.capacity_pos
      tail_lt := m.capacity_pos }

/-- `drop`, and the number removed. -/
def drop (m : Members α) (size : Nat) : Members α × Nat :=
  let sz := m.getSize
  let dropSize := if size < sz then size else sz
  ({ m with
      head := (m.head + dropSize) % m.capacity
      head_lt := Nat.mod_lt _ m.capacity_pos
      isEmpty := if dropSize = sz then true else m.isEmpty }, dropSize)

/-- The stored elements, oldest first. -/
def contents (m : Members α) : List α := (List.range m.getSize).map m.get

/-! ## The size -/

theorem getSize_le (m : Members α) : m.getSize ≤ m.capacity := by
  have h1 := m.head_lt
  have h2 := m.tail_lt
  unfold getSize
  split
  · split <;> omega
  · split <;> omega

/-- One turn around the block at most: the remainder is a subtraction. -/
theorem add_mod_of_le {head n capacity : Nat} (hh : head < capacity) (hn : n ≤ capacity) :
    (head + n) % capacity = if head + n < capacity then head + n else head + n - capacity := by
  split
  · exact Nat.mod_eq_of_lt ‹_›
  · rw [Nat.mod_eq_sub_mod (by omega), Nat.mod_eq_of_lt (by omega)]

/-- The next free cell lies `getSize` cells after the oldest one. -/
theorem tail_eq (m : Members α) : m.tail = (m.head + m.getSize) % m.capacity := by
  have h1 := m.head_lt
  have h2 := m.tail_lt
  rw [add_mod_of_le h1 m.getSize_le]
  unfold getSize
  by_cases he : m.tail = m.head
  · cases m.isEmpty <;> (simp [he, h1]; try omega)
  · by_cases hlt : m.head < m.tail <;> simp only [he, hlt, if_true, if_false] <;>
      split <;> omega

theorem isEmpty_of_getSize {m : Members α} (h : m.getSize = 0) : m.isEmpty = true := by
  have h1 := m.head_lt
  have h2 := m.tail_lt
  unfold getSize at h
  by_cases he : m.tail = m.head
  · by_contra hfull
    rw [if_pos he, if_neg hfull] at h
    omega
  · rw [if_neg he] at h
    split at h <;> omega

theorem isEmpty_of_full {m : Members α} (h : m.getSize = m.capacity) : m.isEmpty = false := by
  have h1 := m.head_lt
  have h2 := m.tail_lt
  unfold getSize at h
  by_cases he : m.tail = m.head
  · by_contra hempty
    rw [if_pos he, if_pos (by simpa using hempty)] at h
    omega
  · rw [if_neg he] at h
    split at h <;> omega

/-- The size is how far the next free cell lies from the oldest one, and `isEmpty` decides where
that could be none of the block or all of it. -/
theorem getSize_eq_of {m : Members α} {n : Nat} (hn : n ≤ m.capacity)
    (ht : m.tail = (m.head + n) % m.capacity) (hnone : n = 0 → m.isEmpty = true)
    (hall : n = m.capacity → m.isEmpty = false) : m.getSize = n := by
  have h1 := m.head_lt
  have h2 := m.tail_lt
  rw [add_mod_of_le h1 hn] at ht
  unfold getSize
  by_cases hn0 : n = 0
  · rw [hn0, Nat.add_zero, if_pos h1] at ht
    rw [if_pos ht, if_pos (hnone hn0), hn0]
  by_cases hnc : n = m.capacity
  · have he : m.tail = m.head := by
      rw [ht]
      split <;> omega
    rw [if_pos he, hall hnc, if_neg Bool.false_ne_true, hnc]
  · have he : m.tail ≠ m.head := by
      rw [ht]
      split <;> omega
    rw [if_neg he]
    split at ht <;> split <;> omega

@[simp] theorem length_contents (m : Members α) : m.contents.length = m.getSize := by
  simp [contents]

theorem getElem?_contents (m : Members α) {i : Nat} (hi : i < m.getSize) :
    m.contents[i]? = some (m.get i) := by
  simp [contents, hi]

/-- The same elements at the head and new ones behind them. -/
theorem contents_eq_append {m m' : Members α} {items : List α}
    (hsize : m'.getSize = m.getSize + items.length) (hold : ∀ i, i < m.getSize → m'.get i = m.get i)
    (hnew : ∀ j (hj : j < items.length), m'.get (m.getSize + j) = items[j]) :
    m'.contents = m.contents ++ items := by
  refine List.ext_getElem ?_ (fun i h1 h2 => ?_)
  · rw [length_contents, hsize, List.length_append, length_contents]
  · have hi : i < m.getSize + items.length := by simpa using h2
    by_cases hlt : i < m.getSize
    · rw [List.getElem_append_left (by simpa using hlt)]
      simpa [contents] using hold i hlt
    · rw [List.getElem_append_right (by simpa using hlt)]
      have hget := hnew (i - m.getSize) (by omega)
      rw [Nat.add_sub_cancel' (Nat.le_of_not_lt hlt)] at hget
      simpa [contents] using hget

/-! ## Removing -/

section Removing

variable (m : Members α) (size : Nat)

theorem drop_snd : (m.drop size).2 = min size m.getSize := by
  simp only [drop]
  split <;> omega

theorem drop_isEmpty : (m.drop size).1.isEmpty =
    if min size m.getSize = m.getSize then true else m.isEmpty := by
  rw [← drop_snd]
  rfl

theorem getSize_drop : (m.drop size).1.getSize = m.getSize - size := by
  have hle := m.getSize_le
  have hpos := m.capacity_pos
  have hsnd := m.drop_snd size
  refine getSize_eq_of (m := (m.drop size).1) (Nat.le_trans (Nat.sub_le _ _) hle) ?_ ?_ ?_
  · show m.tail = ((m.head + (m.drop size).2) % m.capacity + (m.getSize - size)) % m.capacity
    rw [Nat.mod_add_mod, hsnd, m.tail_eq]
    congr 1
    omega
  · intro hall
    rw [drop_isEmpty, if_pos (by omega)]
  · intro hfull
    have hfull' : m.getSize - size = m.capacity := hfull
    rw [drop_isEmpty, if_neg (by omega)]
    exact isEmpty_of_full (by omega)

theorem get_drop {i : Nat} (hi : i < m.getSize - size) :
    (m.drop size).1.get i = m.get (size + i) := by
  have hsnd := m.drop_snd size
  show m.buffer (((m.head + (m.drop size).2) % m.capacity + i) % m.capacity) = _
  rw [Nat.mod_add_mod, hsnd, Nat.min_eq_left (by omega), Nat.add_assoc]
  rfl

@[simp] theorem contents_drop : (m.drop size).1.contents = m.contents.drop size := by
  refine List.ext_getElem ?_ (fun i h1 h2 => ?_)
  · rw [length_contents, getSize_drop, List.length_drop, length_contents]
  · have hi : i < m.getSize - size := by simpa [getSize_drop] using h1
    simpa [contents] using m.get_drop size hi

theorem popLoop_eq (n : Nat) :
    m.popLoop n =
      ({ m with head := (m.head + n) % m.capacity, head_lt := Nat.mod_lt _ m.capacity_pos },
        (List.range n).map m.get) := by
  induction n generalizing m with
  | zero =>
    simp only [popLoop, Nat.add_zero, Nat.mod_eq_of_lt m.head_lt, List.range_zero, List.map_nil]
  | succ n ih =>
    rw [popLoop, ih]
    simp only [Nat.mod_add_mod, Nat.add_assoc, Nat.add_comm 1 n]
    rw [List.range_succ_eq_map, List.map_cons, List.map_map]
    have hfirst : m.get 0 = m.buffer m.head := by
      rw [get, cell, Nat.add_zero, Nat.mod_eq_of_lt m.head_lt]
    rw [hfirst]
    congr 2
    refine List.map_congr_left (fun i _ => ?_)
    simp only [get, cell, Function.comp_apply, Nat.mod_add_mod]
    congr 2
    omega

/-- `pop` removes what `drop` does, and hands it over. -/
theorem pop_eq : m.pop size = ((m.drop size).1, m.contents.take size, (m.drop size).2) := by
  rw [pop, popLoop_eq]
  refine Prod.ext rfl (Prod.ext ?_ rfl)
  show (List.range _).map m.get = _
  rw [contents, ← List.map_take, List.take_range]
  congr 2
  split <;> omega

end Removing

/-! ## Appending -/

/-- `m'` counts the next `n` cells as stored. -/
structure Extends (m : Members α) (n : Nat) (m' : Members α) : Prop where
  capacity : m'.capacity = m.capacity
  head : m'.head = m.head
  tail : m'.tail = (m.tail + n) % m.capacity
  isEmpty : m'.isEmpty = if n > 0 then false else m.isEmpty

namespace Extends

variable {m m' : Members α} {n : Nat}

theorem tail_eq (h : Extends m n m') : m'.tail = (m'.head + (m.getSize + n)) % m'.capacity := by
  rw [h.tail, h.head, h.capacity, m.tail_eq, Nat.mod_add_mod, Nat.add_assoc]

theorem getSize (h : Extends m n m') (hn : n ≤ m.getSpace) : m'.getSize = m.getSize + n := by
  have hle := m.getSize_le
  have hpos := m.capacity_pos
  unfold getSpace at hn
  refine getSize_eq_of (by rw [h.capacity]; omega) h.tail_eq ?_ ?_
  · intro hnone
    rw [h.isEmpty, if_neg (by omega)]
    exact isEmpty_of_getSize (by omega)
  · intro hall
    rw [h.isEmpty]
    split
    · rfl
    · rw [h.capacity] at hall
      exact isEmpty_of_full (by omega)

/-- Also where the cells were not free, no more of them count as stored. -/
theorem getSize_le (h : Extends m n m') : m'.getSize ≤ m.getSize + n := by
  by_cases hfree : n ≤ m.getSpace
  · exact Nat.le_of_eq (h.getSize hfree)
  · have hle := m'.getSize_le
    have hle' := m.getSize_le
    rw [h.capacity] at hle
    unfold getSpace at hfree
    omega

theorem cell (h : Extends m n m') (i : Nat) : m'.cell i = m.cell i := by
  rw [Members.cell, Members.cell, h.head, h.capacity]

/-- The cells behind the stored elements are those from `tail` on. -/
theorem cell_add (m : Members α) (j : Nat) :
    m.cell (m.getSize + j) = (m.tail + j) % m.capacity := by
  rw [Members.cell, m.tail_eq, Nat.mod_add_mod, Nat.add_assoc]

/-- Elements in those cells join the contents. -/
theorem contents (h : Extends m n m') {items : List α} (hlen : items.length = n)
    (hn : n ≤ m.getSpace)
    (hold : ∀ i, i < m.getSize → m'.buffer (m.cell i) = m.buffer (m.cell i))
    (hnew : ∀ j (hj : j < items.length), m'.buffer ((m.tail + j) % m.capacity) = items[j]) :
    m'.contents = m.contents ++ items := by
  refine contents_eq_append (by rw [h.getSize hn, hlen]) (fun i hi => ?_) (fun j hj => ?_)
  · rw [Members.get, h.cell, hold i hi]
    rfl
  · rw [Members.get, h.cell, cell_add, hnew j hj]

end Extends

/-- Different elements have different cells. -/
theorem cell_inj (m : Members α) {i j : Nat} (hi : i < m.capacity) (hj : j < m.capacity)
    (h : m.cell i = m.cell j) : i = j := by
  have hhead := m.head_lt
  rw [cell, cell, add_mod_of_le hhead (Nat.le_of_lt hi), add_mod_of_le hhead (Nat.le_of_lt hj)] at h
  split at h <;> split at h <;> omega

/-- A stored element is in no cell from `tail` to the end that is free. -/
theorem cell_not_reserved (m : Members α) {n : Nat} (hspace : n ≤ m.getSpace)
    {i : Nat} (hi : i < m.getSize) : ¬(m.tail ≤ m.cell i ∧ m.cell i < m.tail + n) := by
  rintro ⟨hle, hlt⟩
  have hsize := m.getSize_le
  have hcell : m.cell i < m.capacity := Nat.mod_lt _ m.capacity_pos
  have heq : m.cell i = m.cell (m.getSize + (m.cell i - m.tail)) := by
    rw [Extends.cell_add, Nat.add_sub_cancel' hle, Nat.mod_eq_of_lt hcell]
  unfold getSpace at hspace
  have := m.cell_inj (by omega) (by omega) heq
  omega

section Appending

variable (m : Members α)

theorem pushLoop_members (items : List α) :
    (m.pushLoop items).capacity = m.capacity ∧ (m.pushLoop items).head = m.head ∧
      (m.pushLoop items).isEmpty = m.isEmpty ∧
      (m.pushLoop items).tail = (m.tail + items.length) % m.capacity := by
  induction items generalizing m with
  | nil => exact ⟨rfl, rfl, rfl, (Nat.mod_eq_of_lt m.tail_lt).symm⟩
  | cons item items ih =>
    rw [pushLoop]
    obtain ⟨hcap, hhead, hempty, htail⟩ := ih (m.storeNext item)
    refine ⟨hcap, hhead, hempty, htail.trans ?_⟩
    show ((m.tail + 1) % m.capacity + items.length) % m.capacity = _
    rw [Nat.mod_add_mod, List.length_cons, Nat.add_assoc, Nat.add_comm 1]

/-- The loop writes the next cells in turn. -/
theorem pushLoop_buffer (items : List α) (hlen : items.length ≤ m.capacity) :
    (∀ c, (∀ j, j < items.length → c ≠ (m.tail + j) % m.capacity) →
      (m.pushLoop items).buffer c = m.buffer c) ∧
    ∀ j (hj : j < items.length),
      (m.pushLoop items).buffer ((m.tail + j) % m.capacity) = items[j] := by
  induction items generalizing m with
  | nil => exact ⟨fun _ _ => rfl, fun j hj => absurd hj (Nat.not_lt_zero j)⟩
  | cons item items ih =>
    rw [List.length_cons] at hlen
    have htail := m.tail_lt
    have hshift : ∀ j, ((m.storeNext item).tail + j) % (m.storeNext item).capacity =
        (m.tail + (j + 1)) % m.capacity := by
      intro j
      show ((m.tail + 1) % m.capacity + j) % m.capacity = _
      rw [Nat.mod_add_mod, Nat.add_assoc, Nat.add_comm 1]
    obtain ⟨hframe, hwrite⟩ := ih (m.storeNext item) (Nat.le_of_succ_le hlen)
    simp only [hshift] at hframe hwrite
    rw [pushLoop]
    refine ⟨fun c hc => ?_, fun j hj => ?_⟩
    · have hne : c ≠ m.tail := by
        have := hc 0 (Nat.succ_pos _)
        rwa [Nat.add_zero, Nat.mod_eq_of_lt htail] at this
      rw [hframe c (fun j hj => hc (j + 1) (Nat.succ_lt_succ hj))]
      exact Function.update_of_ne hne item m.buffer
    · cases j with
      | zero =>
        -- The cell just written comes round again only after a whole turn.
        rw [Nat.add_zero, Nat.mod_eq_of_lt htail, hframe]
        · exact Function.update_self m.tail item m.buffer
        · intro k hk heq
          rw [add_mod_of_le htail (by omega)] at heq
          split at heq <;> omega
      | succ j => exact hwrite j (Nat.lt_of_succ_lt_succ hj)

theorem push_snd (items : List α) : (m.push items).2 = min items.length m.getSpace := by
  simp only [push]
  split <;> omega

theorem push_fst (items : List α) :
    (m.push items).1 = { m.pushLoop (items.take (m.push items).2) with
      isEmpty := if (m.push items).2 > 0 then false
        else (m.pushLoop (items.take (m.push items).2)).isEmpty } := rfl

theorem push_extends (items : List α) : Extends m (m.push items).2 (m.push items).1 := by
  have hlen : (items.take (m.push items).2).length = (m.push items).2 := by
    rw [List.length_take, push_snd]
    omega
  obtain ⟨hcap, hhead, hempty, htail⟩ := m.pushLoop_members (items.take (m.push items).2)
  rw [hlen] at htail
  rw [push_fst]
  exact ⟨hcap, hhead, htail, by rw [hempty]⟩

/-- As many elements as fit are appended. -/
theorem contents_push (items : List α) :
    (m.push items).1.contents = m.contents ++ items.take (m.push items).2 := by
  have hle := m.getSize_le
  have hsnd := m.push_snd items
  have hspace : (m.push items).2 ≤ m.getSpace := by omega
  have hlen : (items.take (m.push items).2).length = (m.push items).2 := by
    rw [List.length_take]
    omega
  unfold getSpace at hspace
  obtain ⟨hframe, hwrite⟩ := m.pushLoop_buffer (items.take (m.push items).2) (by omega)
  refine (m.push_extends items).contents hlen hspace (fun i hi => ?_) hwrite
  rw [push_fst]
  refine hframe _ (fun j hj heq => ?_)
  rw [← Extends.cell_add] at heq
  have := m.cell_inj (by omega) (by omega) heq
  omega

/-- `push` of one element is `push` of an array of one. -/
theorem pushItem_eq (item : α) : m.pushItem item = m.push [item] := by
  have hle := m.getSize_le
  have hroom : (m.isEmpty = true ∨ m.tail ≠ m.head) ↔ m.getSpace > 0 := by
    have h1 := m.head_lt
    have h2 := m.tail_lt
    unfold getSpace getSize
    by_cases he : m.tail = m.head
    · cases m.isEmpty <;> simp [he]
      omega
    · simp only [ne_eq, he, not_false_eq_true, or_true, if_false, true_iff]
      split <;> omega
  have hsnd := m.push_snd [item]
  rw [List.length_singleton] at hsnd
  refine Prod.ext ?_ ?_
  · by_cases hspace : m.getSpace > 0
    · rw [push_fst, hsnd, Nat.min_eq_left hspace, pushItem, if_pos (hroom.mpr hspace)]
      rfl
    · rw [push_fst, hsnd, Nat.eq_zero_of_not_pos hspace, pushItem, if_neg (hroom.not.mpr hspace)]
      rfl
  · rw [hsnd, pushItem]
    by_cases hspace : m.getSpace > 0
    · rw [if_pos (hroom.mpr hspace), Nat.min_eq_left hspace]
    · rw [if_neg (hroom.not.mpr hspace), Nat.eq_zero_of_not_pos hspace]
      rfl

end Appending

/-! ## Reserving -/

section Reserving

variable (m : Members α) (size : Nat)

/-- The cells from `tail` to the end of the block bound what one call hands out,
whichever way the comparison with `head` goes. -/
theorem reserve_snd : (m.reserve size).2 = (m.tail, min size (m.capacity - m.tail)) := by
  have h := m.tail_lt
  simp only [reserve]
  by_cases h0 : m.head = 0
  · simp [h0, h]
  · simp [h0]

theorem reserve_extends : Extends m (m.reserve size).2.2 (m.reserve size).1 := ⟨rfl, rfl, rfl, rfl⟩

theorem reserve_store_extends (items : List α) :
    Extends m (m.reserve size).2.2 ((m.reserve size).1.store (m.reserve size).2.1 items) :=
  ⟨rfl, rfl, rfl, rfl⟩

/-- What the caller has written is in the region, and the rest is as it was. -/
theorem reserve_store_buffer (items : List α) (c : Nat) :
    ((m.reserve size).1.store (m.reserve size).2.1 items).buffer c =
      if m.tail ≤ c then (items[c - m.tail]?).getD (m.buffer c) else m.buffer c := by
  rw [reserve_snd]
  rfl

/-- Filling the cells one call hands out appends them, provided they were free. -/
theorem contents_reserve_store {items : List α} (hfree : (m.reserve size).2.2 ≤ m.getSpace)
    (hlen : items.length = (m.reserve size).2.2) :
    ((m.reserve size).1.store (m.reserve size).2.1 items).contents = m.contents ++ items := by
  have htail := m.tail_lt
  have hend : (m.reserve size).2.2 ≤ m.capacity - m.tail := by
    rw [reserve_snd]
    exact Nat.min_le_right _ _
  refine (m.reserve_store_extends size items).contents hlen hfree (fun i hi => ?_) (fun j hj => ?_)
  · rw [m.reserve_store_buffer size]
    by_cases hcell : m.tail ≤ m.cell i
    · -- A stored element sits outside the cells just filled.
      rw [if_pos hcell, List.getElem?_eq_none, Option.getD_none]
      have hout := m.cell_not_reserved hfree hi
      omega
    · rw [if_neg hcell]
  · rw [m.reserve_store_buffer size, Nat.mod_eq_of_lt (by omega), if_pos (Nat.le_add_right _ _),
      Nat.add_sub_cancel_left, List.getElem?_eq_getElem hj, Option.getD_some]

end Reserving

theorem contents_clear (m : Members α) : m.clear.contents = [] := by
  rw [← List.length_eq_zero_iff, length_contents]
  rfl

/-! ## The flag -/

/-- `isEmpty` is set only where nothing is stored. -/
def Flagged (m : Members α) : Prop := m.isEmpty = true → m.getSize = 0

theorem Flagged.eq_nil_iff {m : Members α} (h : Flagged m) :
    m.isEmpty = true ↔ m.contents = [] := by
  rw [← List.length_eq_zero_iff, length_contents]
  exact ⟨h, isEmpty_of_getSize⟩

theorem Flagged.head_eq_tail {m : Members α} (h : Flagged m) (hempty : m.isEmpty = true) :
    m.head = m.tail := by
  have htail := m.tail_eq
  rw [h hempty, Nat.add_zero, Nat.mod_eq_of_lt m.head_lt] at htail
  exact htail.symm

theorem Extends.flagged {m m' : Members α} {n : Nat} (h : Extends m n m') (hm : Flagged m) :
    Flagged m' := by
  intro hempty
  have hle := h.getSize_le
  rw [h.isEmpty] at hempty
  by_cases hn : n > 0
  · rw [if_pos hn] at hempty
    exact absurd hempty Bool.false_ne_true
  · rw [if_neg hn] at hempty
    have := hm hempty
    omega

theorem Flagged.drop {m : Members α} (h : Flagged m) (size : Nat) : Flagged (m.drop size).1 := by
  intro hempty
  rw [drop_isEmpty] at hempty
  rw [getSize_drop]
  by_cases hall : min size m.getSize = m.getSize
  · omega
  · rw [if_neg hall] at hempty
    have := h hempty
    omega

end Members
end HaierProtocol
