import HaierProtocol.Lib.Machine
import HaierProtocol.Utils.CircularBuffer

/-!
# The ring buffer is a bounded queue

`FifoStep` is the purpose of the ring buffer: a list that grows at its end up to a capacity and
shrinks at its beginning.  `run_fifo` says that a ring buffer's user sees such a list, whatever
calls are made, as long as `reserve` is asked for no more than there is room for.
-/

namespace HaierProtocol

open Machine Replay

namespace Members

variable {α : Type}

/-- The calls of the class. -/
inductive Call (α : Type) where
  | pushItem (item : α)
  | push (items : List α)
  | pop (size : Nat)
  | drop (size : Nat)
  | clear
  /-- The caller stores `fill j` in the cell `j` of the region. -/
  | reserve (size : Nat) (fill : Nat → α)
  | read (index : Nat)
  | getSize
  | getSpace
  | getCapacity
  | empty

inductive Answer (α : Type) where
  | done
  | count (n : Nat)
  /-- The elements handed over, and the number returned. -/
  | items (items : List α) (n : Nat)
  | region (first size : Nat)
  /-- Nothing is promised about cells that store no element. -/
  | element (item : Option α)
  | flag (value : Bool)

def step (m : Members α) : Call α → Members α × Answer α
  | .pushItem item => let (m, n) := m.pushItem item; (m, .count n)
  | .push items => let (m, n) := m.push items; (m, .count n)
  | .pop size => let (m, items, n) := m.pop size; (m, .items items n)
  | .drop size => let (m, n) := m.drop size; (m, .count n)
  | .clear => (m.clear, .done)
  | .reserve size fill =>
    let (m, first, n) := m.reserve size
    (m.store first ((List.range n).map fill), .region first n)
  | .read index => (m, .element (if index < m.getSize then some (m.get index) else none))
  | .getSize => (m, .count m.getSize)
  | .getSpace => (m, .count m.getSpace)
  | .getCapacity => (m, .count m.capacity)
  | .empty => (m, .flag m.isEmpty)

theorem step_pushItem (m : Members α) (item : α) :
    m.step (.pushItem item) = m.step (.push [item]) := by
  rw [step, pushItem_eq, step]

theorem step_pop (m : Members α) (size : Nat) :
    m.step (.pop size) =
      ((m.drop size).1, .items (m.contents.take size) (min size m.getSize)) := by
  rw [step, pop_eq, drop_snd]

/-- What a caller has to see to: no more is reserved than there is room for. -/
def Fits (m : Members α) : Call α → Prop
  | .reserve size _ => size ≤ m.getSpace
  | _ => True

/-- A call to a list with a capacity, the answer and the list after it. -/
def FifoStep (capacity : Nat) (l : List α) : Call α × Answer α → List α → Prop
  | (.pushItem item, .count n), l' => n = min 1 (capacity - l.length) ∧ l' = l ++ [item].take n
  | (.push items, .count n), l' =>
    n = min items.length (capacity - l.length) ∧ l' = l ++ items.take n
  | (.pop size, .items items n), l' =>
    (items = l.take size ∧ n = min size l.length) ∧ l' = l.drop size
  | (.drop size, .count n), l' => n = min size l.length ∧ l' = l.drop size
  | (.clear, .done), l' => l' = []
  | (.reserve size fill, .region _ n), l' =>
    (n ≤ size ∧ n ≤ capacity - l.length ∧ (0 < size → 0 < n)) ∧ l' = l ++ (List.range n).map fill
  | (.read index, .element item), l' => item = l[index]? ∧ l' = l
  | (.getSize, .count n), l' => n = l.length ∧ l' = l
  | (.getSpace, .count n), l' => n = capacity - l.length ∧ l' = l
  | (.getCapacity, .count n), l' => n = capacity ∧ l' = l
  | (.empty, .flag value), l' => (value = true ↔ l = []) ∧ l' = l
  | _, _ => False

/-- No call takes the list beyond the capacity. -/
theorem FifoStep.length_le {capacity : Nat} {l l' : List α} {event : Call α × Answer α}
    (h : FifoStep capacity l event l') (hl : l.length ≤ capacity) : l'.length ≤ capacity := by
  obtain ⟨call, answer⟩ := event
  have hgrow : ∀ items : List α, items.length ≤ capacity - l.length →
      (l ++ items).length ≤ capacity := by
    intro items hitems
    rw [List.length_append]
    omega
  have hshrink : ∀ n, (l.drop n).length ≤ capacity := by
    intro n
    rw [List.length_drop]
    omega
  cases call <;> cases answer <;> try exact absurd h id
  case pushItem.count item n =>
    obtain ⟨rfl, rfl⟩ := h
    refine hgrow _ ?_
    rw [List.length_take]
    omega
  case push.count items n =>
    obtain ⟨rfl, rfl⟩ := h
    refine hgrow _ ?_
    rw [List.length_take]
    omega
  case reserve.region size fill first n =>
    obtain ⟨⟨_, hn, _⟩, rfl⟩ := h
    refine hgrow _ ?_
    rwa [List.length_map, List.length_range]
  case pop.items size items n => exact h.2 ▸ hshrink size
  case drop.count size n => exact h.2 ▸ hshrink size
  case clear.done => exact (show l' = [] from h) ▸ Nat.zero_le capacity
  case read.element => exact h.2 ▸ hl
  case getSize.count => exact h.2 ▸ hl
  case getSpace.count => exact h.2 ▸ hl
  case getCapacity.count => exact h.2 ▸ hl
  case empty.flag => exact h.2 ▸ hl

/-! ## Runs -/

/-- `m` shows its user the list. -/
structure Shows (capacity : Nat) (m : Members α) (l : List α) : Prop where
  contents : m.contents = l
  capacity_eq : m.capacity = capacity
  flagged : Flagged m

theorem Shows.extend {capacity n : Nat} {m m' : Members α} {l items : List α}
    (h : Shows capacity m l) (hext : Extends m n m')
    (hcontents : m'.contents = m.contents ++ items) : Shows capacity m' (l ++ items) :=
  ⟨by rw [hcontents, h.contents], hext.capacity.trans h.capacity_eq, hext.flagged h.flagged⟩

/-- Every call is one of the list. -/
theorem Shows.step {capacity : Nat} {m : Members α} {l : List α} (h : Shows capacity m l)
    (call : Call α) (hfits : Fits m call) :
    ∃ l', FifoStep capacity l (call, (m.step call).2) l' ∧ Shows capacity (m.step call).1 l' := by
  have hsize : m.getSize = l.length := by rw [← h.contents, length_contents]
  have hspace : m.getSpace = capacity - l.length := by rw [Members.getSpace, h.capacity_eq, hsize]
  have hpush : ∀ items : List α, (m.push items).2 = min items.length (capacity - l.length) ∧
      Shows capacity (m.push items).1 (l ++ items.take (m.push items).2) := fun items =>
    ⟨by rw [m.push_snd items, hspace], h.extend (m.push_extends items) (m.contents_push items)⟩
  have hdrop : ∀ size, Shows capacity (m.drop size).1 (l.drop size) := fun size =>
    ⟨by rw [contents_drop, h.contents], h.capacity_eq, h.flagged.drop size⟩
  cases call with
  | pushItem item =>
    rw [step_pushItem]
    exact ⟨_, ⟨(hpush [item]).1, rfl⟩, (hpush [item]).2⟩
  | push items => exact ⟨_, ⟨(hpush items).1, rfl⟩, (hpush items).2⟩
  | pop size =>
    rw [step_pop, h.contents, hsize]
    exact ⟨_, ⟨⟨rfl, rfl⟩, rfl⟩, hdrop size⟩
  | drop size => exact ⟨_, ⟨hsize ▸ m.drop_snd size, rfl⟩, hdrop size⟩
  | clear => exact ⟨[], rfl, m.contents_clear, h.capacity_eq, fun _ => rfl⟩
  | reserve size fill =>
    have htail := m.tail_lt
    have hn : (m.reserve size).2.2 = min size (m.capacity - m.tail) := by rw [reserve_snd]
    have hfree : (m.reserve size).2.2 ≤ m.getSpace := by
      have : size ≤ m.getSpace := hfits
      omega
    have hregion : (m.reserve size).2.2 ≤ size ∧ (m.reserve size).2.2 ≤ capacity - l.length ∧
        (0 < size → 0 < (m.reserve size).2.2) := by omega
    have hlen : ((List.range (m.reserve size).2.2).map fill).length = (m.reserve size).2.2 := by
      rw [List.length_map, List.length_range]
    have hshows := h.extend (m.reserve_store_extends size _)
      (m.contents_reserve_store size hfree hlen)
    exact ⟨_, ⟨hregion, rfl⟩, hshows⟩
  | read index =>
    refine ⟨l, ⟨?_, rfl⟩, h⟩
    by_cases hi : index < m.getSize
    · rw [if_pos hi, ← h.contents, m.getElem?_contents hi]
    · rw [if_neg hi, List.getElem?_eq_none (by omega)]
  | getSize => exact ⟨l, ⟨hsize, rfl⟩, h⟩
  | getSpace => exact ⟨l, ⟨hspace, rfl⟩, h⟩
  | getCapacity => exact ⟨l, ⟨h.capacity_eq, rfl⟩, h⟩
  | empty => exact ⟨l, ⟨h.contents ▸ h.flagged.eq_nil_iff, rfl⟩, h⟩


/-- Whatever calls are made to a new ring buffer, their answers are those of a list that starts
empty, and the elements stored in the end are those of the list, no more than the capacity. -/
theorem run_fifo {α : Type} (cells : Nat → α) (capacity : Nat) (calls : List (Call α))
    (hfits : Permitted step Fits (CircularBuffer.ofCapacity cells capacity).toMembers calls) :
    let start := (CircularBuffer.ofCapacity cells capacity).toMembers
    Replays (FifoStep start.capacity) [] (record step start calls)
        (after step start calls).contents ∧
      (after step start calls).contents.length ≤ start.capacity := by
  intro start
  have hstart : Shows start.capacity start [] := ⟨rfl, rfl, CircularBuffer.flagged _⟩
  obtain ⟨l, hreplays, hl⟩ := replays_record (fun _ _ call h hcall => Shows.step h call hcall)
    calls start [] hstart hfits
  rw [hl.contents]
  refine ⟨hreplays, ?_⟩
  exact replays_induction (P := fun _ l => l.length ≤ start.capacity) (Nat.zero_le _)
    (fun _ _ _ _ _ hm hstep => hstep.length_le hm) hreplays

/-- A buffer that is filled through `reserve`, emptied in part and filled again. -/
def refill : List (Call UInt8) :=
  [.push [0xAA, 0xBB], .reserve 126 fun _ => 0x55, .drop 100, .reserve 100 fun _ => 0x66, .empty]

theorem run_fifo_refill :
    let start := (CircularBuffer.ofCapacity (fun _ => (0 : UInt8)) 0).toMembers
    Replays (FifoStep 128) [] (record step start refill) (after step start refill).contents ∧
      (after step start refill).contents.length ≤ 128 :=
  run_fifo (fun _ => 0) 0 refill
    ⟨trivial, Nat.le_of_ble_eq_true rfl, trivial, Nat.le_of_ble_eq_true rfl, trivial, trivial⟩

end Members
end HaierProtocol
