import Mathlib.Logic.Function.Basic

/-!
# Blocks and their holders

A heap of blocks that are allocated, read and freed through pointers.  Holders have a pointer and a
size each.  `Exclusive` is the invariant of those that share nothing: every pointer is to a block of
the size, and no two are the same.  It survives what holders do: to allocate, to free, to move their
block to another holder, and to forget it.
-/

namespace Ownership

variable {α ι : Type}

structure Heap (α : Type) where
  blocks : Nat → Option (List α)
  next : Nat
  fresh : ∀ p, next ≤ p → blocks p = none

namespace Heap

def empty : Heap α := ⟨fun _ => none, 0, fun _ _ => rfl⟩

/-- A new block, at `next`. -/
def alloc (h : Heap α) (block : List α) : Heap α where
  blocks := Function.update h.blocks h.next (some block)
  next := h.next + 1
  fresh p hp := by rw [Function.update_of_ne (by omega), h.fresh p (by omega)]

/-- The heap without the block; a null pointer has none, and any other has to be to one. -/
def free (h : Heap α) (p : Option Nat) : Option (Heap α) :=
  match p with
  | none => some h
  | some p =>
    if (h.blocks p).isSome then some
      { blocks := Function.update h.blocks p none
        next := h.next
        fresh := fun q hq => by
          by_cases hqp : q = p
          · rw [hqp, Function.update_self]
          · rw [Function.update_of_ne hqp, h.fresh q hq] }
    else none

/-- The first `n` elements of the block.  Nothing is asked of the pointer where there are none. -/
def read (h : Heap α) (p : Option Nat) (n : Nat) : Option (List α) :=
  if n = 0 then some []
  else (p.bind h.blocks).bind fun block => if n ≤ block.length then some (block.take n) else none

theorem read_eq_none (h : Heap α) {n : Nat} (hn : n ≠ 0) : h.read none n = none := if_neg hn

end Heap

/-- No two holders have the same block, and each has one of its size. -/
structure Exclusive (h : Heap α) (held : ι → Option (Nat × Nat)) : Prop where
  block : ∀ i p n, held i = some (p, n) → ∃ block, h.blocks p = some block ∧ block.length = n
  alone : ∀ i j p m n, held i = some (p, m) → held j = some (p, n) → i = j

namespace Exclusive

variable {h h' : Heap α} {held : ι → Option (Nat × Nat)} {i j : ι} {p n : Nat}

theorem empty : Exclusive (Heap.empty : Heap α) (fun _ : ι => none) :=
  ⟨fun _ _ _ hi => (nomatch hi), fun _ _ _ _ _ hi => (nomatch hi)⟩

theorem read (hex : Exclusive h held) (hi : held i = some (p, n)) :
    ∃ block, h.read (some p) n = some block ∧ block.length = n := by
  obtain ⟨block, hblock, rfl⟩ := hex.block i p n hi
  by_cases hn : block.length = 0
  · exact ⟨[], if_pos hn, hn.symm⟩
  · refine ⟨block, ?_, rfl⟩
    rw [Heap.read, if_neg hn, Option.bind_some, hblock, Option.bind_some, if_pos (Nat.le_refl _),
      List.take_length]

variable [DecidableEq ι]

theorem drop (hex : Exclusive h held) (i : ι) : Exclusive h (Function.update held i none) := by
  have hheld : ∀ j q, Function.update held i none j = some q → held j = some q := by
    intro j q hj
    by_cases hji : j = i
    · rw [hji, Function.update_self] at hj
      cases hj
    · rwa [Function.update_of_ne hji] at hj
  exact ⟨fun j p n hj => hex.block j p n (hheld j _ hj),
    fun j k p m n hj hk => hex.alone j k p m n (hheld j _ hj) (hheld k _ hk)⟩

theorem alloc (hex : Exclusive h held) (i : ι) (block : List α) :
    Exclusive (h.alloc block) (Function.update held i (some (h.next, block.length))) := by
  have hold : ∀ j p n, held j = some (p, n) → p ≠ h.next := by
    rintro j p n hj rfl
    obtain ⟨old, hblock, -⟩ := hex.block j _ n hj
    rw [h.fresh _ (Nat.le_refl _)] at hblock
    cases hblock
  constructor
  · intro j p n hj
    by_cases hji : j = i
    · rw [hji, Function.update_self] at hj
      cases hj
      exact ⟨block, Function.update_self .., rfl⟩
    · rw [Function.update_of_ne hji] at hj
      obtain ⟨old, hblock, hlen⟩ := hex.block j p n hj
      exact ⟨old, (Function.update_of_ne (hold j p n hj) ..).trans hblock, hlen⟩
  · intro j k p m n hj hk
    by_cases hji : j = i
    · by_cases hki : k = i
      · exact hji.trans hki.symm
      · rw [hji, Function.update_self] at hj
        rw [Function.update_of_ne hki] at hk
        cases hj
        exact absurd rfl (hold k _ n hk)
    · rw [Function.update_of_ne hji] at hj
      by_cases hki : k = i
      · rw [hki, Function.update_self] at hk
        cases hk
        exact absurd rfl (hold j _ m hj)
      · rw [Function.update_of_ne hki] at hk
        exact hex.alone j k p m n hj hk

/-- A block passes from one holder to another. -/
theorem move (hex : Exclusive h held) (i j : ι) :
    Exclusive h (Function.update (Function.update held i (held j)) j none) := by
  -- Whoever holds something afterwards held it before, if `i` is taken for `j`.
  have hheld : ∀ k q, Function.update (Function.update held i (held j)) j none k = some q →
      k ≠ j ∧ held (if k = i then j else k) = some q := by
    intro k q hk
    by_cases hkj : k = j
    · rw [hkj, Function.update_self] at hk
      cases hk
    · refine ⟨hkj, ?_⟩
      rw [Function.update_of_ne hkj] at hk
      by_cases hki : k = i
      · rw [if_pos hki, ← hk, hki, Function.update_self]
      · rw [if_neg hki, ← hk, Function.update_of_ne hki]
  constructor
  · intro k p n hk
    exact hex.block _ p n (hheld k _ hk).2
  · intro k l p m n hk hl
    obtain ⟨hkj, hk⟩ := hheld k _ hk
    obtain ⟨hlj, hl⟩ := hheld l _ hl
    have hsame := hex.alone _ _ p m n hk hl
    by_cases hki : k = i
    · by_cases hli : l = i
      · exact hki.trans hli.symm
      · rw [if_pos hki, if_neg hli] at hsame
        exact absurd hsame.symm hlj
    · by_cases hli : l = i
      · rw [if_neg hki, if_pos hli] at hsame
        exact absurd hsame hkj
      · rwa [if_neg hki, if_neg hli] at hsame

/-- A holder can free what it holds. -/
theorem free (hex : Exclusive h held) (i : ι) :
    ∃ h', h.free ((held i).map Prod.fst) = some h' ∧
      Exclusive h' (Function.update held i none) := by
  cases hi : held i with
  | none => exact ⟨h, rfl, hex.drop i⟩
  | some q =>
    obtain ⟨p, n⟩ := q
    obtain ⟨block, hblock, hlen⟩ := hex.block i p n hi
    refine ⟨_, if_pos (by rw [hblock]; rfl), ?_, (hex.drop i).alone⟩
    intro j q m hj
    by_cases hji : j = i
    · rw [hji, Function.update_self] at hj
      cases hj
    · rw [Function.update_of_ne hji] at hj
      have hqp : q ≠ p := by
        rintro rfl
        exact hji (hex.alone j i q m n hj hi)
      obtain ⟨other, hother, hlen⟩ := hex.block j q m hj
      exact ⟨other, (Function.update_of_ne hqp ..).trans hother, hlen⟩

end Exclusive

end Ownership
