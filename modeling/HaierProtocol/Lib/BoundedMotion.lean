import Mathlib.Algebra.Order.Group.MinMax
import Mathlib.Order.Interval.Set.UnorderedInterval
import Mathlib.Tactic.Abel

/-!
# Bounded motion

A value that moves towards a goal by at most a given step and never past it, and a value that is
kept in an interval.
-/

namespace BoundedMotion

variable {α : Type*} [LinearOrder α]

/-- The value kept in the interval from `low` to `high`. -/
def confine (low high x : α) : α := max low (min high x)

theorem le_confine (low high x : α) : low ≤ confine low high x := le_max_left _ _

theorem confine_le {low high : α} (h : low ≤ high) (x : α) : confine low high x ≤ high :=
  max_le h (min_le_left _ _)

theorem confine_of_mem {low high x : α} (hlow : low ≤ x) (hhigh : x ≤ high) :
    confine low high x = x := by
  rw [confine, min_eq_right hhigh, max_eq_right hlow]

theorem confine_of_le {low high x : α} (hlow : low ≤ high) (hx : high ≤ x) :
    confine low high x = high := by
  rw [confine, min_eq_left hx, max_eq_right hlow]

theorem confine_le_self {low x : α} (high : α) (hlow : low ≤ x) : confine low high x ≤ x :=
  max_le hlow (min_le_right _ _)

variable [AddCommGroup α]

/-- One move towards the goal, by at most `maxStep`. -/
def approach (current goal maxStep : α) : α :=
  if current < goal then min goal (current + maxStep)
  else if goal < current then max goal (current - maxStep)
  else current

variable [IsOrderedAddMonoid α] {current goal maxStep : α}

/-- The value stays between where it was and where it goes. -/
theorem approach_mem_uIcc (hstep : 0 ≤ maxStep) :
    approach current goal maxStep ∈ Set.uIcc current goal := by
  rw [approach]
  split_ifs with hlt hgt
  · rw [Set.uIcc_of_le hlt.le]
    exact ⟨le_min hlt.le (le_add_of_nonneg_right hstep), min_le_left _ _⟩
  · rw [Set.uIcc_of_ge hgt.le]
    exact ⟨le_max_left _ _, max_le hgt.le (sub_le_self _ hstep)⟩
  · exact Set.left_mem_uIcc

theorem abs_approach_sub_le (hstep : 0 ≤ maxStep) :
    |approach current goal maxStep - current| ≤ maxStep := by
  have hbetween : approach current goal maxStep ∈ Set.uIcc current goal := approach_mem_uIcc hstep
  rw [approach] at hbetween ⊢
  split_ifs at hbetween ⊢ with hlt hgt
  · rw [Set.uIcc_of_le hlt.le] at hbetween
    rw [abs_of_nonneg (sub_nonneg.2 hbetween.1), sub_le_iff_le_add']
    exact min_le_right _ _
  · rw [Set.uIcc_of_ge hgt.le] at hbetween
    rw [abs_of_nonpos (sub_nonpos.2 hbetween.2), neg_sub, sub_le_comm]
    exact le_max_right _ _
  · rwa [sub_self, abs_zero]

/-- A move that does not arrive brings the value closer by the whole step. -/
theorem abs_approach_sub_goal (hne : approach current goal maxStep ≠ goal) :
    |approach current goal maxStep - goal| + maxStep = |current - goal| := by
  rw [approach] at hne ⊢
  split_ifs at hne ⊢ with hlt hgt
  · have hshort : current + maxStep ≤ goal := (min_choice goal _).elim (absurd · hne) fun h =>
      h ▸ min_le_left _ _
    rw [min_eq_right hshort, abs_of_nonpos (sub_nonpos.2 hshort), abs_of_neg (sub_neg.2 hlt)]
    abel
  · have hshort : goal ≤ current - maxStep := (max_choice goal _).elim (absurd · hne) fun h =>
      h ▸ le_max_left _ _
    rw [max_eq_right hshort, abs_of_nonneg (sub_nonneg.2 hshort), abs_of_pos (sub_pos.2 hgt)]
    abel
  · exact absurd (le_antisymm (not_lt.1 hgt) (not_lt.1 hlt)) hne

/-- Keeping a value in the interval brings it no further from a point of the interval. -/
theorem abs_confine_sub_le {low high y : α} (hlow : low ≤ y) (hhigh : y ≤ high) (x : α) :
    |confine low high x - y| ≤ |x - y| := by
  calc |confine low high x - y|
      = |max (min x high) low - max (min y high) low| := by
        rw [confine, min_eq_left hhigh, max_eq_left hlow, max_comm, min_comm]
    _ ≤ |min x high - min y high| := abs_max_sub_max_le_abs _ _ _
    _ ≤ |x - y| := by simpa using abs_min_sub_min_le_max x high y high

end BoundedMotion
