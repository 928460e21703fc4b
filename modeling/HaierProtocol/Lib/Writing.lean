import Mathlib.Logic.Function.Basic

/-!
# Writing into an array

A list written into the cells from a position on changes these and no others.  What an array
holds at its front grows with every list that is written behind it (`Holds.write`).
-/

namespace Writing

variable {α : Type*} {m : Nat → α} {p i : Nat} {cs text : List α}

/-- The list in the cells from `p` on. -/
def write (m : Nat → α) (p : Nat) : List α → Nat → α
  | [] => m
  | c :: cs => write (Function.update m p c) (p + 1) cs

/-- The first cells are the list. -/
def Holds (m : Nat → α) (text : List α) : Prop := ∀ i (h : i < text.length), m i = text[i]

theorem write_of_le (h : p + cs.length ≤ i) : write m p cs i = m i := by
  induction cs generalizing m p with
  | nil => rfl
  | cons c cs ih =>
    rw [List.length_cons] at h
    rw [write, ih (by omega), Function.update_of_ne (by omega)]

theorem write_append (ds : List α) :
    write m p (cs ++ ds) = write (write m p cs) (p + cs.length) ds := by
  induction cs generalizing m p with
  | nil => rfl
  | cons c cs ih =>
    rw [List.cons_append, write, write, ih, List.length_cons, Nat.add_assoc, Nat.add_comm 1]

theorem Holds.nil (m : Nat → α) : Holds m [] := fun _ h => nomatch h

theorem Holds.left {rest : List α} (h : Holds m (text ++ rest)) : Holds m text := by
  intro i hi
  rw [h i (by rw [List.length_append]; omega), List.getElem_append_left hi]

theorem Holds.write (h : Holds m text) (hp : p = text.length) (cs : List α) :
    Holds (write m p cs) (text ++ cs) := by
  induction cs generalizing m p text with
  | nil => rwa [List.append_nil]
  | cons c cs ih =>
    rw [← List.singleton_append, ← List.append_assoc]
    refine ih (fun i hi => ?_) (by simp [hp])
    rw [List.length_append, List.length_singleton] at hi
    by_cases hlast : i = p
    · subst hlast
      rw [Function.update_self, List.getElem_concat_length hp]
    · have hlt : i < text.length := by omega
      rw [Function.update_of_ne hlast, h i hlt, List.getElem_append_left hlt]

end Writing
