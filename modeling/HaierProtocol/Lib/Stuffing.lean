import Mathlib.Data.List.Basic
import Mathlib.Data.List.Infix

/-!
# Escape stuffing

Over any alphabet with a `mark` and a distinct escape symbol `esc`, `stuff` puts an
escape after every mark.  A stuffed word then has no two marks in a row and does not end in
one, so a pair of marks can delimit frames.

`unstuff` reads a word symbol by symbol, its flag telling whether the symbol before
was a mark, and fails on a mark that no escape follows; `accepted` is how far it gets.
Every symbol other than a mark completes one symbol of the source word, so `completed`
counts how much of that word has arrived (`completed_stuff`, `completed_lt`).
-/

namespace Stuffing

variable {α : Type} [DecidableEq α] (mark esc : α)

def stuff : List α → List α
  | [] => []
  | a :: l => if a = mark then a :: esc :: stuff l else a :: stuff l

def unstuff : Bool → List α → Option (List α)
  | _, [] => some []
  | false, a :: l => (unstuff (a = mark) l).map (a :: ·)
  | true, a :: l => if a = esc then unstuff false l else none

/-- The number of symbols read before the first that should have been an escape. -/
def accepted : Bool → List α → Nat
  | _, [] => 0
  | false, a :: l => accepted (a = mark) l + 1
  | true, a :: l => if a = esc then accepted false l + 1 else 0

/-- The number of source symbols a word completes. -/
def completed (l : List α) : Nat := l.countP (· ≠ mark)

/-! ## Counting -/

@[simp] theorem completed_nil : completed mark ([] : List α) = 0 := rfl

theorem completed_append (l m : List α) :
    completed mark (l ++ m) = completed mark l + completed mark m := List.countP_append

theorem completed_cons (a : α) (l : List α) :
    completed mark (a :: l) = if a = mark then completed mark l else completed mark l + 1 := by
  by_cases h : a = mark <;> simp [completed, h]

theorem completed_le_length (l : List α) : completed mark l ≤ l.length := List.countP_le_length

/-- Marks are what the count leaves out. -/
theorem completed_add_count (l : List α) : completed mark l + l.count mark = l.length := by
  induction l with
  | nil => rfl
  | cons a l ih =>
    rw [completed_cons, List.count_cons, List.length_cons]
    by_cases h : a = mark
    · simp [h]
      omega
    · simp [h]
      omega

theorem completed_mono {l m : List α} (h : l <+: m) : completed mark l ≤ completed mark m := by
  obtain ⟨t, rfl⟩ := h
  rw [completed_append]
  exact Nat.le_add_right _ _

theorem completed_drop_le (l : List α) (n : Nat) :
    completed mark (l.drop n) ≤ completed mark l := by
  conv_rhs => rw [← List.take_append_drop n l, completed_append]
  exact Nat.le_add_left _ _

/-- A word that ends in no mark completes a symbol. -/
theorem completed_pos {l : List α} (hne : l ≠ []) (hlast : l.getLast? ≠ some mark) :
    0 < completed mark l := by
  rw [List.getLast?_eq_some_getLast hne] at hlast
  refine List.countP_pos_iff.mpr ⟨l.getLast hne, List.getLast_mem hne, ?_⟩
  exact decide_eq_true fun heq => hlast (congrArg some heq)

/-! ## Stuffed words -/

theorem stuff_append (l m : List α) :
    stuff mark esc (l ++ m) = stuff mark esc l ++ stuff mark esc m := by
  induction l with
  | nil => rfl
  | cons a l ih =>
    rw [List.cons_append, stuff, stuff, ih]
    split <;> rfl

theorem length_stuff (l : List α) : (stuff mark esc l).length = l.length + l.count mark := by
  induction l with
  | nil => rfl
  | cons a l ih =>
    rw [stuff]
    by_cases h : a = mark
    · rw [if_pos h, h]
      simp only [List.length_cons, List.count_cons_self, ih]
      omega
    · rw [if_neg h, List.count_cons_of_ne h]
      simp only [List.length_cons, ih]
      omega

variable {mark esc}

theorem completed_stuff (hne : esc ≠ mark) (l : List α) :
    completed mark (stuff mark esc l) = l.length := by
  induction l with
  | nil => rfl
  | cons a l ih =>
    rw [stuff]
    by_cases h : a = mark
    · rw [if_pos h, completed_cons, if_pos h, completed_cons, if_neg hne, ih]
      rfl
    · rw [if_neg h, completed_cons, if_neg h, ih]
      rfl

theorem unstuff_stuff_append (mark esc : α) (l m : List α) :
    unstuff mark esc false (stuff mark esc l ++ m) = (unstuff mark esc false m).map (l ++ ·) := by
  induction l with
  | nil => simp [stuff]
  | cons a l ih =>
    rw [stuff]
    by_cases h : a = mark
    · rw [if_pos h, List.cons_append, List.cons_append, unstuff, decide_eq_true h, unstuff,
        if_pos rfl, ih, Option.map_map]
      rfl
    · rw [if_neg h, List.cons_append, unstuff, decide_eq_false h, ih, Option.map_map]
      rfl

theorem unstuff_stuff (l : List α) :
    unstuff mark esc false (stuff mark esc l) = some l := by
  have h := unstuff_stuff_append mark esc l []
  rwa [List.append_nil, unstuff, Option.map_some, List.append_nil] at h

/-- A word that is read to the end and does not stop at a mark is the stuffing of
what was read. -/
theorem eq_stuff_of_unstuff : ∀ (l x : List α), unstuff mark esc false l = some x →
    l.getLast? ≠ some mark → l = stuff mark esc x
  | [], x, h, _ => by
    have hx : x = [] := by simpa [unstuff] using h.symm
    rw [hx]
    rfl
  | [a], x, h, hlast => by
    have ha : a ≠ mark := by simpa using hlast
    have hx : x = [a] := by simpa [unstuff, ha] using h.symm
    rw [hx, stuff, if_neg ha]
    rfl
  | a :: b :: l, x, h, hlast => by
    rw [unstuff, Option.map_eq_some_iff] at h
    obtain ⟨y, hy, rfl⟩ := h
    by_cases ha : a = mark
    · rw [decide_eq_true ha, unstuff] at hy
      split at hy
      · rename_i hb
        have hl : l.getLast? ≠ some mark := by
          cases l with
          | nil => simp
          | cons c l => simpa using hlast
        rw [stuff, if_pos ha, hb, ← eq_stuff_of_unstuff l y hy hl]
      · simp at hy
    · rw [decide_eq_false ha] at hy
      rw [stuff, if_neg ha, ← eq_stuff_of_unstuff (b :: l) y hy (by simpa using hlast)]

theorem getLast?_stuff (hne : esc ≠ mark) (l : List α) :
    (stuff mark esc l).getLast? ≠ some mark := by
  induction l with
  | nil => simp [stuff]
  | cons a l ih =>
    rw [stuff]
    cases hs : stuff mark esc l with
    | nil => by_cases h : a = mark <;> simp [h, hne]
    | cons b m =>
      rw [hs] at ih
      by_cases h : a = mark <;> simpa [h] using ih

/-- Only a whole stuffed word completes all its symbols. -/
theorem completed_lt (hne : esc ≠ mark) {l p s : List α} (h : stuff mark esc l = p ++ s)
    (hs : s ≠ []) : completed mark p < l.length := by
  have hlast : s.getLast hs ≠ mark := by
    intro he
    apply getLast?_stuff hne l
    rw [h, List.getLast?_append_of_ne_nil _ hs, List.getLast?_eq_some_getLast hs, he]
  have hcount := completed_stuff hne l
  rw [h, completed_append, ← List.dropLast_append_getLast hs, completed_append, completed_cons,
    if_neg hlast, completed_nil] at hcount
  omega

/-- The symbol that completes the last source symbol is the last of the stuffed word. -/
theorem take_eq_stuff (hne : esc ≠ mark) {w rest : List α} {n : Nat}
    (hbefore : completed mark ((stuff mark esc w ++ rest).take n) < w.length)
    (hafter : completed mark ((stuff mark esc w ++ rest).take (n + 1)) = w.length) :
    n + 1 = (stuff mark esc w).length := by
  by_contra hlen
  by_cases hlt : n + 1 < (stuff mark esc w).length
  · rw [List.take_append_of_le_length (Nat.le_of_lt hlt)] at hafter
    have hdrop : (stuff mark esc w).drop (n + 1) ≠ [] := by
      intro hnil
      have := List.drop_eq_nil_iff.mp hnil
      omega
    have := completed_lt hne (List.take_append_drop (n + 1) (stuff mark esc w)).symm hdrop
    omega
  · have hpre : stuff mark esc w <+: (stuff mark esc w ++ rest).take n := by
      rw [List.take_append, List.take_of_length_le (by omega)]
      exact List.prefix_append _ _
    have := completed_mono mark hpre
    rw [completed_stuff hne] at this
    omega

/-! ## Rejected words -/

theorem accepted_le (mark esc : α) (flag : Bool) (l : List α) :
    accepted mark esc flag l ≤ l.length := by
  induction l generalizing flag with
  | nil => cases flag <;> exact Nat.le_refl 0
  | cons a l ih =>
    cases flag with
    | false =>
      have := ih (a = mark)
      simp only [accepted, List.length_cons]
      omega
    | true =>
      have := ih false
      rw [accepted]
      split
      · simp only [List.length_cons]
        omega
      · exact Nat.zero_le _

/-- Reading fails exactly where it stops short of the end. -/
theorem accepted_lt_iff (mark esc : α) (flag : Bool) (l : List α) :
    accepted mark esc flag l < l.length ↔ unstuff mark esc flag l = none := by
  induction l generalizing flag with
  | nil => cases flag <;> simp [accepted, unstuff]
  | cons a l ih =>
    cases flag with
    | false => simp [accepted, unstuff, ih]
    | true =>
      rw [accepted, unstuff]
      by_cases h : a = esc <;> simp [h, ih]

/-- How far a word is read does not depend on what comes later. -/
theorem accepted_take (mark esc : α) (flag : Bool) (l : List α) (n : Nat) :
    accepted mark esc flag (l.take n) = min n (accepted mark esc flag l) := by
  induction l generalizing flag n with
  | nil => cases flag <;> simp [accepted]
  | cons a l ih =>
    cases n with
    | zero => cases flag <;> simp [accepted]
    | succ n =>
      rw [List.take_succ_cons]
      cases flag with
      | false => rw [accepted, accepted, ih, Nat.succ_min_succ]
      | true =>
        rw [accepted, accepted]
        by_cases h : a = esc
        · rw [if_pos h, if_pos h, ih, Nat.succ_min_succ]
        · rw [if_neg h, if_neg h, Nat.min_zero]

/-- A stuffed word is read to the end of any of its beginnings. -/
theorem le_accepted_of_prefix {w p s l : List α} (h : stuff mark esc w = p ++ s)
    (hl : l.take p.length = p) : p.length ≤ accepted mark esc false l := by
  have hfull : accepted mark esc false (stuff mark esc w) = (stuff mark esc w).length := by
    have hle := accepted_le mark esc false (stuff mark esc w)
    have hlt := (accepted_lt_iff mark esc false (stuff mark esc w)).not.mpr
      (by rw [unstuff_stuff]; exact Option.some_ne_none w)
    omega
  have hstuff := accepted_take mark esc false (stuff mark esc w) p.length
  have hword := accepted_take mark esc false l p.length
  rw [hfull, h, List.take_left, List.length_append] at hstuff
  rw [hl] at hword
  omega

/-- A mark that no escape follows stops the reading no later than right after it. -/
theorem unstuff_pair (hne : esc ≠ mark) {b : α} (hb : b ≠ esc) (s : List α) :
    ∀ (flag : Bool) (p : List α), unstuff mark esc flag (p ++ mark :: b :: s) = none ∧
      accepted mark esc flag (p ++ mark :: b :: s) ≤ p.length + 1 := by
  intro flag p
  induction p generalizing flag with
  | nil => cases flag <;> simp [unstuff, accepted, hb, Ne.symm hne]
  | cons a p ih =>
    cases flag with
    | false =>
      obtain ⟨h1, h2⟩ := ih (a = mark)
      rw [List.cons_append, unstuff, h1, accepted]
      exact ⟨rfl, by simp only [List.length_cons]; omega⟩
    | true =>
      obtain ⟨h1, h2⟩ := ih false
      rw [List.cons_append, unstuff, accepted]
      split
      · exact ⟨h1, by simp only [List.length_cons]; omega⟩
      · exact ⟨rfl, Nat.zero_le _⟩

/-- The same, by positions. -/
theorem unstuff_pair_at (hne : esc ≠ mark) {l : List α} {i : Nat} (h : l[i]? = some mark)
    (hnext : l[i + 1]? = some mark) (flag : Bool) :
    unstuff mark esc flag l = none ∧ accepted mark esc flag l ≤ i + 1 := by
  obtain ⟨hi, hmark⟩ := List.getElem?_eq_some_iff.mp hnext
  obtain ⟨hi', hmark'⟩ := List.getElem?_eq_some_iff.mp h
  have hsplit : l = l.take i ++ mark :: mark :: l.drop (i + 1 + 1) := by
    have h2 := List.drop_eq_getElem_cons hi
    have h1 := List.drop_eq_getElem_cons hi'
    rw [hmark] at h2
    rw [hmark', h2] at h1
    rw [← h1, List.take_append_drop]
  have hpair := unstuff_pair hne (Ne.symm hne) (l.drop (i + 1 + 1)) flag (l.take i)
  rw [← hsplit, List.length_take, Nat.min_eq_left (Nat.le_of_lt hi')] at hpair
  exact hpair

end Stuffing
