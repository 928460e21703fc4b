import HaierProtocol.Lib.Stuffing

/-!
# Delimited words

Two marks announce a word, whose stuffing follows.  When words that do not begin with a mark
are sent one after another, two marks in a row stand only where a word begins
(`begins_of_marks`).  What begins there can be told from its length alone
(`eq_of_stuff_prefix`).
-/

namespace Stuffing

variable {α : Type} [DecidableEq α] {mark esc : α}

/-- Two marks, and the stuffed word. -/
def delimit (mark esc : α) (w : List α) : List α := [mark, mark] ++ stuff mark esc w

/-- The word has a first symbol, and that is no mark. -/
def Plain (mark : α) (w : List α) : Prop := ∃ a rest, w = a :: rest ∧ a ≠ mark

/-- Two stuffings that begin in one place and stand for words of one length are the same. -/
theorem eq_of_stuff_prefix (hne : esc ≠ mark) {x y l : List α} (hlen : x.length = y.length)
    (hx : stuff mark esc x <+: l) (hy : stuff mark esc y <+: l) : x = y := by
  have hhalf : ∀ {u v : List α}, u.length = v.length →
      stuff mark esc u <+: stuff mark esc v → u = v := by
    rintro u v huv ⟨s, hs⟩
    have hnil : s = [] := by
      by_contra hs'
      have hlt := completed_lt hne hs.symm hs'
      rw [completed_stuff hne] at hlt
      omega
    rw [hnil, List.append_nil] at hs
    have hu := @unstuff_stuff α _ mark esc u
    rw [hs, unstuff_stuff] at hu
    exact (Option.some_inj.mp hu).symm
  rcases List.prefix_or_prefix_of_prefix hx hy with h | h
  · exact hhalf hlen h
  · exact (hhalf hlen.symm h).symm

/-- In a stuffed word another symbol follows every mark. -/
theorem ne_mark_of_stuff (hne : esc ≠ mark) {w : List α} {i : Nat}
    (h : (stuff mark esc w)[i]? = some mark) :
    ∃ b, (stuff mark esc w)[i + 1]? = some b ∧ b ≠ mark := by
  obtain ⟨hi, hmark⟩ := List.getElem?_eq_some_iff.mp h
  have hnext : i + 1 < (stuff mark esc w).length := by
    by_contra hlast
    refine @getLast?_stuff α _ mark esc hne w ?_
    rw [List.getLast?_eq_getElem?, show (stuff mark esc w).length - 1 = i by omega]
    exact h
  refine ⟨(stuff mark esc w)[i + 1], List.getElem?_eq_getElem hnext, ?_⟩
  intro hb
  have hget : (stuff mark esc w)[i + 1]? = some mark := by
    rw [List.getElem?_eq_getElem hnext, hb]
  have hpair := unstuff_pair_at hne h hget false
  rw [unstuff_stuff] at hpair
  exact Option.some_ne_none _ hpair.1

/-- Two marks in a row do not stand inside a word. -/
theorem eq_zero_of_marks (hne : esc ≠ mark) {w : List α} (hw : Plain mark w) (rest : List α)
    {i : Nat} (hi : i < (delimit mark esc w).length)
    (hmark : (delimit mark esc w ++ rest)[i]? = some mark)
    (hnext : (delimit mark esc w ++ rest)[i + 1]? = some mark) : i = 0 := by
  obtain ⟨a, tail, rfl, ha⟩ := hw
  have hstuff : stuff mark esc (a :: tail) = a :: stuff mark esc tail := if_neg ha
  have hword : delimit mark esc (a :: tail) ++ rest =
      mark :: mark :: (stuff mark esc (a :: tail) ++ rest) := rfl
  rw [hword] at hmark hnext
  match i with
  | 0 => rfl
  | 1 =>
    rw [hstuff] at hnext
    exact absurd (Option.some_inj.mp hnext) ha
  | k + 2 =>
    have hk : k < (stuff mark esc (a :: tail)).length := by
      simp only [delimit, List.length_append, List.length_cons, List.length_nil] at hi
      omega
    rw [List.getElem?_cons_succ, List.getElem?_cons_succ, List.getElem?_append_left hk] at hmark
    obtain ⟨b, hb, hbmark⟩ := ne_mark_of_stuff hne hmark
    have hk' := (List.getElem?_eq_some_iff.mp hb).1
    rw [List.getElem?_cons_succ, List.getElem?_cons_succ, List.getElem?_append_left hk',
      hb] at hnext
    exact absurd (Option.some_inj.mp hnext) hbmark

/-- Two marks in a row stand only where a word begins. -/
theorem begins_of_marks (hne : esc ≠ mark) : ∀ {words : List (List α)} {i : Nat},
    (∀ w ∈ words, Plain mark w) → (words.flatMap (delimit mark esc))[i]? = some mark →
    (words.flatMap (delimit mark esc))[i + 1]? = some mark →
    ∃ before w after, words = before ++ w :: after ∧
      i = (before.flatMap (delimit mark esc)).length
  | [], _, _, hmark, _ => nomatch hmark
  | w :: rest, i, hwords, hmark, hnext => by
    rw [List.flatMap_cons] at hmark hnext
    by_cases hi : i < (delimit mark esc w).length
    · have hzero := eq_zero_of_marks hne (hwords w List.mem_cons_self) _ hi hmark hnext
      exact ⟨[], w, rest, rfl, hzero⟩
    · rw [List.getElem?_append_right (by omega)] at hmark hnext
      rw [Nat.sub_add_comm (by omega)] at hnext
      obtain ⟨before, v, after, hrest, hlen⟩ := begins_of_marks hne
        (fun v hv => hwords v (List.mem_cons_of_mem w hv)) hmark hnext
      refine ⟨w :: before, v, after, by rw [hrest, List.cons_append], ?_⟩
      rw [List.flatMap_cons, List.length_append]
      omega

end Stuffing
