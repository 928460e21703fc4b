import HaierProtocol.Lib.Exchange

/-!
# What a handler yields

`Yields x s b s' answers` says what `x` does in the state `s`, whatever has been read and answered
before: it returns `b`, leaves the state `s'` and sends `answers`.  `Sends P x` says less, and of
every state: all answers that `x` sends have `P`.  There is a rule for each way to write a handler.
-/

namespace Exchange

variable {σ α β γ : Type}

def Yields (x : Handling σ α β) (s : σ) (b : β) (s' : σ) (answers : List α) : Prop :=
  ∀ t, t.state = s →
    (x.run t).1 = b ∧ (x.run t).2.state = s' ∧ (x.run t).2.answers = t.answers ++ answers

namespace Yields

variable {s m s' : σ} {b : β} {c : γ} {answers more : List α}

theorem pure (b : β) (s : σ) : Yields (α := α) (Pure.pure b) s b s [] :=
  fun t ht => ⟨rfl, ht, (List.append_nil t.answers).symm⟩

theorem read (payload : Nat → β) (i : Nat) (s : σ) :
    Yields (α := α) (Exchange.read payload i) s (payload i) s [] :=
  fun t ht => ⟨rfl, ht, (List.append_nil t.answers).symm⟩

theorem answer (a : α) (s : σ) : Yields (Exchange.answer a) s () s [a] :=
  fun _ ht => ⟨rfl, ht, rfl⟩

theorem getState (s : σ) : Yields (α := α) getState s s s [] :=
  fun t ht => ⟨ht, ht, (List.append_nil t.answers).symm⟩

theorem modifyState (change : σ → σ) (s : σ) :
    Yields (α := α) (modifyState change) s () (change s) [] :=
  fun t ht => ⟨rfl, congrArg change ht, (List.append_nil t.answers).symm⟩

theorem bind {x : Handling σ α β} {k : β → Handling σ α γ} (hx : Yields x s b m answers)
    (hk : Yields (k b) m c s' more) : Yields (x >>= k) s c s' (answers ++ more) := by
  intro t ht
  obtain ⟨hvalue, hstate, hanswers⟩ := hx t ht
  obtain ⟨hvalue', hstate', hanswers'⟩ := hk _ hstate
  rw [run_bind, hvalue, ← List.append_assoc, ← hanswers]
  exact ⟨hvalue', hstate', hanswers'⟩

/-- A loop whose rounds only change the state. -/
theorem forM {f : γ → Handling σ α Unit} {change : γ → σ → σ}
    (h : ∀ c s, Yields (f c) s () (change c s) []) (l : List γ) (s : σ) :
    Yields (l.forM f) s () (l.foldl (fun s c => change c s) s) [] := by
  induction l generalizing s with
  | nil => exact pure () s
  | cons c l ih => exact bind (h c s) (ih (change c s))

/-- What it does to a state of its own. -/
theorem run_eq {x : Handling σ α β} (h : Yields x s b s' answers) :
    (x.run { state := s }).1 = b ∧ (x.run { state := s }).2.state = s' ∧
      (x.run { state := s }).2.answers = answers := h { state := s } rfl

end Yields

/-! ## What is sent -/

/-- Answers that it sends have `P`. -/
def Sends (P : α → Prop) (x : Handling σ α β) : Prop :=
  ∀ t, (∀ a ∈ t.answers, P a) → ∀ a ∈ (x.run t).2.answers, P a

namespace Sends

variable {P : α → Prop}

theorem read (payload : Nat → β) (i : Nat) : Sends (σ := σ) P (Exchange.read payload i) :=
  fun _ h => h

theorem pure (b : β) : Sends (σ := σ) P (Pure.pure b) := fun _ h => h

theorem getState : Sends P (getState : Handling σ α σ) := fun _ h => h

theorem modifyState (change : σ → σ) : Sends P (modifyState change : Handling σ α Unit) :=
  fun _ h => h

theorem answer {a : α} (ha : P a) : Sends (σ := σ) P (Exchange.answer a) := by
  intro t h b hb
  rcases List.mem_append.mp hb with hb | hb
  · exact h b hb
  · rw [List.mem_singleton.mp hb]
    exact ha

theorem bind {x : Handling σ α β} {k : β → Handling σ α γ} (hx : Sends P x)
    (hk : ∀ b, Sends P (k b)) : Sends P (x >>= k) :=
  fun t h => hk (x.run t).1 (x.run t).2 (hx t h)

theorem ite {c : Prop} [Decidable c] {x y : Handling σ α β} (hx : Sends P x) (hy : Sends P y) :
    Sends P (if c then x else y) := by
  split
  · exact hx
  · exact hy

theorem forM {l : List β} {f : β → Handling σ α Unit} (h : ∀ b, Sends P (f b)) :
    Sends P (l.forM f) := by
  induction l with
  | nil => exact pure ()
  | cons b l ih => exact bind (h b) fun _ => ih

/-- The answers of a run of its own. -/
theorem run {x : Handling σ α β} (h : Sends P x) (s : σ) :
    ∀ a ∈ (x.run { state := s }).2.answers, P a :=
  h { state := s } fun _ ha => absurd ha List.not_mem_nil

end Sends

end Exchange
