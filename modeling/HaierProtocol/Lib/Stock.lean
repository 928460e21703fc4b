import Mathlib.Data.Nat.Init

/-!
# Stock and supply

A system works off a stock.  Every step that is charged takes something from the stock, which grows
by what is supplied and by nothing else.  So a run is charged for no more steps than the supply
covers (`charges_le`).
-/

namespace Stock

variable {σ ι : Type} {stock supply : σ → Nat} {n m : Nat} {s s' s'' : σ}

/-- The stock has grown by what was supplied, less `n` or more. -/
def Spends (stock supply : σ → Nat) (n : Nat) (s s' : σ) : Prop :=
  stock s' + n + supply s ≤ stock s + supply s'

theorem Spends.refl (s : σ) : Spends stock supply 0 s s := Nat.le_refl _

theorem Spends.trans (h : Spends stock supply n s s') (h' : Spends stock supply m s' s'') :
    Spends stock supply (n + m) s s'' := by
  unfold Spends at *
  omega

theorem Spends.trans_zero (h : Spends stock supply n s s') (h' : Spends stock supply 0 s' s'') :
    Spends stock supply n s s'' := h.trans h'

theorem Spends.zero_trans (h : Spends stock supply 0 s s') (h' : Spends stock supply n s' s'') :
    Spends stock supply n s s'' := by
  rw [← Nat.zero_add n]
  exact h.trans h'

theorem Spends.of_le (h : Spends stock supply n s s') (hle : m ≤ n) :
    Spends stock supply m s s' := by
  unfold Spends at *
  omega

theorem charge_le_one (p : Prop) [Decidable p] : (if p then 1 else 0) ≤ 1 := by
  split
  · exact Nat.le_refl 1
  · exact Nat.zero_le 1

/-- The number of steps that are charged. -/
def charges (step : σ → ι → σ) (charged : σ → ι → Prop) [∀ s x, Decidable (charged s x)] :
    σ → List ι → Nat
  | _, [] => 0
  | s, x :: rest => (if charged s x then 1 else 0) + charges step charged (step s x) rest

variable {step : σ → ι → σ} {charged : σ → ι → Prop} [∀ s x, Decidable (charged s x)]

/-- A run spends one for each step that is charged. -/
theorem charges_le
    (hstep : ∀ s x, Spends stock supply (if charged s x then 1 else 0) s (step s x)) :
    ∀ (steps : List ι) (s : σ),
      Spends stock supply (charges step charged s steps) s (steps.foldl step s)
  | [], s => .refl s
  | x :: rest, s => (hstep s x).trans (charges_le hstep rest (step s x))

end Stock
