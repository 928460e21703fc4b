import Mathlib.Logic.Basic

/-!
# While loops with a bound on the iterations

`run cond body fuel s` is `while cond do body` started from `s`, cut off after
`fuel` iterations.  A measure that every iteration decreases makes the bound
harmless: `run_exit` says the loop has ended on its own, and `run_fuel` that the
result does not depend on the bound.  `run_invariant` and `run_related` are the
two rules the proofs about a particular loop use.  `emitted` collects what the iterations
put out, and `run_emitted` is the rule for both.  In `tryRun` an iteration may fail, and so does
the loop where the bound cuts it off: `tryRun_eq` is the rule for a loop that never does either.
-/

namespace BoundedLoop

variable {σ τ β ε : Type}

/-- `while cond do body`, cut off after `fuel` iterations. -/
def run (cond : σ → Bool) (body : σ → σ) : Nat → σ → σ
  | 0, s => s
  | fuel + 1, s => if cond s then run cond body fuel (body s) else s

/-- What the iterations put out, in order. -/
def emitted (cond : σ → Bool) (body : σ → σ) (out : σ → List β) : Nat → σ → List β
  | 0, _ => []
  | fuel + 1, s => if cond s then out s ++ emitted cond body out fuel (body s) else []

/-- The loop with iterations that may fail.  If it has not ended after `fuel` of them, that is
`endless`. -/
def tryRun (cond : σ → Bool) (body : σ → Except ε σ) (endless : ε) : Nat → σ → Except ε σ
  | 0, s => if cond s then .error endless else .ok s
  | fuel + 1, s => if cond s then (body s).bind (tryRun cond body endless fuel) else .ok s

variable {cond : σ → Bool} {body : σ → σ}

theorem run_done {s : σ} (h : cond s = false) (fuel : Nat) : run cond body fuel s = s := by
  cases fuel with
  | zero => rfl
  | succ fuel => simp [run, h]

theorem run_step {s : σ} (h : cond s = true) (fuel : Nat) :
    run cond body (fuel + 1) s = run cond body fuel (body s) := by
  rw [run, if_pos h]

/-- What every iteration keeps, the loop keeps. -/
theorem run_invariant {P : σ → Prop} (hstep : ∀ s, cond s = true → P s → P (body s)) :
    ∀ (fuel : Nat) (s : σ), P s → P (run cond body fuel s) := by
  intro fuel
  induction fuel with
  | zero => exact fun _ h => h
  | succ fuel ih =>
    intro s hs
    by_cases hc : cond s = true
    · rw [run_step hc]
      exact ih _ (hstep s hc hs)
    · rw [run_done (by simpa using hc)]
      exact hs

/-- Two loops whose iterations stay related end related. -/
theorem run_related {cond' : τ → Bool} {body' : τ → τ} {R : σ → τ → Prop}
    (hcond : ∀ s t, R s t → cond s = cond' t)
    (hstep : ∀ s t, cond s = true → R s t → R (body s) (body' t)) :
    ∀ (fuel : Nat) (s : σ) (t : τ), R s t → R (run cond body fuel s) (run cond' body' fuel t) := by
  intro fuel
  induction fuel with
  | zero => exact fun _ _ h => h
  | succ fuel ih =>
    intro s t h
    have hst := hcond s t h
    by_cases hc : cond s = true
    · rw [run_step hc, run_step (by rw [← hst]; exact hc)]
      exact ih _ _ (hstep s t hc h)
    · have hf : cond s = false := by simpa using hc
      rw [run_done hf, run_done (by rw [← hst]; exact hf)]
      exact h

/-- Two loops whose iterations stay related put out the same. -/
theorem emitted_related {cond' : τ → Bool} {body' : τ → τ} {R : σ → τ → Prop} {out : σ → List β}
    {out' : τ → List β} (hcond : ∀ s t, R s t → cond s = cond' t)
    (hstep : ∀ s t, cond s = true → R s t → R (body s) (body' t))
    (hout : ∀ s t, cond s = true → R s t → out s = out' t) :
    ∀ (fuel : Nat) (s : σ) (t : τ), R s t →
      emitted cond body out fuel s = emitted cond' body' out' fuel t := by
  intro fuel
  induction fuel with
  | zero => exact fun _ _ _ => rfl
  | succ fuel ih =>
    intro s t h
    rw [emitted, emitted, ← hcond s t h]
    by_cases hc : cond s = true
    · rw [if_pos hc, if_pos hc, hout s t hc h, ih _ _ (hstep s t hc h)]
    · rw [if_neg hc, if_neg hc]

/-- What every iteration keeps of the state and of all that has been put out. -/
theorem run_emitted {out : σ → List β} {Q : σ → List β → Prop}
    (hstep : ∀ s l, cond s = true → Q s l → Q (body s) (l ++ out s)) :
    ∀ (fuel : Nat) (s : σ) (l : List β), Q s l →
      Q (run cond body fuel s) (l ++ emitted cond body out fuel s) := by
  intro fuel
  induction fuel with
  | zero =>
    intro s l h
    rw [emitted, List.append_nil]
    exact h
  | succ fuel ih =>
    intro s l h
    rw [run, emitted]
    by_cases hc : cond s = true
    · rw [if_pos hc, if_pos hc, ← List.append_assoc]
      exact ih _ _ (hstep s l hc h)
    · rw [if_neg hc, if_neg hc, List.append_nil]
      exact h

/-- A log that every iteration extends by what it puts out is extended by all of it. -/
theorem log_run {P : σ → Prop} (log out : σ → List β)
    (hstep : ∀ s, cond s = true → P s → P (body s))
    (hlog : ∀ s, cond s = true → P s → log (body s) = log s ++ out s) :
    ∀ (fuel : Nat) (s : σ), P s →
      log (run cond body fuel s) = log s ++ emitted cond body out fuel s := by
  intro fuel
  induction fuel with
  | zero => exact fun _ _ => (List.append_nil _).symm
  | succ fuel ih =>
    intro s hs
    rw [run, emitted]
    by_cases hc : cond s = true
    · rw [if_pos hc, if_pos hc, ih _ (hstep s hc hs), hlog s hc hs, List.append_assoc]
    · rw [if_neg hc, if_neg hc, List.append_nil]

section Try

variable {tryCond : τ → Bool} {tryBody : τ → Except ε τ} {endless : ε}

theorem tryRun_ok {t t' : τ} (hc : tryCond t = true) (h : tryBody t = .ok t') (fuel : Nat) :
    tryRun tryCond tryBody endless (fuel + 1) t = tryRun tryCond tryBody endless fuel t' := by
  rw [tryRun, if_pos hc, h]
  rfl

theorem tryRun_error {t : τ} {error : ε} (hc : tryCond t = true) (h : tryBody t = .error error)
    (fuel : Nat) : tryRun tryCond tryBody endless (fuel + 1) t = .error error := by
  rw [tryRun, if_pos hc, h]
  rfl

theorem tryRun_done {t : τ} (hc : tryCond t = false) (fuel : Nat) :
    tryRun tryCond tryBody endless fuel t = .ok t := by
  cases fuel with
  | zero => rw [tryRun, hc, if_neg Bool.false_ne_true]
  | succ fuel => rw [tryRun, hc, if_neg Bool.false_ne_true]

end Try

section Measure

variable {P : σ → Prop} {μ : σ → Nat}
  (hstep : ∀ s, cond s = true → P s → P (body s))
  (hdec : ∀ s, cond s = true → P s → μ (body s) < μ s)
include hstep hdec

/-- With at least as many iterations as the measure allows, the loop ends on its
own. -/
theorem run_exit : ∀ (fuel : Nat) (s : σ), P s → μ s ≤ fuel →
    cond (run cond body fuel s) = false := by
  intro fuel
  induction fuel with
  | zero =>
    intro s hs hμ
    by_cases hc : cond s = true
    · have := hdec s hc hs
      omega
    · simpa [run] using hc
  | succ fuel ih =>
    intro s hs hμ
    by_cases hc : cond s = true
    · rw [run_step hc]
      have := hdec s hc hs
      exact ih _ (hstep s hc hs) (by omega)
    · have hf : cond s = false := by simpa using hc
      rw [run_done hf]
      exact hf

/-- Any two sufficient bounds give the same result. -/
theorem run_fuel : ∀ (m n : Nat) (s : σ), P s → μ s ≤ m → μ s ≤ n →
    run cond body m s = run cond body n s := by
  intro m
  induction m with
  | zero =>
    intro n s hs hm _
    have hf : cond s = false := run_exit hstep hdec 0 s hs hm
    rw [run_done hf, run_done hf]
  | succ m ih =>
    intro n s hs hm hn
    by_cases hc : cond s = true
    · have hd := hdec s hc hs
      cases n with
      | zero => omega
      | succ n =>
        rw [run_step hc, run_step hc]
        exact ih n _ (hstep s hc hs) (by omega) (by omega)
    · have hf : cond s = false := by simpa using hc
      rw [run_done hf, run_done hf]

/-- Iterations that all succeed, in a loop that ends on its own.  They may work on states of
another kind, as long as `f` has the same states among these. -/
theorem tryRun_eq {tryCond : τ → Bool} {tryBody : τ → Except ε τ} {endless : ε} {f : σ → τ}
    (hcond : ∀ s, P s → tryCond (f s) = cond s)
    (hok : ∀ s, cond s = true → P s → tryBody (f s) = .ok (f (body s))) :
    ∀ (fuel : Nat) (s : σ), P s → μ s ≤ fuel →
      tryRun tryCond tryBody endless fuel (f s) = .ok (f (run cond body fuel s)) := by
  intro fuel
  induction fuel with
  | zero =>
    intro s hs hμ
    have hf : cond s = false := run_exit hstep hdec 0 s hs hμ
    exact tryRun_done ((hcond s hs).trans hf) 0
  | succ fuel ih =>
    intro s hs hμ
    by_cases hc : cond s = true
    · have hd := hdec s hc hs
      rw [tryRun_ok ((hcond s hs).trans hc) (hok s hc hs), run_step hc]
      exact ih _ (hstep s hc hs) (by omega)
    · have hf : cond s = false := by simpa using hc
      rw [tryRun_done ((hcond s hs).trans hf), run_done hf]

end Measure

end BoundedLoop
