import Mathlib.Data.List.Induction
import Mathlib.Logic.Basic

/-!
# Programs that can go wrong

A program with a state stops where its behaviour is undefined.  A run that gets to its end has
come to the end of every part (`run_bind_eq_some`); what each part preserves, the whole preserves.
`run_serves_iff` is about calls of which some break the invariant: where a call that breaks it shows
at once, only these calls have to be kept out.
-/

namespace Fallible

/-- A program on a state; `none` where its behaviour is undefined. -/
abbrev Program (σ α : Type) := StateT σ Option α

variable {σ α β : Type} {s s' : σ} {a : α}

/-- The access that no program may make. -/
def fault : Program σ α := StateT.lift none

@[simp] theorem run_fault (s : σ) : (fault : Program σ α).run s = none := rfl

@[simp] theorem run_pure (a : α) (s : σ) : (pure a : Program σ α).run s = some (a, s) := rfl

@[simp] theorem run_get (s : σ) : (get : Program σ σ).run s = some (s, s) := rfl

@[simp] theorem run_modify (f : σ → σ) (s : σ) :
    (modify f : Program σ Unit).run s = some ((), f s) := rfl

theorem run_bind (x : Program σ α) (k : α → Program σ β) (s : σ) :
    (x >>= k).run s = (x.run s).bind fun r => (k r.1).run r.2 := rfl

theorem run_bind_some {x : Program σ α} (h : x.run s = some (a, s')) (k : α → Program σ β) :
    (x >>= k).run s = (k a).run s' := by
  rw [run_bind, h]
  rfl

theorem run_bind_none {x : Program σ α} (h : x.run s = none) (k : α → Program σ β) :
    (x >>= k).run s = none := by
  rw [run_bind, h]
  rfl

theorem run_bind_eq_some {x : Program σ α} {k : α → Program σ β} {r : β × σ} :
    (x >>= k).run s = some r ↔ ∃ a s', x.run s = some (a, s') ∧ (k a).run s' = some r := by
  rw [run_bind, Option.bind_eq_some_iff]
  exact Prod.exists

/-! ## What a program preserves -/

/-- What holds before the program holds after it, if it comes to its end. -/
def Preserves (P : σ → Prop) (x : Program σ α) : Prop :=
  ∀ s a s', P s → x.run s = some (a, s') → P s'

variable {P : σ → Prop}

theorem Preserves.fault : Preserves P (fault : Program σ α) := fun _ _ _ _ h => nomatch h

theorem Preserves.pure (a : α) : Preserves P (pure a : Program σ α) := by
  rintro s a' s' hs h
  cases h
  exact hs

theorem Preserves.get : Preserves P (get : Program σ σ) := by
  rintro s a' s' hs h
  cases h
  exact hs

theorem Preserves.modify {f : σ → σ} (hf : ∀ s, P s → P (f s)) :
    Preserves P (modify f : Program σ Unit) := by
  rintro s a' s' hs h
  cases h
  exact hf s hs

theorem Preserves.bind {x : Program σ α} {k : α → Program σ β} (hx : Preserves P x)
    (hk : ∀ a, Preserves P (k a)) : Preserves P (x >>= k) := by
  intro s b s'' hs h
  obtain ⟨a, s', hrun, hnext⟩ := run_bind_eq_some.mp h
  exact hk a s' b s'' (hx s a s' hs hrun) hnext

theorem Preserves.ite {c : Prop} [Decidable c] {x y : Program σ α} (hx : Preserves P x)
    (hy : Preserves P y) : Preserves P (if c then x else y) := by
  by_cases hc : c
  · rw [if_pos hc]
    exact hx
  · rw [if_neg hc]
    exact hy

/-! ## Calls one after the other -/

section Calls

variable {ι : Type} {step : σ → ι → Option σ} {Good Serves : σ → Prop}
  {Harmless : σ → ι → Prop}

/-- The state after a sequence of calls. -/
def run (step : σ → ι → Option σ) (s : σ) (calls : List ι) : Option σ := calls.foldlM step s

theorem run_snoc (s : σ) (calls : List ι) (call : ι) :
    run step s (calls ++ [call]) = (run step s calls).bind fun s' => step s' call := by
  rw [run, List.foldlM_append]
  refine congrArg _ (funext fun s' => ?_)
  rw [List.foldlM_cons]
  exact bind_pure _

/-- Harmless calls come to their end, in a good state. -/
theorem good_of_harmless
    (hstep : ∀ s call, Good s → Harmless s call → ∃ s', step s call = some s' ∧ Good s')
    {s : σ} (hs : Good s) {calls : List ι}
    (h : ∀ before call, before ++ [call] <+: calls → ∀ s', run step s before = some s' →
      Harmless s' call) :
    ∃ s', run step s calls = some s' ∧ Good s' := by
  induction calls using List.reverseRecOn with
  | nil => exact ⟨s, rfl, hs⟩
  | append_singleton calls call ih =>
    obtain ⟨s₁, hrun, hs₁⟩ := ih fun before call' hbefore =>
      h before call' (hbefore.trans (List.prefix_append ..))
    rw [run_snoc, hrun]
    exact hstep s₁ call hs₁ (h calls call List.prefix_rfl s₁ hrun)

/-- Where every state serves, the last one is good, if a good state that comes to one that serves
has been left by a harmless call. -/
theorem good_of_serves
    (hstep : ∀ s call, Good s → Harmless s call → ∃ s', step s call = some s' ∧ Good s')
    (hharmful : ∀ s call s', Good s → step s call = some s' → Serves s' → Harmless s call)
    {s : σ} (hs : Good s) {calls : List ι}
    (h : ∀ before, before <+: calls → ∃ s', run step s before = some s' ∧ Serves s') :
    ∃ s', run step s calls = some s' ∧ Good s' := by
  induction calls using List.reverseRecOn with
  | nil => exact ⟨s, rfl, hs⟩
  | append_singleton calls call ih =>
    obtain ⟨s₁, hrun, hs₁⟩ := ih fun before hbefore =>
      h before (hbefore.trans (List.prefix_append ..))
    obtain ⟨s₂, hlast, hserves⟩ := h _ List.prefix_rfl
    rw [run_snoc, hrun] at hlast ⊢
    exact hstep s₁ call hs₁ (hharmful s₁ call s₂ hs₁ hlast hserves)

/-- Every state on the way is there and serves exactly if every call is harmless in the state it is
made in, where this is so for one call in a good state. -/
theorem run_serves_iff (hgood : ∀ s, Good s → Serves s)
    (hstep : ∀ s call, Good s → Harmless s call → ∃ s', step s call = some s' ∧ Good s')
    (hharmful : ∀ s call s', Good s → step s call = some s' → Serves s' → Harmless s call)
    {s : σ} (hs : Good s) (calls : List ι) :
    (∀ before, before <+: calls → ∃ s', run step s before = some s' ∧ Serves s') ↔
      ∀ before call, before ++ [call] <+: calls → ∀ s', run step s before = some s' →
        Harmless s' call := by
  constructor
  · intro hserves before call hbefore s₁ hrun
    obtain ⟨s', hrun', hs₁⟩ := good_of_serves hstep hharmful hs fun first hfirst =>
      hserves first (hfirst.trans ((List.prefix_append ..).trans hbefore))
    cases hrun.symm.trans hrun'
    obtain ⟨s₂, hnext, hserves₂⟩ := hserves _ hbefore
    rw [run_snoc, hrun] at hnext
    exact hharmful s₁ call s₂ hs₁ hnext hserves₂
  · intro hharmless before hbefore
    obtain ⟨s', hrun, hs'⟩ := good_of_harmless hstep hs fun first call hfirst =>
      hharmless first call (hfirst.trans hbefore)
    exact ⟨s', hrun, hgood s' hs'⟩

end Calls

end Fallible
