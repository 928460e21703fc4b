import HaierProtocol.Lib.Replay

/-!
# Machines that answer calls

An object of a program is a machine: a call changes its state and is answered.  `record` is what
the object's user sees, the calls with the answers they got.  A machine implements a
specification when what it records can be replayed there (`replays_record`).  Two machines
cannot be told apart when they record the same (`record_congr`).
-/

namespace Machine

open Replay

variable {σ τ ι ο : Type}

/-- The state after a sequence of calls. -/
def after (step : σ → ι → σ × ο) : σ → List ι → σ
  | s, [] => s
  | s, call :: calls => after step (step s call).1 calls

/-- The calls with their answers. -/
def record (step : σ → ι → σ × ο) : σ → List ι → List (ι × ο)
  | _, [] => []
  | s, call :: calls => (call, (step s call).2) :: record step (step s call).1 calls

/-- Every call finds the machine in a state that permits it. -/
def Permitted (step : σ → ι → σ × ο) (permits : σ → ι → Prop) : σ → List ι → Prop
  | _, [] => True
  | s, call :: calls => permits s call ∧ Permitted step permits (step s call).1 calls

variable {step : σ → ι → σ × ο} {permits : σ → ι → Prop} {spec : τ → ι × ο → τ → Prop}
  {R : σ → τ → Prop}

/-- If the specification can follow every call, it can follow every sequence of calls. -/
theorem replays_record
    (hstep : ∀ s t call, R s t → permits s call →
      ∃ t', spec t (call, (step s call).2) t' ∧ R (step s call).1 t') :
    ∀ (calls : List ι) (s : σ) (t : τ), R s t → Permitted step permits s calls →
      ∃ t', Replays spec t (record step s calls) t' ∧ R (after step s calls) t' := by
  intro calls
  induction calls with
  | nil => exact fun s t h _ => ⟨t, rfl, h⟩
  | cons call calls ih =>
    rintro s t h ⟨hcall, hcalls⟩
    obtain ⟨m, hspec, hm⟩ := hstep s t call h hcall
    obtain ⟨t', hreplays, ht'⟩ := ih _ m hm hcalls
    exact ⟨t', ⟨m, hspec, hreplays⟩, ht'⟩

/-- States that answer every call alike, and stay so, record the same. -/
theorem record_congr {step' : τ → ι → τ × ο}
    (hstep : ∀ s t call, R s t →
      (step s call).2 = (step' t call).2 ∧ R (step s call).1 (step' t call).1) :
    ∀ (calls : List ι) (s : σ) (t : τ), R s t → record step s calls = record step' t calls := by
  intro calls
  induction calls with
  | nil => exact fun _ _ _ => rfl
  | cons call calls ih =>
    intro s t h
    obtain ⟨hanswer, hnext⟩ := hstep s t call h
    rw [record, record, hanswer, ih _ _ hnext]

end Machine
