import Mathlib.Data.List.Induction

/-!
# Replaying a record of events

A specification can be a machine that reads events: `step` says which events may happen in a
state, and what they lead to.  `Replays` reads a whole record.  An implementation that keeps a
record meets the specification when its records can be replayed.  Then every event of a record
found the machine in a state that allowed it (`replays_split`), and what every allowed event
keeps holds after all of them (`replays_induction`).
-/

namespace Replay

variable {σ ε : Type}

/-- The events, one after another, lead from the first state to the last. -/
def Replays (step : σ → ε → σ → Prop) : σ → List ε → σ → Prop
  | s, [], s' => s = s'
  | s, event :: rest, s' => ∃ m, step s event m ∧ Replays step m rest s'

variable {step : σ → ε → σ → Prop} {s m s' : σ} {before after : List ε} {event : ε}

theorem replays_append :
    Replays step s (before ++ after) s' ↔
      ∃ m, Replays step s before m ∧ Replays step m after s' := by
  induction before generalizing s with
  | nil =>
    constructor
    · exact fun h => ⟨s, rfl, h⟩
    · rintro ⟨m, rfl, h⟩
      exact h
  | cons first rest ih =>
    constructor
    · rintro ⟨t, hfirst, h⟩
      obtain ⟨m, hrest, hafter⟩ := ih.mp h
      exact ⟨m, ⟨t, hfirst, hrest⟩, hafter⟩
    · rintro ⟨m, ⟨t, hfirst, hrest⟩, hafter⟩
      exact ⟨t, hfirst, ih.mpr ⟨m, hrest, hafter⟩⟩

theorem replays_snoc (h : Replays step s before m) (hevent : step m event s') :
    Replays step s (before ++ [event]) s' :=
  replays_append.mpr ⟨m, h, s', hevent, rfl⟩

/-- Every event of a record was allowed. -/
theorem replays_split (h : Replays step s (before ++ event :: after) s') :
    ∃ m m', Replays step s before m ∧ step m event m' ∧ Replays step m' after s' := by
  obtain ⟨m, hbefore, m', hevent, hafter⟩ := replays_append.mp h
  exact ⟨m, m', hbefore, hevent, hafter⟩

/-- What holds of nothing and is kept by every allowed event holds of a record. -/
theorem replays_induction {P : List ε → σ → Prop} (hnil : P [] s)
    (hsnoc : ∀ before event m m', Replays step s before m → P before m → step m event m' →
      P (before ++ [event]) m') :
    ∀ {trace : List ε} {s' : σ}, Replays step s trace s' → P trace s' := by
  intro trace
  induction trace using List.reverseRecOn with
  | nil =>
    intro s' h
    exact (show s = s' from h) ▸ hnil
  | append_singleton before event ih =>
    intro s' h
    obtain ⟨m, m', hm, hevent, hafter⟩ := replays_split h
    exact (show m' = s' from hafter) ▸ hsnoc before event m m' hm (ih hm) hevent

end Replay
