import Mathlib.Data.List.Basic

/-!
# Handling a message

A handler reads the payload of a message, looks at a state and changes it, sends answers and returns
a result.  It is all or nothing if it either refuses, and has changed nothing, or accepts.  Two
judgments show it by the shape of the handler: `Settles`, as long as nothing has been changed, and
`Accepts`, once it can no longer refuse.  `Keeps` is for what holds of the state before and after.
-/

namespace Exchange

/-- The state, and what has been read and answered since the message came in. -/
structure Trace (σ α : Type) where
  state : σ
  reads : List Nat := []
  answers : List α := []

abbrev Handling (σ α : Type) := StateM (Trace σ α)

variable {σ α β γ ρ : Type}

/-- Read a byte of the payload. -/
def read (payload : Nat → β) (i : Nat) : Handling σ α β := do
  modify fun t => { t with reads := t.reads ++ [i] }
  return payload i

def answer (a : α) : Handling σ α Unit := modify fun t => { t with answers := t.answers ++ [a] }

def getState : Handling σ α σ := do return (← get).state

def modifyState (change : σ → σ) : Handling σ α Unit :=
  modify fun t => { t with state := change t.state }

@[simp] theorem run_bind (x : Handling σ α β) (k : β → Handling σ α γ) (t : Trace σ α) :
    (x >>= k).run t = (k (x.run t).1).run (x.run t).2 := rfl

@[simp] theorem run_pure (b : β) (t : Trace σ α) :
    (pure b : Handling σ α β).run t = (b, t) := rfl

@[simp] theorem run_read (payload : Nat → β) (i : Nat) (t : Trace σ α) :
    (read payload i).run t = (payload i, { t with reads := t.reads ++ [i] }) := rfl

@[simp] theorem run_answer (a : α) (t : Trace σ α) :
    (answer a : Handling σ α Unit).run t = ((), { t with answers := t.answers ++ [a] }) := rfl

@[simp] theorem run_getState (t : Trace σ α) :
    (getState : Handling σ α σ).run t = (t.state, t) := rfl

@[simp] theorem run_modifyState (change : σ → σ) (t : Trace σ α) :
    (modifyState change : Handling σ α Unit).run t = ((), { t with state := change t.state }) := rfl

/-- What there is to know about refusals: the answers that are one, and the result that is none. -/
structure Manners (α ρ : Type) where
  refusal : α → Prop
  ok : ρ

/-- Only the first `size` bytes have been read, and nothing is answered yet. -/
structure Ready (size : Nat) (t : Trace σ α) : Prop where
  reads : ∀ i ∈ t.reads, i < size
  answers : t.answers = []

/-- Only the first `size` bytes have been read, there is one answer, it is a refusal exactly if the
result is not `ok`, and then the state is still `s`. -/
structure Settled (m : Manners α ρ) (size : Nat) (s : σ) (result : ρ) (t : Trace σ α) : Prop where
  reads : ∀ i ∈ t.reads, i < size
  answer : ∃ a, t.answers = [a] ∧ (m.refusal a ↔ result ≠ m.ok)
  unchanged : result ≠ m.ok → t.state = s

/-- It reads, at most. -/
def Looks (size : Nat) (x : Handling σ α β) : Prop :=
  ∀ t, Ready size t → Ready size (x.run t).2 ∧ (x.run t).2.state = t.state

/-- It reads and changes the state, at most. -/
def Works (size : Nat) (x : Handling σ α β) : Prop := ∀ t, Ready size t → Ready size (x.run t).2

/-- It sends one answer, no refusal, and is satisfied. -/
def Accepts (m : Manners α ρ) (size : Nat) (x : Handling σ α ρ) : Prop :=
  ∀ t, Ready size t → (x.run t).1 = m.ok ∧ Settled m size t.state (x.run t).1 (x.run t).2

/-- It is all or nothing. -/
def Settles (m : Manners α ρ) (size : Nat) (x : Handling σ α ρ) : Prop :=
  ∀ t, Ready size t → Settled m size t.state (x.run t).1 (x.run t).2

/-- What holds of the state still holds afterwards. -/
def Keeps (P : σ → Prop) (x : Handling σ α β) : Prop := ∀ t, P t.state → P (x.run t).2.state

variable {m : Manners α ρ} {size : Nat} {P : σ → Prop}

/-! ## Rules -/

theorem Looks.read {payload : Nat → β} {i : Nat} (hi : i < size) :
    Looks (σ := σ) (α := α) size (read payload i) := by
  intro t ht
  refine ⟨⟨fun j hj => ?_, ht.answers⟩, rfl⟩
  rcases List.mem_append.mp hj with hj | hj
  · exact ht.reads j hj
  · rw [List.mem_singleton.mp hj]
    exact hi

theorem Looks.pure (b : β) : Looks (σ := σ) (α := α) size (pure b) := fun _ ht => ⟨ht, rfl⟩

theorem Looks.getState : Looks (α := α) size (getState : Handling σ α σ) := fun _ ht => ⟨ht, rfl⟩

theorem Looks.bind {x : Handling σ α β} {k : β → Handling σ α γ} (hx : Looks size x)
    (hk : ∀ b, Looks size (k b)) : Looks size (x >>= k) := by
  intro t ht
  obtain ⟨hready, hstate⟩ := hx t ht
  obtain ⟨hready', hstate'⟩ := hk (x.run t).1 (x.run t).2 hready
  exact ⟨hready', hstate'.trans hstate⟩

theorem Looks.works {x : Handling σ α β} (h : Looks size x) : Works size x := fun t ht => (h t ht).1

theorem Works.modifyState (change : σ → σ) :
    Works size (modifyState change : Handling σ α Unit) := fun _ ht => ⟨ht.reads, ht.answers⟩

theorem Works.bind {x : Handling σ α β} {k : β → Handling σ α γ} (hx : Works size x)
    (hk : ∀ b, Works size (k b)) : Works size (x >>= k) :=
  fun t ht => hk (x.run t).1 (x.run t).2 (hx t ht)

theorem Works.forM {l : List β} {f : β → Handling σ α Unit} (h : ∀ b ∈ l, Works size (f b)) :
    Works size (l.forM f) := by
  induction l with
  | nil => exact fun _ ht => ht
  | cons b l ih =>
    show Works size (f b >>= fun _ => l.forM f)
    exact Works.bind (h b List.mem_cons_self) fun _ =>
      ih fun c hc => h c (List.mem_cons_of_mem b hc)

theorem Accepts.answer {a : α} (ha : ¬m.refusal a) :
    Accepts (σ := σ) m size (answer a >>= fun _ => Pure.pure m.ok) := by
  intro t ht
  refine ⟨rfl, ht.reads, ⟨a, ?_, iff_of_false ha (not_not.mpr rfl)⟩, fun h => absurd rfl h⟩
  show t.answers ++ [a] = [a]
  rw [ht.answers, List.nil_append]

theorem Accepts.bind {x : Handling σ α β} {k : β → Handling σ α ρ} (hx : Works size x)
    (hk : ∀ b, Accepts m size (k b)) : Accepts m size (x >>= k) := by
  intro t ht
  obtain ⟨hok, hsettled⟩ := hk (x.run t).1 (x.run t).2 (hx t ht)
  exact ⟨hok, hsettled.reads, hsettled.answer, fun h => absurd hok h⟩

theorem Accepts.settles {x : Handling σ α ρ} (h : Accepts m size x) : Settles m size x :=
  fun t ht => (h t ht).2

theorem Settles.refuse {a : α} {r : ρ} (ha : m.refusal a) (hr : r ≠ m.ok) :
    Settles (σ := σ) m size (Exchange.answer a >>= fun _ => Pure.pure r) := by
  intro t ht
  refine ⟨ht.reads, ⟨a, ?_, iff_of_true ha hr⟩, fun _ => rfl⟩
  show t.answers ++ [a] = [a]
  rw [ht.answers, List.nil_append]

theorem Settles.bind {x : Handling σ α β} {k : β → Handling σ α ρ} (hx : Looks size x)
    (hk : ∀ b, Settles m size (k b)) : Settles m size (x >>= k) := by
  intro t ht
  obtain ⟨hready, hstate⟩ := hx t ht
  have hsettled := hk (x.run t).1 (x.run t).2 hready
  exact ⟨hsettled.reads, hsettled.answer, fun h => (hsettled.unchanged h).trans hstate⟩

theorem Settles.ite {c : Prop} [Decidable c] {x y : Handling σ α ρ} (hx : c → Settles m size x)
    (hy : ¬c → Settles m size y) : Settles m size (if c then x else y) := by
  split
  · next h => exact hx h
  · next h => exact hy h

theorem Keeps.read (payload : Nat → β) (i : Nat) : Keeps (α := α) P (read payload i) :=
  fun _ h => h

theorem Keeps.answer (a : α) : Keeps P (answer a) := fun _ h => h

theorem Keeps.pure (b : β) : Keeps (α := α) P (Pure.pure b) := fun _ h => h

theorem Keeps.getState : Keeps (α := α) P getState := fun _ h => h

theorem Keeps.modifyState {change : σ → σ} (h : ∀ s, P s → P (change s)) :
    Keeps (α := α) P (modifyState change) := fun t ht => h t.state ht

theorem Keeps.bind {x : Handling σ α β} {k : β → Handling σ α γ} (hx : Keeps P x)
    (hk : ∀ b, Keeps P (k b)) : Keeps P (x >>= k) :=
  fun t ht => hk (x.run t).1 (x.run t).2 (hx t ht)

theorem Keeps.ite {c : Prop} [Decidable c] {x y : Handling σ α β} (hx : Keeps P x)
    (hy : Keeps P y) : Keeps P (if c then x else y) := by
  split
  · exact hx
  · exact hy

theorem Keeps.forM {l : List β} {f : β → Handling σ α Unit} (h : ∀ b ∈ l, Keeps P (f b)) :
    Keeps P (l.forM f) := by
  induction l with
  | nil => exact fun _ ht => ht
  | cons b l ih =>
    show Keeps P (f b >>= fun _ => l.forM f)
    exact Keeps.bind (h b List.mem_cons_self) fun _ =>
      ih fun c hc => h c (List.mem_cons_of_mem b hc)

end Exchange
