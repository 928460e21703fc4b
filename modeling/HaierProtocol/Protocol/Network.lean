import HaierProtocol.Protocol.Ledger

/-!
# Two endpoints

Two endpoints whose streams are connected, each with its own clock and memory.  What one of them
writes becomes available to the other later, in order and without loss, in portions of any size.
Steps of the two sides follow each other in any order.
-/

namespace HaierProtocol

inductive Side where
  | left
  | right
deriving DecidableEq, Repr

def Side.peer : Side → Side
  | .left => .right
  | .right => .left

theorem Side.peer_peer (side : Side) : side.peer.peer = side := by cases side <;> rfl

theorem Side.peer_ne (side : Side) : side.peer ≠ side := by cases side <;> decide

abbrev Network := Side → Endpoint

namespace Network

open Endpoint

def start (cells : Side → Nat → UInt8) (bufferSize : Side → Nat) : Network :=
  fun side => .start (cells side) (bufferSize side)

/-- The bytes on their way to a side: what the other side has written and this side has neither
received nor available. -/
def inFlight (n : Network) (side : Side) : List UInt8 :=
  (n side.peer).output.drop ((n side).received.length + (n side).input.length)

inductive Step where
  | call (side : Side) (apiCall : ApiCall)
  | loop (side : Side) (reply : Reply)
  /-- Some of the bytes on their way to the side arrive. -/
  | deliver (side : Side) (count : Nat)

def Step.side : Step → Side
  | .call side _ => side
  | .loop side _ => side
  | .deliver side _ => side

/-- What the step is for its side. -/
def Step.own (n : Network) : Step → Endpoint.Step
  | .call _ apiCall => .call apiCall
  | .loop _ reply => .loop reply
  | .deliver side count => .arrive ((n.inFlight side).take count)

def step (env : Side → Surroundings) (n : Network) (s : Step) : Network :=
  Function.update n s.side ((n s.side).step (env s.side) (s.own n))

def run (env : Side → Surroundings) (n : Network) (steps : List Step) : Network :=
  steps.foldl (step env) n

theorem run_snoc (env : Side → Surroundings) (n : Network) (steps : List Step) (s : Step) :
    n.run env (steps ++ [s]) = (n.run env steps).step env s := List.foldl_append ..

theorem step_self (env : Side → Surroundings) (n : Network) (s : Step) :
    n.step env s s.side = (n s.side).step (env s.side) (s.own n) := Function.update_self ..

theorem step_of_ne (env : Side → Surroundings) (n : Network) {s : Step} {side : Side}
    (h : side ≠ s.side) : n.step env s side = n side := Function.update_of_ne h ..

/-- Each side goes through a run of its own. -/
theorem run_side (cells : Side → Nat → UInt8) (bufferSize : Side → Nat)
    (env : Side → Surroundings) (steps : List Step) (side : Side) :
    ∃ steps' : List Endpoint.Step, (start cells bufferSize).run env steps side =
      (Endpoint.start (cells side) (bufferSize side)).run (env side) steps' := by
  induction steps using List.reverseRecOn with
  | nil => exact ⟨[], rfl⟩
  | append_singleton steps s ih =>
    obtain ⟨own, hown⟩ := ih
    rw [run_snoc]
    by_cases h : side = s.side
    · subst h
      rw [step_self, hown, ← Endpoint.run_snoc]
      exact ⟨_, rfl⟩
    · rw [step_of_ne env _ h]
      exact ⟨own, hown⟩

/-! ## What has been delivered -/

/-- Nothing arrives by itself, and nothing recorded is lost. -/
structure Grows (e e' : Endpoint) : Prop where
  delivered : e'.received ++ e'.input = e.received ++ e.input
  output : e.output <+: e'.output
  trace : e.trace <+: e'.trace

theorem Grows.refl (e : Endpoint) : Grows e e :=
  ⟨rfl, List.prefix_refl _, List.prefix_refl _⟩

theorem Grows.trans {e e' e'' : Endpoint} (h : Grows e e') (h' : Grows e' e'') : Grows e e'' :=
  ⟨h'.delivered.trans h.delivered, h.output.trans h'.output, h.trace.trans h'.trace⟩

theorem Grows.change {env : Surroundings} {P : Invocation → Prop} {e e' : Endpoint}
    (h : Change env P e e') : Grows e e' := by
  cases h with
  | received =>
    refine ⟨?_, List.prefix_refl _, List.prefix_refl _⟩
    obtain ⟨buffer, hread, _, _⟩ := readData_spec e.handler.transport e.input
    rw [Endpoint.receive, hread]
    simp only [List.append_assoc, List.take_append_drop]
  | kept hkept htrace =>
    exact ⟨by rw [hkept.received, hkept.input], hkept.output ▸ List.prefix_refl _,
      htrace ▸ List.prefix_refl _⟩
  | emitted event hkept htrace =>
    exact ⟨by rw [hkept.received, hkept.input], hkept.output ▸ List.prefix_refl _,
      htrace ▸ List.prefix_append _ _⟩
  | wrote => exact ⟨rfl, List.prefix_append _ _, List.prefix_append _ _⟩
  | taken => exact ⟨rfl, List.prefix_refl _, List.prefix_append _ _⟩
  | finished => exact ⟨rfl, List.prefix_refl _, List.prefix_refl _⟩

theorem Grows.changes {env : Surroundings} {P : Invocation → Prop} {e e' : Endpoint}
    (h : Changes env P e e') : Grows e e' :=
  Relation.ReflTransGen.rec (.refl e) (fun _ hc hg => hg.trans (.change hc)) h

theorem served_run (cells : Side → Nat → UInt8) (bufferSize : Side → Nat)
    (env : Side → Surroundings) (steps : List Step) (side : Side) :
    ∃ d, Service.Serves ((start cells bufferSize).run env steps side) d := by
  obtain ⟨steps', hown⟩ := run_side cells bufferSize env steps side
  rw [hown]
  exact Service.serves_run _ _ _ steps'

theorem ledger_run_side (cells : Side → Nat → UInt8) (bufferSize : Side → Nat)
    (env : Side → Surroundings) (steps : List Step) (side : Side) :
    Ledger ((start cells bufferSize).run env steps side) := by
  obtain ⟨steps', hown⟩ := run_side cells bufferSize env steps side
  rw [hown]
  exact ledger_run _ _ _ steps'

/-- A step brings a side some bytes, or its line grows by what the side does. -/
theorem step_cases (env : Side → Surroundings) {n : Network}
    (hn : ∀ side, ∃ d, Service.Serves (n side) d) (s : Step) (side : Side) :
    (∃ count, n.step env s side =
        { n side with input := (n side).input ++ (n.inFlight side).take count }) ∨
      Grows (n side) (n.step env s side) := by
  by_cases h : side = s.side
  · subst h
    obtain ⟨d, hd⟩ := hn s.side
    rw [step_self]
    cases s with
    | call side c => exact .inr (.changes (changes_call _ hd.processing c))
    | loop side reply => exact .inr (.changes (changes_loop _ reply hd.line hd.processing))
    | deliver side count => exact .inl ⟨count, rfl⟩
  · rw [step_of_ne env n h]
    exact .inr (.refl _)

theorem output_step (env : Side → Surroundings) {n : Network}
    (hn : ∀ side, ∃ d, Service.Serves (n side) d) (s : Step) (side : Side) :
    (n side).output <+: (n.step env s side).output ∧
      (n side).trace <+: (n.step env s side).trace := by
  rcases step_cases env hn s side with ⟨count, heq⟩ | h
  · rw [heq]
    exact ⟨List.prefix_refl _, List.prefix_refl _⟩
  · exact ⟨h.output, h.trace⟩

/-- What a side has received or available is what the other side has written first. -/
def Carried (n : Network) : Prop :=
  ∀ side, (n side).received ++ (n side).input <+: (n side.peer).output

theorem carried_run (cells : Side → Nat → UInt8) (bufferSize : Side → Nat)
    (env : Side → Surroundings) (steps : List Step) :
    Carried ((start cells bufferSize).run env steps) := by
  induction steps using List.reverseRecOn with
  | nil => exact fun _ => List.nil_prefix
  | append_singleton steps s ih =>
    rw [run_snoc]
    have hserved := served_run cells bufferSize env steps
    intro side
    refine List.IsPrefix.trans ?_ (output_step env hserved s side.peer).1
    rcases step_cases env hserved s side with ⟨count, heq⟩ | h
    · obtain ⟨more, hmore⟩ := ih side
      rw [heq, inFlight, ← List.length_append, ← hmore, List.drop_left, ← List.append_assoc]
      exact (List.prefix_append_right_inj _).mpr (List.take_prefix _ _)
    · rw [h.delivered]
      exact ih side

end Network
end HaierProtocol
